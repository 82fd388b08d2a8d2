import Qubox.Update.Rollback

/-!
# Updates that fail

`apply_update` moves the running binary away before it moves the new one in, and
nothing puts it back. A failure after the backup leaves no binary under the name,
or the new one without a sentinel or a record.
-/

namespace Qubox.Update

open Interaction

section Statement

variable (locate : String → Place) (checker : UpdateChecker) (staged binary : String)

def applyIn (v : Volume) : Except UpdateError Unit × Volume :=
  (fileSystem locate).run (checker.applyUpdate staged binary) v

/-- If the update fails, the binary is there with the content that it had. -/
def StaysRunnable (v : Volume) : Prop :=
  ∀ e v', applyIn locate checker staged binary v = (.error e, v') →
    v'.disk.content? (locate binary) = v.disk.content? (locate binary)

/-- The neighbours of the binary and the sentinel are not the binary. -/
structure Neighbours : Prop where
  backup_ne : locate (sibling binary "prev") ≠ locate binary
  new_ne : locate (sibling binary "new") ≠ locate binary
  sentinel_ne : ∀ dirs ∈ checker.projectDirs,
    locate (UnixPath.join dirs.dataLocalDir restartSentinel) ≠ locate binary

/-! ## Before the update -/

def Seen (v : Volume) (path : String) : Prop := (v.metadata locate path).toBool = true

instance (v : Volume) (path : String) : Decidable (Seen locate v path) :=
  inferInstanceAs (Decidable (_ = true))

/-- What is to be moved in once the binary has been backed up. -/
def incoming (v : Volume) : Option Bytes :=
  if ¬ Seen locate v binary then v.disk.content? (locate staged)
  else if locate staged = locate binary then none
  else if locate staged = locate (sibling binary "prev") then v.disk.content? (locate binary)
  else v.disk.content? (locate staged)

/-- Both renames of the swap go through. -/
def Swaps (v : Volume) : Prop :=
  (incoming locate staged binary v).isSome ∧
    v.env.renameFault staged (sibling binary "new") = none ∧
    v.env.renameFault (sibling binary "new") binary = none

/-- The record of an update at the time of this environment. -/
def appliedRecord (env : FsEnv) : UpdateRecord where
  appliedAt := UInt64.ofNat (asMillis ((sinceEpoch env.clock).getD 0))
  binaryPath := binary
  prevVersion := some checker.currentVersion

/-- The sentinel and the record of the update can be written. -/
def Finishes (env : FsEnv) : Prop :=
  (∀ dirs ∈ checker.projectDirs, (env.createDirAll dirs.dataLocalDir).isOk ∧
    env.createFault (UnixPath.join dirs.dataLocalDir restartSentinel) = none ∧
      env.writeFault = none) ∧
  (env.recordUpdate (appliedRecord checker binary env)).isOk

/-- Nothing is moved, or nothing fails after the backup, or what fails leaves the same
content under the name. -/
def SafelyFails (v : Volume) : Prop :=
  ¬ Seen locate v staged ∨
  (Seen locate v binary ∧
    (v.env.renameFault binary (sibling binary "prev")).isSome) ∨
  (Swaps locate staged binary v ∧
    (incoming locate staged binary v = v.disk.content? (locate binary) ∨
      Finishes checker binary v.env)) ∨
  (¬ Swaps locate staged binary v ∧ ¬ Seen locate v binary ∧
    (locate staged ≠ locate binary ∨
      (v.env.renameFault staged (sibling binary "new")).isSome))

end Statement

section Proof

variable {locate : String → Place} {checker : UpdateChecker} {staged binary source target : String}
  {v v' : Volume} {e : UpdateError} {place : Place} {content : Bytes}

@[simp] theorem rename_env : (v.rename locate source target).env = v.env := rfl

theorem exec_rename_fault {error : IoError} (fault : v.env.renameFault source target = some error) :
    Volume.exec locate (.rename source target) v = (.error error, v) := by
  rw [Volume.exec, fault]

theorem exec_rename_missing (fine : v.env.renameFault source target = none)
    (missing : v.disk.content? (locate source) = none) :
    Volume.exec locate (.rename source target) v = (.error Volume.missing, v) := by
  rw [Volume.exec, fine, Option.map_eq_none_iff.mp missing]

theorem exec_rename (fine : v.env.renameFault source target = none)
    (there : v.disk.content? (locate source) = some content) :
    Volume.exec locate (.rename source target) v = (.ok (), v.rename locate source target) := by
  obtain ⟨file, named, -⟩ := Option.map_eq_some_iff.mp there
  rw [Volume.exec, fine, named]

/-- What was renamed is under its new name. -/
theorem content?_renamed (there : v.disk.content? (locate source) = some content)
    (target : String) :
    (v.rename locate source target).disk.content? (locate target) = some content := by
  obtain ⟨file, named, contains⟩ := Option.map_eq_some_iff.mp there
  exact (Disk.Holds.renamed ⟨named, contains⟩ (locate target)).content?

/-- Other names are not affected. -/
theorem content?_rename_of_ne (first : place ≠ locate source) (second : place ≠ locate target) :
    (v.rename locate source target).disk.content? place = v.disk.content? place := by
  have names : (v.rename locate source target).disk.names place = v.disk.names place :=
    Disk.names_rename_of_ne first second
  have files : (v.rename locate source target).disk.files = v.disk.files := Disk.files_rename ..
  rw [Disk.content?, names, files, Disk.content?]

theorem content?_rename_source (apart : locate source ≠ locate target) :
    (v.rename locate source target).disk.content? (locate source) = none := by
  have free : (v.rename locate source target).disk.names (locate source) = none :=
    v.unlinked.names_rename_source apart
  rw [Disk.content?, free, Option.map_none]

theorem run_syscall {α : Type} (a : Action)
    (k : a.Answer → Program signature UpdateError α) (v : Volume) :
    (fileSystem locate).run (syscall a >>= k) v =
      (fileSystem locate).run (k (Volume.exec locate a v).1) (Volume.exec locate a v).2 := rfl

/-! ## Moving the binary away -/

/-- The volume once the binary has been backed up. -/
def backedUp (locate : String → Place) (binary : String) (v : Volume) : Volume :=
  if Seen locate v binary then v.rename locate binary (sibling binary "prev") else v

@[simp] theorem backedUp_env : (backedUp locate binary v).env = v.env := by
  rw [backedUp]
  split <;> rfl

theorem run_backupCurrent_fault {error : IoError} (seen : Seen locate v binary)
    (fault : v.env.renameFault binary (sibling binary "prev") = some error) :
    (fileSystem locate).run (UpdateChecker.backupCurrent binary) v =
      (.error (.io (sibling binary "prev") error), v) := by
  have looked : Volume.exec locate (.pathExists binary) v = (true, v) := by
    rw [Volume.exec, seen]
  rw [UpdateChecker.backupCurrent, run_syscall, looked]
  change (fileSystem locate).run (syscall _ >>= _) _ = _
  rw [run_syscall, exec_rename_fault fault]
  rfl

theorem run_backupCurrent (fine : Seen locate v binary →
      v.env.renameFault binary (sibling binary "prev") = none)
    (here : v.disk.content? (locate binary) = some content) :
    (fileSystem locate).run (UpdateChecker.backupCurrent binary) v =
      (.ok (), backedUp locate binary v) := by
  rw [UpdateChecker.backupCurrent, run_syscall, backedUp]
  by_cases seen : Seen locate v binary
  · have looked : Volume.exec locate (.pathExists binary) v = (true, v) := by
      rw [Volume.exec, seen]
    rw [if_pos seen, looked]
    change (fileSystem locate).run (syscall _ >>= _) _ = _
    rw [run_syscall, exec_rename (fine seen) here]
    rfl
  · have looked : Volume.exec locate (.pathExists binary) v = (false, v) := by
      rw [Volume.exec, Bool.eq_false_iff.mpr seen]
    rw [if_neg seen, looked]
    rfl

/-- What is found under the staged path after the backup. -/
theorem content?_backedUp_staged (apart : Neighbours locate checker binary)
    (here : v.disk.content? (locate binary) = some content) :
    (backedUp locate binary v).disk.content? (locate staged) =
      incoming locate staged binary v := by
  rw [backedUp, incoming]
  by_cases seen : Seen locate v binary
  · rw [if_pos seen, if_neg (not_not.mpr seen)]
    split
    case isTrue same =>
      rw [same]
      exact content?_rename_source apart.backup_ne.symm
    case isFalse other =>
      split
      case isTrue same =>
        rw [same, here]
        exact content?_renamed here _
      case isFalse another => exact content?_rename_of_ne other another
  · rw [if_neg seen, if_pos seen]

theorem content?_backedUp_binary (apart : Neighbours locate checker binary) :
    (backedUp locate binary v).disk.content? (locate binary) =
      if Seen locate v binary then none else v.disk.content? (locate binary) := by
  rw [backedUp]
  split
  case isTrue => exact content?_rename_source apart.backup_ne.symm
  case isFalse => rfl

/-! ## Moving the new one in -/

theorem run_installStaged_staged {error : IoError}
    (failed : Volume.exec locate (.rename staged (sibling binary "new")) v = (.error error, v)) :
    (fileSystem locate).run (UpdateChecker.installStaged staged binary) v =
      (.error (.io (sibling binary "new") error), v) := by
  rw [UpdateChecker.installStaged, run_syscall, failed]
  rfl

theorem run_installStaged_new {error : IoError}
    (fine : v.env.renameFault staged (sibling binary "new") = none)
    (there : v.disk.content? (locate staged) = some content)
    (fault : v.env.renameFault (sibling binary "new") binary = some error) :
    (fileSystem locate).run (UpdateChecker.installStaged staged binary) v =
      (.error (.io binary error), v.rename locate staged (sibling binary "new")) := by
  have second : Volume.exec locate (.rename (sibling binary "new") binary)
      (v.rename locate staged (sibling binary "new")) = (.error error, _) := exec_rename_fault fault
  rw [UpdateChecker.installStaged, run_syscall, exec_rename fine there]
  change (fileSystem locate).run (syscall _ >>= _) _ = _
  rw [run_syscall, second]
  rfl

theorem run_installStaged (fine : v.env.renameFault staged (sibling binary "new") = none)
    (there : v.disk.content? (locate staged) = some content)
    (free : v.env.renameFault (sibling binary "new") binary = none) :
    (fileSystem locate).run (UpdateChecker.installStaged staged binary) v =
      (.ok (), (v.rename locate staged (sibling binary "new")).rename locate
        (sibling binary "new") binary) := by
  have second : Volume.exec locate (.rename (sibling binary "new") binary)
      (v.rename locate staged (sibling binary "new")) = (.ok (), _) :=
    exec_rename free (content?_renamed there _)
  rw [UpdateChecker.installStaged, run_syscall, exec_rename fine there]
  change (fileSystem locate).run (syscall _ >>= _) _ = _
  rw [run_syscall, second]
  rfl

/-! ## Sentinel and record -/

/-- The program leaves the environment and this content alone, and returns exactly if
the condition holds. -/
def Leaves (locate : String → Place) (place : Place) (succeeds : FsEnv → Prop)
    (p : Program signature UpdateError Unit) : Prop :=
  ∀ v : Volume, ∃ r v', (fileSystem locate).run p v = (r, v') ∧ v'.env = v.env ∧
    v'.disk.content? place = v.disk.content? place ∧ (r.isOk ↔ succeeds v.env)

theorem Leaves.bind {first second : FsEnv → Prop} {p q : Program signature UpdateError Unit}
    (hp : Leaves locate place first p) (hq : Leaves locate place second q) :
    Leaves locate place (fun env => first env ∧ second env) (p >>= fun _ => q) := by
  intro v
  obtain ⟨r, v₁, ran, env, content, ok⟩ := hp v
  cases r with
  | error e =>
      refine ⟨.error e, v₁, ?_, env, content, ?_⟩
      · rw [Machine.run_bind, ran, Machine.resume_error]
      · exact iff_of_false nofun fun both => nomatch ok.mpr both.1
  | ok =>
      obtain ⟨r, v₂, ran₂, env₂, content₂, ok₂⟩ := hq v₁
      refine ⟨r, v₂, ?_, env₂.trans env, content₂.trans content, ?_⟩
      · rw [Machine.run_bind, ran, Machine.resume_ok, ran₂]
      · rw [ok₂, env]
        exact (and_iff_right (ok.mp rfl)).symm

/-- A step of the system with `?` behind it. -/
theorem leaves_syscall {ε : Type} {a : Action} (wrap : ε → UpdateError)
    (result : a.Answer → Except ε Unit) (succeeds : FsEnv → Prop)
    (executes : ∀ v : Volume, (Volume.exec locate a v).2.env = v.env ∧
      (Volume.exec locate a v).2.disk.content? place = v.disk.content? place ∧
        ((result (Volume.exec locate a v).1).isOk ↔ succeeds v.env)) :
    Leaves locate place succeeds (syscall a >>= fun r => orFail wrap (result r)) := by
  intro v
  obtain ⟨env, content, ok⟩ := executes v
  refine ⟨(result (Volume.exec locate a v).1).mapError wrap, _, ?_, env, content, ?_⟩
  · rw [run_syscall]
    cases result (Volume.exec locate a v).1 <;> rfl
  · rw [← ok]
    cases result (Volume.exec locate a v).1 <;> rfl

/-- Writing another file leaves the content alone. -/
theorem content?_write_created {path : String} (apart : locate path ≠ place) (bytes : Bytes)
    (complete : Bool) :
    ((v.create locate path).2.write (v.create locate path).1 bytes complete).disk.content? place =
      v.disk.content? place := by
  have names : ((v.create locate path).2.write (v.create locate path).1 bytes
      complete).disk.names place = v.disk.names place := Disk.names_create_of_ne apart.symm
  rw [Disk.content?, Disk.content?, names]
  cases named : v.disk.names place with
  | none => rfl
  | some file =>
      have held : v.disk.Holds place file (v.disk.files file) := ⟨named, rfl⟩
      have other := v.unlinked.ne held apart
      have kept := (held.create other).write (held.create_ne other) 0 bytes
      exact congrArg some kept.contains

theorem leaves_fsWrite {path : String} (apart : locate path ≠ place) (bytes : Bytes) :
    Leaves locate place (fun env => env.createFault path = none ∧ env.writeFault = none)
      (fsWrite path bytes) := by
  intro v
  beta_reduce
  rw [fsWrite, run_syscall, Volume.exec]
  cases v.env.createFault path with
  | some error =>
      refine ⟨.error (.io path error), v, rfl, rfl, rfl, ?_⟩
      exact iff_of_false Bool.false_ne_true fun both => Option.some_ne_none _ both.1
  | none =>
      change ∃ r v', (fileSystem locate).run (syscall _ >>= _) _ = (r, v') ∧ _
      rw [run_syscall, Volume.exec]
      have env : (v.create locate path).2.env = v.env := rfl
      rw [env]
      cases v.env.writeFault with
      | some fault =>
          refine ⟨.error (.io path fault.1), _, rfl, rfl, content?_write_created apart _ _, ?_⟩
          exact iff_of_false Bool.false_ne_true fun both => Option.some_ne_none _ both.2
      | none =>
          refine ⟨.ok (), _, rfl, rfl, content?_write_created apart _ _, ?_⟩
          exact iff_of_true rfl ⟨rfl, rfl⟩

theorem leaves_writeSentinel (apart : Neighbours locate checker binary) :
    Leaves locate (locate binary)
      (fun env => ∀ dirs ∈ checker.projectDirs, (env.createDirAll dirs.dataLocalDir).isOk ∧
        env.createFault (UnixPath.join dirs.dataLocalDir restartSentinel) = none ∧
          env.writeFault = none)
      checker.writeSentinel := by
  rw [UpdateChecker.writeSentinel]
  cases found : checker.projectDirs with
  | none =>
      exact fun v => ⟨_, v, rfl, rfl, rfl, iff_of_true rfl fun dirs there =>
        absurd there (Option.not_mem_none dirs)⟩
  | some dirs =>
      have made : Leaves locate (locate binary)
          (fun env => (env.createDirAll dirs.dataLocalDir).isOk)
          (syscall (.createDirAll dirs.dataLocalDir) >>= fun r =>
            orFail (.io dirs.dataLocalDir) r) :=
        leaves_syscall (a := .createDirAll dirs.dataLocalDir) _ id _ fun v => ⟨rfl, rfl, Iff.rfl⟩
      have written := leaves_fsWrite (apart.sentinel_ne dirs found)
        checker.currentVersion.toByteArray.data.toList
      intro v
      have both := made.bind written v
      simp only [Option.mem_some, forall_eq']
      exact both

theorem leaves_recordApplied :
    Leaves locate (locate binary)
      (fun env => (env.recordUpdate (appliedRecord checker binary env)).isOk)
      (checker.recordApplied binary) := by
  intro v
  beta_reduce
  rw [UpdateChecker.recordApplied, run_syscall]
  change ∃ r v', (fileSystem locate).run (syscall _ >>= _) v = (r, v') ∧ _
  rw [run_syscall]
  change ∃ r v', (fileSystem locate).run (orFail .internal
    (v.env.recordUpdate (appliedRecord checker binary v.env))) v = (r, v') ∧ _
  cases v.env.recordUpdate (appliedRecord checker binary v.env) with
  | error error => exact ⟨.error (.internal error), v, rfl, rfl, rfl, iff_of_false nofun nofun⟩
  | ok => exact ⟨.ok (), v, rfl, rfl, rfl, iff_of_true rfl rfl⟩

/-- What follows the swap. -/
theorem leaves_finish (apart : Neighbours locate checker binary) :
    Leaves locate (locate binary) (Finishes checker binary)
      (checker.writeSentinel >>= fun _ => checker.recordApplied binary) :=
  (leaves_writeSentinel apart).bind leaves_recordApplied

/-! ## The whole update -/

theorem staysRunnable_of_run {r : Except UpdateError Unit}
    (ran : applyIn locate checker staged binary v = (r, v')) :
    StaysRunnable locate checker staged binary v ↔
      r.isOk ∨ v'.disk.content? (locate binary) = v.disk.content? (locate binary) := by
  rw [StaysRunnable, ran]
  cases r with
  | ok => exact iff_of_true (fun e v'' same => nomatch same) (.inl rfl)
  | error e =>
      constructor
      · exact fun stays => .inr (stays e v' rfl)
      · rintro (ok | kept) e'' v'' same
        · cases ok
        · cases same
          exact kept

/-- The update once the staged binary has been found. -/
theorem applyIn_of_seen (found : Seen locate v staged) :
    applyIn locate checker staged binary v =
      (fileSystem locate).resume (fun _ => UpdateChecker.installStaged staged binary >>= fun _ =>
          checker.writeSentinel >>= fun _ => checker.recordApplied binary)
        ((fileSystem locate).run (UpdateChecker.backupCurrent binary) v) := by
  have looked : Volume.exec locate (.pathExists staged) v = (true, v) := by
    rw [Volume.exec, found]
  rw [applyIn, UpdateChecker.applyUpdate, run_syscall, looked, ← Machine.run_bind]
  rfl

/-- The swap fails in its first step, or in its second with the staged file moved. -/
theorem run_installStaged_of_not_swaps (apart : Neighbours locate checker binary)
    (here : v.disk.content? (locate binary) = some content)
    (stuck : ¬ Swaps locate staged binary v) :
    ∃ e u, (fileSystem locate).run (UpdateChecker.installStaged staged binary)
        (backedUp locate binary v) = (.error e, u) ∧
      (u.disk.content? (locate binary) = some content ↔
        ¬ Seen locate v binary ∧ (locate staged ≠ locate binary ∨
          (v.env.renameFault staged (sibling binary "new")).isSome)) := by
  have staying := content?_backedUp_binary (v := v) apart
  have there : _ = incoming locate staged binary v := content?_backedUp_staged apart here
  cases first : v.env.renameFault staged (sibling binary "new") with
  | some error =>
      have failed : Volume.exec locate (.rename staged (sibling binary "new"))
          (backedUp locate binary v) = (.error error, _) :=
        exec_rename_fault (by rw [backedUp_env, first])
      refine ⟨_, _, run_installStaged_staged failed, ?_⟩
      rw [staying, here]
      by_cases seen : Seen locate v binary <;> simp [seen]
  | none =>
      cases moved : incoming locate staged binary v with
      | none =>
          rw [moved] at there
          have failed : Volume.exec locate (.rename staged (sibling binary "new"))
              (backedUp locate binary v) = (.error Volume.missing, _) :=
            exec_rename_missing (by rw [backedUp_env, first]) there
          refine ⟨_, _, run_installStaged_staged failed, ?_⟩
          rw [staying, here]
          by_cases seen : Seen locate v binary
          · simp [seen]
          · have other : locate staged ≠ locate binary := by
              intro same
              rw [incoming, if_pos seen, same, here] at moved
              cases moved
            simp [seen, other]
      | some bytes =>
          rw [moved] at there
          cases second : v.env.renameFault (sibling binary "new") binary with
          | none => exact absurd ⟨by rw [moved]; rfl, first, second⟩ stuck
          | some error =>
              refine ⟨_, _, run_installStaged_new (by rw [backedUp_env, first]) there
                (by rw [backedUp_env, second]), ?_⟩
              by_cases same : locate staged = locate binary
              · have gone : ((backedUp locate binary v).rename locate staged
                    (sibling binary "new")).disk.content? (locate staged) = none :=
                  content?_rename_source (same ▸ apart.new_ne.symm)
                rw [← same, gone]
                simp
              · rw [content?_rename_of_ne (Ne.symm same) apart.new_ne.symm, staying, here]
                by_cases seen : Seen locate v binary <;> simp [seen, same]

/-- An update that fails leaves the binary with its content exactly if nothing was
moved, nothing fails after the backup, or the content is the same. -/
theorem staysRunnable_iff (apart : Neighbours locate checker binary)
    (here : v.disk.content? (locate binary) = some content) :
    StaysRunnable locate checker staged binary v ↔
      SafelyFails locate checker staged binary v := by
  rw [SafelyFails]
  by_cases found : Seen locate v staged
  case neg =>
    have looked : Volume.exec locate (.pathExists staged) v = (false, v) := by
      rw [Volume.exec, Bool.eq_false_iff.mpr found]
    have ran : applyIn locate checker staged binary v =
        (.error (.io staged "staged binary missing"), v) := by
      rw [applyIn, UpdateChecker.applyUpdate, run_syscall, looked]
      rfl
    exact iff_of_true ((staysRunnable_of_run ran).mpr (.inr rfl)) (.inl found)
  case pos =>
    have whole : applyIn locate checker staged binary v = _ := applyIn_of_seen found
    by_cases kept : Seen locate v binary ∧
        (v.env.renameFault binary (sibling binary "prev")).isSome
    case pos =>
      obtain ⟨error, fault⟩ := Option.isSome_iff_exists.mp kept.2
      rw [run_backupCurrent_fault kept.1 fault, Machine.resume_error] at whole
      exact iff_of_true ((staysRunnable_of_run whole).mpr (.inr rfl)) (.inr (.inl kept))
    case neg =>
      have fine (seen : Seen locate v binary) :
          v.env.renameFault binary (sibling binary "prev") = none := by
        simpa using not_and.mp kept seen
      rw [run_backupCurrent fine here, Machine.resume_ok, Machine.run_bind] at whole
      by_cases swaps : Swaps locate staged binary v
      case pos =>
        obtain ⟨bytes, moved⟩ := Option.isSome_iff_exists.mp swaps.1
        have there := (content?_backedUp_staged apart here).trans moved
        have env : (backedUp locate binary v).env = v.env := backedUp_env
        rw [run_installStaged (env ▸ swaps.2.1) there (env ▸ swaps.2.2), Machine.resume_ok] at whole
        obtain ⟨r, v', ran, -, after, ok⟩ := leaves_finish apart _
        rw [ran] at whole
        rw [content?_renamed (content?_renamed there _)] at after
        rw [staysRunnable_of_run whole, after, ok, moved, or_comm]
        have same : Finishes checker binary
          ((((backedUp locate binary v).rename locate staged (sibling binary "new")).rename locate
            (sibling binary "new") binary).env) ↔ Finishes checker binary v.env := by
          rw [rename_env, rename_env, env]
        rw [same]
        constructor
        · exact fun fits => .inr (.inr (.inl ⟨swaps, fits⟩))
        · rintro (missing | stopped | fits | stuck)
          · exact absurd found missing
          · exact absurd stopped kept
          · exact fits.2
          · exact absurd swaps stuck.1
      case neg =>
        obtain ⟨e, u, ran, after⟩ := run_installStaged_of_not_swaps apart here swaps
        rw [ran, Machine.resume_error] at whole
        rw [staysRunnable_of_run whole, here, after]
        constructor
        · rintro (ok | spared)
          · cases ok
          · exact .inr (.inr (.inr ⟨swaps, spared⟩))
        · rintro (missing | stopped | fits | stuck)
          · exact absurd found missing
          · exact absurd stopped kept
          · exact absurd fits.1 swaps
          · exact .inr stuck.2

end Proof

namespace Sample

theorem neighbours : Neighbours UnixPath.components checker "/usr/bin/qubox" where
  backup_ne := by decide
  new_ne := by decide
  sentinel_ne := by
    rintro _ here
    obtain rfl := Option.some.inj here
    decide

/-- The directory of the binary cannot be written. -/
def readOnly : Volume :=
  withEnv { env with
    renameFault := fun source _ =>
      if source = "/usr/bin/qubox" then some "Permission denied (os error 13)"
      else none } beforeUpdate

theorem readOnly_staysRunnable :
    StaysRunnable UnixPath.components checker (stagedBinary dirs "0.2.0") "/usr/bin/qubox"
      readOnly := by
  have here : readOnly.disk.content? (UnixPath.components "/usr/bin/qubox") = some [48] := by
    decide
  exact (staysRunnable_iff neighbours here).mpr
    (.inr (.inl ⟨by decide, by decide⟩))

/-- The staging directory is on another file system. -/
def crossDevice : Volume :=
  withEnv { env with
    renameFault := fun source _ =>
      if source = stagedBinary dirs "0.2.0" then some "Invalid cross-device link (os error 18)"
      else none } beforeUpdate

/-- The old binary has been moved away when the new one cannot be moved in. -/
theorem crossDevice_not_staysRunnable :
    crossDevice.disk.content? (UnixPath.components "/usr/bin/qubox") = some [48] ∧
      ¬ StaysRunnable UnixPath.components checker (stagedBinary dirs "0.2.0") "/usr/bin/qubox"
        crossDevice := by
  refine ⟨by decide, fun stays => ?_⟩
  rcases (staysRunnable_of_run rfl).mp stays with ok | kept
  · revert ok
    decide
  · revert kept
    decide

end Sample

end Qubox.Update
