import Qubox.Update.Staging

/-!
# Starting after an update

`apply_update` leaves the restart sentinel behind, and `check_rollback` restores
the backup when the sentinel is less than a minute old. Nothing tells a start
that was asked for from one after a crash: the first start within the minute
puts the old binary back.

A start is the list of environments that its check meets, one for each of its
steps. `Settled` says of a start and the volume before it that the check finds
no backup, or a sentinel that is not recent.
-/

namespace Qubox.Update

open Interaction

section Statement

variable (locate : String → Place) (projectDirs : Option ProjectDirs)
  (currentExe : Except IoError String)

@[reducible] def fileSystem : Machine signature Volume := ⟨Volume.exec locate⟩

def withEnv (env : FsEnv) (v : Volume) : Volume := { v with env }

abbrev Start := List FsEnv

/-- The outcome of the check of one start, if it was not cut off, and the volume
after it. -/
def startDaemon (start : Start) (v : Volume) : Option (Except UpdateError Bool) × Volume :=
  (fileSystem locate).runAmid withEnv (startupCheck projectDirs currentExe) start v

/-- The binary has the content before and after each of the starts, and none of
them rolls back. -/
def StaysInstalled (content : Bytes) : List Start → Volume → Prop
  | [], v => v.disk.content? (locate (currentBinary currentExe)) = some content
  | start :: starts, v =>
      v.disk.content? (locate (currentBinary currentExe)) = some content ∧
      (startDaemon locate projectDirs currentExe start v).1 ≠ some (.ok true) ∧
      StaysInstalled content starts (startDaemon locate projectDirs currentExe start v).2

/-- Throughout the start there is no backup to be seen, or the sentinel is not
recent. -/
def Settled (start : Start) (v : Volume) : Prop :=
  ∀ dirs ∈ projectDirs,
    (∀ env ∈ start,
      ((withEnv env v).metadata locate (sibling (currentBinary currentExe) "prev")).toBool =
        false) ∨
    ∀ stat ∈ start, ∀ now ∈ start,
      withinGrace ((withEnv stat v).metadata locate
        (UnixPath.join dirs.dataLocalDir restartSentinel)) now.clock = false

instance (start : Start) (v : Volume) :
    Decidable (Settled locate projectDirs currentExe start v) :=
  Option.decidableForallMem _

def AllSettled : List Start → Volume → Prop
  | [], _ => True
  | start :: starts, v =>
      Settled locate projectDirs currentExe start v ∧
      AllSettled starts (startDaemon locate projectDirs currentExe start v).2

instance decidableAllSettled :
    ∀ starts v, Decidable (AllSettled locate projectDirs currentExe starts v)
  | [], _ => isTrue trivial
  | start :: starts, v =>
      haveI := decidableAllSettled starts (startDaemon locate projectDirs currentExe start v).2
      inferInstanceAs (Decidable (Settled locate projectDirs currentExe start v ∧
        AllSettled locate projectDirs currentExe starts
          (startDaemon locate projectDirs currentExe start v).2))

/-- The paths of an update denote different places. -/
structure Apart (staged : String) : Prop where
  binary_ne : locate (currentBinary currentExe) ≠ locate staged
  backup_ne : locate (sibling (currentBinary currentExe) "prev") ≠ locate staged
  backup_apart : locate (sibling (currentBinary currentExe) "prev") ≠
    locate (currentBinary currentExe)
  sentinel_apart : ∀ dirs ∈ projectDirs,
    locate (UnixPath.join dirs.dataLocalDir restartSentinel) ≠ locate (currentBinary currentExe)

end Statement

section Proof

variable {locate : String → Place} {checker : UpdateChecker} {currentExe : Except IoError String}
  {staged : String} {content : Bytes} {v : Volume}

/-! ## The update -/

/-- The errand of an update with this content. -/
def installation (locate : String → Place) (content : Bytes) : Errand where
  locate := locate
  staged _ := False
  target _ := False
  found := False
  good := (· = content)
  binary? := none

theorem has_iff {place : Place} :
    (installation locate content).Has v place ↔ v.disk.content? place = some content := by
  constructor
  · rintro ⟨file, bytes, holds, rfl⟩
    exact holds.content?
  · intro found
    obtain ⟨file, named, same⟩ := Option.map_eq_some_iff.mp found
    exact ⟨file, content, ⟨named, same⟩, rfl⟩

theorem Apart.clear (apart : Apart locate checker.projectDirs currentExe staged) :
    (installation locate content).Clear checker staged (currentBinary currentExe) where
  binary_ne := apart.binary_ne
  backup_ne := apart.backup_ne
  elsewhere same := nomatch same
  sentinel_ne := apart.sentinel_apart
  free _ _ := id
  sentinel_free _ _ := id

/-- An update that succeeds puts the staged content under the name of the binary. -/
theorem applyUpdate_installs {envs : List FsEnv} {v' : Volume}
    (apart : Apart locate checker.projectDirs currentExe staged)
    (here : v.disk.content? (locate staged) = some content)
    (applied : (fileSystem locate).runAmid withEnv
      (checker.applyUpdate staged (currentBinary currentExe)) envs v = (some (.ok ()), v')) :
    v'.disk.content? (locate (currentBinary currentExe)) = some content := by
  have kept (v : Volume) : Kept (installation locate content).staged (fun _ _ => True) v :=
    fun _ _ _ _ _ => trivial
  have step (phase : Errand.Phase) (a : Action) (v : Volume)
      (allowed : (installation locate content).Allows phase a)
      (suits : (installation locate content).Suits v phase) :=
    Errand.exec_suits allowed suits (kept v) (by
      rintro rfl path rfl
      cases allowed with
      | seek target => exact target.elim) (fun _ _ _ _ _ => trivial)
  obtain ⟨later, suits, returned⟩ := (fileSystem locate).runAmid_conforms withEnv envs
    (R := fun phase v => (installation locate content).Suits v phase)
    (Errand.applyUpdate_conforms apart.clear) (by
      intro env phase v suits
      cases phase <;> exact suits)
    (fun phase a v allowed suits => (step phase a v allowed suits).imp_right And.left)
    (has_iff.mpr here)
  rw [applied] at suits returned
  obtain rfl := returned () rfl
  exact has_iff.mp suits

/-! ## The starts -/

variable {projectDirs : Option ProjectDirs} {dirs : ProjectDirs}

/-- What is to hold after a start: it has not rolled back, and the binary has
the content. -/
def Safe (locate : String → Place) (currentExe : Except IoError String) (content : Bytes)
    (result : Option (Except UpdateError Bool) × Volume) : Prop :=
  result.1 ≠ some (.ok true) ∧
    result.2.disk.content? (locate (currentBinary currentExe)) = some content

/-- The action removes a file other than the binary. -/
def RemovesOther (locate : String → Place) (currentExe : Except IoError String) (a : Action) :
    Prop :=
  ∃ path, a = .removeFile path ∧ locate path ≠ locate (currentBinary currentExe)

/-- A check that only removes other files from now on is safe. -/
theorem safe_of_removesOther {p : Program signature UpdateError Bool} {start : Start}
    (contract : p.Upholds (fun _ _ => True) (RemovesOther locate currentExe) (· = false))
    (here : v.disk.content? (locate (currentBinary currentExe)) = some content) :
    Safe locate currentExe content ((fileSystem locate).runAmid withEnv p start v) := by
  have kept := (fileSystem locate).runAmid_invariant withEnv start
    (I := fun v => v.disk.content? (locate (currentBinary currentExe)) = some content)
    contract (s := v) ?_ here
  · refine ⟨fun rolled => ?_, kept.1⟩
    exact Bool.false_ne_true (kept.2 true rolled).symm
  · rintro env _ v ⟨path, rfl, apart⟩ here
    obtain ⟨file, named, same⟩ := Option.map_eq_some_iff.mp here
    have holds : v.disk.Holds (locate (currentBinary currentExe)) file content := ⟨named, same⟩
    simp only [Volume.exec]
    split
    · exact here
    · split
      · exact here
      · exact (holds.remove (v.unlinked.ne holds apart)).content?

/-- Before it has decided, the check has changed nothing. -/
theorem checkRollback_safe {start : Start}
    (apart : Apart locate (some dirs) currentExe staged)
    (settled : Settled locate (some dirs) currentExe start v)
    (here : v.disk.content? (locate (currentBinary currentExe)) = some content) :
    Safe locate currentExe content ((fileSystem locate).runAmid withEnv
      (checkRollback (currentBinary currentExe) dirs.dataLocalDir) start v) := by
  have sentinel : RemovesOther locate currentExe
      (.removeFile (UnixPath.join dirs.dataLocalDir restartSentinel)) :=
    ⟨_, rfl, apart.sentinel_apart dirs rfl⟩
  have backup : RemovesOther locate currentExe
      (.removeFile (sibling (currentBinary currentExe) "prev")) :=
    ⟨_, rfl, apart.backup_apart⟩
  have unmoved (env : FsEnv) : Safe locate currentExe content (none, withEnv env v) :=
    ⟨nofun, here⟩
  have settled := settled dirs rfl
  refine Machine.runAmid_act _ (unmoved v.env) ?_
  rintro first start found _ rfl - rfl
  cases found with
  | false => exact safe_of_removesOther rfl here
  | true =>
      refine Machine.runAmid_act _ (unmoved first) ?_
      rintro second start found _ rfl seen rfl
      cases found with
      | false => exact safe_of_removesOther ⟨sentinel, fun _ _ => rfl⟩ here
      | true =>
          refine Machine.runAmid_act _ (unmoved second) ?_
          rintro third start mtime _ rfl rfl rfl
          refine Machine.runAmid_act _ (unmoved third) ?_
          rintro fourth start now _ rfl rfl rfl
          have old : withinGrace ((withEnv third v).metadata locate
              (UnixPath.join dirs.dataLocalDir restartSentinel)) fourth.clock = false := by
            rcases settled with unseen | old
            · exact absurd ((unseen second (by simp)).symm.trans seen) Bool.false_ne_true
            · exact old third (by simp) fourth (by simp)
          change Safe locate currentExe content ((fileSystem locate).runAmid withEnv
            (restoreOrDiscard _ _ _ (withinGrace ((withEnv third v).metadata locate _)
              fourth.clock)) start (withEnv fourth v))
          rw [old]
          exact safe_of_removesOther ⟨sentinel, fun _ _ => ⟨backup, fun _ _ => rfl⟩⟩ here

/-- A settled start leaves the binary alone. -/
theorem startDaemon_safe {start : Start} (apart : Apart locate projectDirs currentExe staged)
    (settled : Settled locate projectDirs currentExe start v)
    (here : v.disk.content? (locate (currentBinary currentExe)) = some content) :
    Safe locate currentExe content (startDaemon locate projectDirs currentExe start v) := by
  cases projectDirs with
  | none => exact safe_of_removesOther rfl here
  | some dirs => exact checkRollback_safe apart settled here

/-- After an update has succeeded, the binary has the staged content before and
after every start, as long as each start is settled. -/
theorem staysInstalled_of_settled {envs : List FsEnv} {v' : Volume} {starts : List Start}
    (apart : Apart locate checker.projectDirs currentExe staged)
    (here : v.disk.content? (locate staged) = some content)
    (applied : (fileSystem locate).runAmid withEnv
      (checker.applyUpdate staged (currentBinary currentExe)) envs v = (some (.ok ()), v'))
    (settled : AllSettled locate checker.projectDirs currentExe starts v') :
    StaysInstalled locate checker.projectDirs currentExe content starts v' := by
  have installed := applyUpdate_installs apart here applied
  clear applied
  induction starts generalizing v' with
  | nil => exact installed
  | cons start starts ih =>
      have safe := startDaemon_safe apart settled.1 installed
      exact ⟨installed, safe.1, ih settled.2 safe.2⟩

end Proof

/-! ## A start within the minute -/

namespace Sample

/-- The environments of as many steps, the given time after the update. -/
def later (secs : Int) (steps : Nat) : List FsEnv :=
  List.replicate steps { env with clock := secs * 1000000000 }

/-- The old binary, and a staged one. -/
def beforeUpdate : Volume :=
  let old := (volume.create UnixPath.components "/usr/bin/qubox").2.write 0 [48] true
  (old.create UnixPath.components (stagedBinary dirs "0.2.0")).2.write 1 [97, 98] true

def afterUpdate : Volume :=
  ((fileSystem UnixPath.components).runAmid withEnv
    (checker.applyUpdate (stagedBinary dirs "0.2.0") "/usr/bin/qubox") (later 0 10)
    beforeUpdate).2

theorem apart : Apart UnixPath.components checker.projectDirs (.ok "/usr/bin/qubox")
    (stagedBinary dirs "0.2.0") where
  binary_ne := by decide
  backup_ne := by decide
  backup_apart := by decide
  sentinel_apart := by
    rintro _ here
    obtain rfl := Option.some.inj here
    decide

theorem updated :
    (fileSystem UnixPath.components).runAmid withEnv
      (checker.applyUpdate (stagedBinary dirs "0.2.0") "/usr/bin/qubox") (later 0 10)
      beforeUpdate = (some (.ok ()), afterUpdate) :=
  Prod.ext (by decide +kernel) rfl

/-- Five seconds after the update the first start puts the old binary back. -/
theorem promptStart_not_staysInstalled :
    ¬ ∀ (locate : String → Place) (checker : UpdateChecker) (currentExe : Except IoError String)
      (staged : String) (content : Bytes) (envs : List FsEnv) (v v' : Volume)
      (starts : List Start),
      Apart locate checker.projectDirs currentExe staged →
      v.disk.content? (locate staged) = some content →
      (fileSystem locate).runAmid withEnv
        (checker.applyUpdate staged (currentBinary currentExe)) envs v = (some (.ok ()), v') →
      StaysInstalled locate checker.projectDirs currentExe content starts v' := by
  intro always
  have kept := always UnixPath.components checker (.ok "/usr/bin/qubox")
    (stagedBinary dirs "0.2.0") [97, 98] (later 0 10) beforeUpdate afterUpdate [later 5 6] apart
    (by decide +kernel) updated
  have back : (startDaemon UnixPath.components checker.projectDirs (.ok "/usr/bin/qubox")
    (later 5 6) afterUpdate).1 = some (.ok true) := by decide +kernel
  exact kept.2.1 back

/-- A first start after a minute keeps the new binary, and so does the next. -/
theorem lateStarts_staysInstalled :
    AllSettled UnixPath.components checker.projectDirs (.ok "/usr/bin/qubox")
      [later 60 6, later 65 6] afterUpdate ∧
    StaysInstalled UnixPath.components checker.projectDirs (.ok "/usr/bin/qubox") [97, 98]
      [later 60 6, later 65 6] afterUpdate :=
  ⟨by decide +kernel, staysInstalled_of_settled apart (by decide +kernel) updated
    (by decide +kernel)⟩

end Sample

end Qubox.Update
