import Qubox.FileSync.Receive
import Qubox.Library.Protocol

/-!
# What concurrent receives install

A receive hashes the bytes of its stream and renames the file they were written
to. These are the same bytes as long as the file is its own and its last write has
landed. The partial name is computed from the target alone, so two receives of one
path, or one whose target is the partial name of another, work on the same file.
Then a receive may install a file it has not hashed, as it may when its last write
fails, of which it does not hear, or when a write of a receive that has ended lands
in its file.

`Undisturbed` says of a step that it neither cuts nor replaces a file that another
receive is working on, cuts none to which a write is on its way, and drops no error.
Under it every receive in progress holds a file of its own with the bytes it has
written, but for one write on its way: the invariant `Separate`.
-/

namespace Qubox.FileSync

open Interaction

section Statement

variable {Location : Type} [DecidableEq Location] (locate : String → Location)
  (blake3 : Bytes → BitVec 256)

/-- A receive that returns has installed bytes of the announced size and hash. -/
def Intact : Action → Prop
  | .returned header _ installed =>
      installed.length = header.size.toNat ∧ blake3 installed = header.blake3
  | _ => True

instance : DecidablePred (Intact blake3)
  | .returned _ _ _ => inferInstanceAs (Decidable (_ ∧ _))
  | .createDirAll _ | .canonicalize _ | .pathExists _ | .create _ | .writeAll _ _ _ | .syncAll _
  | .removeFile _ | .rename _ _ => isTrue trivial

/-- Every receive that returns in the schedule has installed what it announced. -/
def InstallsIntact (v : Volume Location) (moves : List RecvMove) : Prop :=
  ∀ e ∈ (receives locate blake3).trace (idle v) moves, Intact blake3 e.action

/-- The file a receive works on, told from what it does next: between the
creation of its partial file and its end it always writes, syncs, removes or
renames that file. -/
def file? (b : BufferedVolume Location) (t : Thread signature FileSyncError RecvCall) :
    Option FileId :=
  match t.next? with
  | some (.writeAll handle _ _) => b.file? handle
  | some (.syncAll handle) => b.file? handle
  | some (.removeFile path) => b.volume.disk.names (locate path)
  | some (.rename source _) => b.volume.disk.names (locate source)
  | _ => none

/-- The file that an action cuts to length zero or takes the name from. -/
def touched? (b : BufferedVolume Location) : Action → Option FileId
  | .create path => b.volume.disk.names (locate path)
  | .rename _ target => b.volume.disk.names (locate target)
  | _ => none

/-- No write of another receive, be it over, is on its way to the file that is created, and
`sync_all` has no error to drop. -/
def Heard (b : BufferedVolume Location) : Action → Prop
  | .create path => ∀ file ∈ b.volume.disk.names (locate path), ∀ o ∈ b.opened,
      o.file = file → o.pending = none
  | .syncAll handle => ∀ o ∈ b.opened[handle]?,
      o.failed = none ∧ (o.pending.isSome → b.volume.env.writeFault = none)
  | _ => True

instance (b : BufferedVolume Location) : DecidablePred (Heard locate b)
  | .create _ =>
      haveI (o : OpenFile) : Decidable (o.pending = none) :=
        decidable_of_iff _ Option.isNone_iff_eq_none
      haveI (file : FileId) : Decidable (∀ o ∈ b.opened, o.file = file → o.pending = none) :=
        List.decidableBAll _ _
      Option.decidableForallMem _
  | .syncAll _ =>
      haveI : Decidable (b.volume.env.writeFault = none) :=
        decidable_of_iff _ Option.isNone_iff_eq_none
      haveI (o : OpenFile) : Decidable (o.failed = none) :=
        decidable_of_iff _ Option.isNone_iff_eq_none
      Option.decidableForallMem _
  | .writeAll _ _ _ | .createDirAll _ | .canonicalize _ | .pathExists _ | .removeFile _
  | .rename _ _ | .returned _ _ _ => isTrue trivial

/-- The step touches no file that another receive works on, and misses no write. -/
def Undisturbed (P : RecvPool Location) : RecvMove → Prop
  | .step index =>
      ∀ a ∈ P.next? (.step index : RecvMove), Heard locate P.shared a ∧
        ∀ file ∈ touched? locate P.shared a,
          ∀ t ∈ P.threads.eraseIdx index, file? locate P.shared t ≠ some file
  | _ => True

instance (P : RecvPool Location) : DecidablePred (Undisturbed locate P)
  | .step _ => inferInstanceAs (Decidable (∀ _ ∈ _, _ ∧ _))
  | .call _ | .disturb _ => isTrue trivial

end Statement

/-! ## The phases of a receive -/

inductive Phase where
  | outside
  | holding (handle : Nat) (path : String) (written : Bytes)
  /-- All that was written has landed. -/
  | synced (handle : Nat) (path : String) (written : Bytes)
  | finished

namespace Phase

def handle? : Phase → Option Nat
  | .holding handle _ _ => some handle
  | .synced handle _ _ => some handle
  | _ => none

inductive Allows (blake3 : Bytes → BitVec 256) : Phase → Action → Prop
  | createDirAll {path : String} : Allows blake3 .outside (.createDirAll path)
  | canonicalize {path : String} : Allows blake3 .outside (.canonicalize path)
  | pathExists {path : String} : Allows blake3 .outside (.pathExists path)
  | create {path : String} : Allows blake3 .outside (.create path)
  | writeAll {handle : Nat} {path : String} {written bytes : Bytes} :
      Allows blake3 (.holding handle path written) (.writeAll handle written.length bytes)
  | syncAll {handle : Nat} {path : String} {written : Bytes} :
      Allows blake3 (.holding handle path written) (.syncAll handle)
  | removeFile {handle : Nat} {path : String} {written : Bytes} :
      Allows blake3 (.synced handle path written) (.removeFile path)
  | rename {handle : Nat} {path target : String} {written : Bytes} :
      Allows blake3 (.synced handle path written) (.rename path target)
  | returned {header : FileTransferHeader} {target : String} {installed : Bytes}
      (intact : Intact blake3 (.returned header target installed)) :
      Allows blake3 .finished (.returned header target installed)

/-- A rename moves what was written. -/
def Expects : Phase → (a : Action) → a.Answer → Prop
  | .synced _ _ written, .rename _ _, .ok moved => moved = written
  | _, _, _ => True

def after : Phase → (a : Action) → a.Answer → Phase
  | .outside, .create path, .ok handle => .holding handle path []
  | .holding handle path written, .writeAll _ _ bytes, .ok () =>
      .holding handle path (written ++ bytes)
  | .holding _ _ _, .writeAll _ _ _, .error _ => .outside
  | .holding handle path written, .syncAll _, .ok () => .synced handle path written
  | .holding _ _ _, .syncAll _, .error _ => .outside
  | .synced _ _ _, .removeFile _, _ => .outside
  | .synced _ _ _, .rename _ _, .ok _ => .finished
  | phase, _, _ => phase

end Phase

def transfer (blake3 : Bytes → BitVec 256) : Protocol signature Phase where
  allows := Phase.Allows blake3
  expects := Phase.Expects
  after := Phase.after

section Program

variable {blake3 : Bytes → BitVec 256} {phase : Phase}

variable {α β : Type} {wrap : IoError → FileSyncError} {r : Except IoError α}

theorem conforms_orFail {post : Phase → α → Prop} (h : ∀ a, r = .ok a → post phase a) :
    (orFail wrap r).Conforms (transfer blake3) post phase := by
  cases r with
  | ok a => exact h a rfl
  | error e => trivial

theorem conforms_orFail_bind {f : α → Program signature FileSyncError β} {post : Phase → β → Prop}
    (h : ∀ a, r = .ok a → (f a).Conforms (transfer blake3) post phase) :
    (orFail wrap r >>= f).Conforms (transfer blake3) post phase := by
  cases r with
  | ok a => exact h a rfl
  | error e => trivial

theorem deepestExisting_conforms (paths : List String) :
    (deepestExisting paths).Conforms (transfer blake3) (fun later _ => later = .outside)
      .outside := by
  induction paths with
  | nil => trivial
  | cons path above ih =>
      refine ⟨.pathExists, fun found _ => ?_⟩
      cases found with
      | true => rfl
      | false => exact ih

theorem createParent_conforms (target : String) :
    (createParent target).Conforms (transfer blake3) (fun later _ => later = .outside)
      .outside := by
  rw [createParent]
  split
  case h_1 => rfl
  case h_2 parent _ => exact ⟨.createDirAll, fun _ _ => conforms_orFail fun _ _ => rfl⟩

theorem resolveSafeTarget_conforms (destDir relativePath : String) :
    (resolveSafeTarget destDir relativePath).Conforms (transfer blake3)
      (fun later _ => later = .outside) .outside := by
  rw [resolveSafeTarget]
  split
  case h_1 => trivial
  case h_2 =>
    refine ⟨.createDirAll, fun created _ => conforms_orFail_bind fun _ _ => ?_⟩
    refine ⟨.canonicalize, fun resolved _ => conforms_orFail_bind fun destCanon _ => ?_⟩
    refine (createParent_conforms _).bind ?_
    rintro _ _ rfl
    refine (deepestExisting_conforms _).bind ?_
    rintro _ check rfl
    refine ⟨.canonicalize, fun resolved _ => conforms_orFail_bind fun checkCanon _ => ?_⟩
    split
    case isTrue => rfl
    case isFalse => trivial

theorem length_of_readExact {count : Nat} {stream bytes rest : Bytes}
    (read : readExact count stream = .ok (bytes, rest)) : bytes.length = count := by
  rw [readExact] at read
  split at read
  case isTrue => cases read
  case isFalse long =>
    cases read
    rw [List.length_take, Nat.min_eq_left (Nat.le_of_not_lt long)]

/-- The copy loop has written what it has fed to the hasher. -/
theorem receiveChunks_conforms (file : FileId) (path : String) (remaining : Nat)
    (stream received : Bytes) :
    (receiveChunks file remaining stream received).Conforms (transfer blake3)
      (fun later all => later = .holding file path all ∧
        all.length = received.length + remaining)
      (.holding file path received) := by
  fun_induction receiveChunks file remaining stream received with
  | case1 => trivial
  | case2 remaining stream received positive chunk bytes rest read ih =>
      refine ⟨.writeAll, fun written _ => conforms_orFail_bind ?_⟩
      rintro _ rfl
      have total : received.length + remaining =
          (received ++ bytes).length + (remaining - chunk) := by
        rw [List.length_append, length_of_readExact read]
        omega
      rw [total]
      exact ih
  | case3 remaining stream received finished =>
      obtain rfl : remaining = 0 := Nat.eq_zero_of_not_pos finished
      exact ⟨rfl, rfl⟩

theorem receiveInto_conforms (header : FileTransferHeader) (stream : Bytes) (target : String) :
    (receiveInto blake3 header stream target).Conforms (transfer blake3)
      (fun later installed => later = .finished ∧ Intact blake3 (.returned header target installed))
      .outside := by
  refine ⟨.create, fun created _ => conforms_orFail_bind ?_⟩
  rintro file rfl
  refine (receiveChunks_conforms file (partialPath target) _ stream []).bind ?_
  rintro _ received ⟨rfl, length⟩
  rw [List.length_nil, Nat.zero_add] at length
  refine ⟨.syncAll, fun synced _ => conforms_orFail_bind ?_⟩
  rintro _ rfl
  split
  case isTrue => exact ⟨.removeFile, fun _ _ => trivial⟩
  case isFalse same =>
    refine ⟨.rename, fun renamed moved => conforms_orFail ?_⟩
    rintro installed rfl
    obtain rfl : installed = received := moved
    exact ⟨rfl, length, not_not.mp same⟩

theorem recvFileBulk_conforms (stream : Bytes) (destDir : String) (maxBytes : Nat) :
    (recvFileBulk blake3 stream destDir maxBytes).Conforms (transfer blake3)
      (fun later result => later = .finished ∧
        Intact blake3 (.returned result.1 result.2.1 result.2.2)) .outside := by
  rw [recvFileBulk]
  split
  case h_1 => trivial
  case h_2 header body _ =>
    refine (resolveSafeTarget_conforms _ _).bind ?_
    rintro _ target rfl
    exact (receiveInto_conforms header body target).bind fun _ _ result => result

theorem body_conforms (call : RecvCall) :
    (call.body blake3).Conforms (transfer blake3) (fun _ _ => True) .outside := by
  refine (recvFileBulk_conforms _ _ _).bind ?_
  rintro _ result ⟨rfl, intact⟩
  exact ⟨.returned intact, fun _ _ => trivial⟩

end Program

/-! ## Receives that keep their files -/

section Invariant

variable {Location : Type} {locate : String → Location} {blake3 : Bytes → BitVec 256}
  {b : BufferedVolume Location} {phase other : Phase} {a : Action}
  {t : Thread signature FileSyncError RecvCall}

/-- The handle refers to a file with this content, which goes by the path; no write through
another handle is on its way to it. -/
structure Holding (locate : String → Location) (b : BufferedVolume Location) (handle : Nat)
    (path : String) (o : OpenFile) (content : Bytes) : Prop where
  found : b.opened[handle]? = some o
  holds : b.volume.disk.Holds (locate path) o.file content
  alone : ∀ other o', other ≠ handle → b.opened[other]? = some o' → o'.file = o.file →
    o'.pending = none

/-- With the write that is on its way the file contains what was written. -/
def OpenFile.Fills (o : OpenFile) (content written : Bytes) : Prop :=
  match o.pending with
  | none => content = written
  | some (offset, bytes) => offset = content.length ∧ content ++ bytes = written

/-- What the volume holds for a receive in this phase. -/
def Owns (locate : String → Location) (b : BufferedVolume Location) : Phase → Prop
  | .holding handle path written => ∃ o content, Holding locate b handle path o content ∧
      (o.failed = none → o.Fills content written)
  | .synced handle path written => ∃ o, Holding locate b handle path o written ∧ o.pending = none
  | _ => True

def Phase.file? (b : BufferedVolume Location) (phase : Phase) : Option FileId :=
  phase.handle?.bind b.file?

theorem Holding.file?_eq {handle : Nat} {path : String} {o : OpenFile} {content : Bytes}
    (h : Holding locate b handle path o content) : b.file? handle = some o.file := by
  rw [BufferedVolume.file?, h.found, Option.map_some]

/-- A receive that has a file holds it. -/
theorem Owns.holding {handle : Nat} (owns : Owns locate b phase) (has : phase.handle? = some handle) :
    ∃ path o content, Holding locate b handle path o content := by
  cases phase with
  | outside | finished => cases has
  | holding handle' path written =>
      obtain rfl := Option.some.inj has
      obtain ⟨o, content, holding, -⟩ := owns
      exact ⟨path, o, content, holding⟩
  | synced handle' path written =>
      obtain rfl := Option.some.inj has
      obtain ⟨o, holding, -⟩ := owns
      exact ⟨path, o, written, holding⟩

/-! ### A write lands -/

section Land

variable {handle : Nat} {path : String} {o : OpenFile} {content written : Bytes}

/-- A write of the handle lands: some of its bytes, or all if it does not fail. -/
structure Landing (b : BufferedVolume Location) (handle : Nat) (o o' : OpenFile) (offset : Nat)
    (bytes landed : Bytes) : Prop where
  found : b.opened[handle]? = some o
  pending : o.pending = some (offset, bytes)
  file : o'.file = o.file
  idle : o'.pending = none
  sound : b.volume.env.writeFault = none → o'.failed = o.failed
  whole : o'.failed = none → o.failed = none ∧ landed = bytes
  lands : b.land handle = {
    volume := { b.volume with disk := b.volume.disk.write o.file offset landed }
    opened := b.opened.set handle o' }

theorem land_cases (b : BufferedVolume Location) (handle : Nat) :
    b.land handle = b ∧ (∀ o ∈ b.opened[handle]?, o.pending = none) ∨
      ∃ o o' offset bytes landed, Landing b handle o o' offset bytes landed := by
  cases found : b.opened[handle]? with
  | none =>
      refine .inl ⟨?_, nofun⟩
      rw [BufferedVolume.land, found]
  | some o =>
      obtain ⟨file, pending, failed⟩ := o
      cases pending with
      | none =>
          refine .inl ⟨?_, fun o same => Option.some.inj same ▸ rfl⟩
          rw [BufferedVolume.land, found]
      | some write =>
          obtain ⟨offset, bytes⟩ := write
          refine .inr ⟨⟨file, some (offset, bytes), failed⟩, ?_⟩
          cases fault : b.volume.env.writeFault with
          | none =>
              refine ⟨⟨file, none, failed⟩, offset, bytes, bytes, found, rfl, rfl, rfl,
                fun _ => rfl, fun unfailed => ⟨unfailed, rfl⟩, ?_⟩
              simp only [BufferedVolume.land, found, fault]
          | some cause =>
              refine ⟨⟨file, none, some cause.1⟩, offset, bytes, bytes.take cause.2, found, rfl, rfl,
                rfl, fun none => ?_, fun unfailed => ?_, ?_⟩
              · rw [fault] at none
                cases none
              · cases unfailed
              · simp only [BufferedVolume.land, found, fault]

/-- An entry for the same file is put in place of an old one. -/
theorem set_file? {o o' : OpenFile} (found : b.opened[handle]? = some o) (same : o'.file = o.file)
    (other : Nat) :
    (b.opened.set handle o')[other]?.map OpenFile.file = b.opened[other]?.map OpenFile.file := by
  rw [List.getElem?_set]
  split
  case isTrue this =>
    subst this
    rw [if_pos (List.getElem?_eq_some_iff.mp found).1, found, Option.map_some, Option.map_some, same]
  case isFalse => rfl

theorem land_file? (b : BufferedVolume Location) (handle other : Nat) :
    (b.land handle).file? other = b.file? other := by
  obtain ⟨same, -⟩ | ⟨o, o', _, _, _, landing⟩ := land_cases b handle
  · rw [same]
  · rw [landing.lands]
    exact set_file? landing.found landing.file other

theorem land_names (b : BufferedVolume Location) (handle : Nat) :
    (b.land handle).volume.disk.names = b.volume.disk.names := by
  obtain ⟨same, -⟩ | ⟨_, _, _, _, _, landing⟩ := land_cases b handle
  · rw [same]
  · rw [landing.lands]
    rfl

/-- An entry of another handle is put in place of an old one. -/
theorem Holding.set_other {other : Nat} {o' : OpenFile} (h : Holding locate b handle path o content)
    (different : other ≠ handle) (idle : o'.file = o.file → o'.pending = none) :
    Holding locate { b with opened := b.opened.set other o' } handle path o content := by
  refine ⟨(List.getElem?_set_ne different).trans h.found, h.holds, ?_⟩
  intro k entry apart found
  rw [List.getElem?_set] at found
  split at found
  case isTrue =>
    split at found
    case isTrue =>
      obtain rfl := Option.some.inj found
      exact idle
    case isFalse => cases found
  case isFalse => exact h.alone k entry apart found

/-- Another entry for the same file is put in place of the own one. -/
theorem Holding.set_self {o' : OpenFile} (h : Holding locate b handle path o content)
    (same : o'.file = o.file) :
    Holding locate { b with opened := b.opened.set handle o' } handle path o' content := by
  have present := (List.getElem?_eq_some_iff.mp h.found).1
  refine ⟨List.getElem?_set_self present, same ▸ h.holds, ?_⟩
  intro k entry apart found
  rw [List.getElem?_set_ne (Ne.symm apart)] at found
  rw [same]
  exact h.alone k entry apart found

theorem Holding.write_other {file : FileId} (h : Holding locate b handle path o content)
    (different : file ≠ o.file) (offset : Nat) (bytes : Bytes) :
    Holding locate { b with volume := { b.volume with
      disk := b.volume.disk.write file offset bytes } } handle path o content :=
  ⟨h.found, h.holds.write different offset bytes, h.alone⟩

theorem Holding.land_other {other : Nat} (h : Holding locate b handle path o content)
    (different : other ≠ handle) : Holding locate (b.land other) handle path o content := by
  obtain ⟨same, -⟩ | ⟨o', o'', offset, bytes, landed, landing⟩ := land_cases b other
  · rw [same]
    exact h
  · rw [landing.lands]
    have apart : o'.file ≠ o.file := by
      intro same
      have idle := h.alone other o' different landing.found same
      rw [landing.pending] at idle
      cases idle
    exact (h.write_other apart offset landed).set_other different fun _ => landing.idle

/-- When the own write has landed without an error the file contains what was written. -/
theorem Holding.land_self (h : Holding locate b handle path o content)
    (fills : o.failed = none → o.Fills content written) :
    ∃ o' content', Holding locate (b.land handle) handle path o' content' ∧ o'.pending = none ∧
      (o'.failed = none → content' = written) ∧
      (o.failed = none → (o.pending.isSome → b.volume.env.writeFault = none) →
        o'.failed = none) := by
  obtain ⟨same, idle⟩ | ⟨o', o'', offset, bytes, landed, landing⟩ := land_cases b handle
  · rw [same]
    have none := idle o h.found
    refine ⟨o, content, h, none, fun unfailed => ?_, fun unfailed _ => unfailed⟩
    have filled := fills unfailed
    rw [OpenFile.Fills, none] at filled
    exact filled
  · obtain rfl := Option.some.inj (h.found.symm.trans landing.found)
    rw [landing.lands]
    refine ⟨o'', Disk.overwrite content offset landed, ?_, landing.idle, fun unfailed => ?_,
      fun unfailed ok => ?_⟩
    · have written : Holding locate { b with volume := { b.volume with
          disk := b.volume.disk.write o.file offset landed } } handle path o
            (Disk.overwrite content offset landed) := by
        refine ⟨h.found, ⟨h.holds.named, ?_⟩, h.alone⟩
        exact (Function.update_self _ _ _).trans (by rw [h.holds.contains])
      exact written.set_self landing.file
    · obtain ⟨before, rfl⟩ := landing.whole unfailed
      have filled := fills before
      rw [OpenFile.Fills, landing.pending] at filled
      obtain ⟨rfl, rfl⟩ := filled
      exact Disk.overwrite_end content landed
    · exact (landing.sound (ok (by rw [landing.pending]; rfl))).trans unfailed

/-- A write that lands takes nothing from a receive. -/
theorem Owns.land (owns : Owns locate b phase) (handle : Nat) :
    Owns locate (b.land handle) phase := by
  cases phase with
  | outside | finished => trivial
  | holding own path written =>
      obtain ⟨o, content, holding, fills⟩ := owns
      by_cases mine : handle = own
      · subst mine
        obtain ⟨o', content', held, idle, filled, -⟩ := holding.land_self fills
        refine ⟨o', content', held, fun unfailed => ?_⟩
        rw [OpenFile.Fills, idle]
        exact filled unfailed
      · exact ⟨o, content, holding.land_other mine, fills⟩
  | synced own path written =>
      obtain ⟨o, holding, idle⟩ := owns
      by_cases mine : handle = own
      · subst mine
        obtain ⟨same, -⟩ | ⟨_, _, _, _, _, landing⟩ := land_cases b handle
        · rw [same]
          exact ⟨o, holding, idle⟩
        · have pending := landing.pending
          rw [← Option.some.inj (holding.found.symm.trans landing.found), idle] at pending
          cases pending
      · exact ⟨o, holding.land_other mine, idle⟩

end Land

/-! ### Threads -/

/-- Two receives do not work on one file. -/
def Apart (first second : Option FileId) : Prop := ∀ file, first = some file → second ≠ some file

theorem Apart.symm {first second : Option FileId} (h : Apart first second) : Apart second first :=
  fun file this that => h file that this

/-- The thread follows the protocol from this phase on, and the volume suits
the phase as long as the receive is in progress. -/
structure Claim (locate : String → Location) (blake3 : Bytes → BitVec 256)
    (b : BufferedVolume Location) (t : Thread signature FileSyncError RecvCall) (phase : Phase) :
    Prop where
  conforms : t.rest.Conforms (transfer blake3) (fun _ _ => True) phase
  owns : t.rest.InProgress → Owns locate b phase

theorem file?_of_not_inProgress (ended : ¬ t.rest.InProgress) : file? locate b t = none := by
  obtain ⟨call, rest⟩ := t
  cases rest with
  | done u | fail e => rfl
  | act a k => exact absurd rfl ended

theorem Claim.file?_eq (claim : Claim locate blake3 b t phase) (running : t.rest.InProgress) :
    file? locate b t = phase.file? b := by
  obtain ⟨call, rest⟩ := t
  obtain ⟨a, k, rfl⟩ := running.exists_act
  have owns := claim.owns running
  have allowed : phase.Allows blake3 a := claim.conforms.1
  cases allowed with
  | removeFile | rename =>
      obtain ⟨o, holding, -⟩ := owns
      exact holding.holds.named.trans holding.file?_eq.symm
  | _ => rfl

/-- What a thread works on is the file of its phase, or nothing any more. -/
theorem Claim.apart_of_phase {claimed : Option FileId} (claim : Claim locate blake3 b t phase)
    (apart : Apart (phase.file? b) claimed) : Apart (file? locate b t) claimed := by
  by_cases running : t.rest.InProgress
  · rwa [claim.file?_eq running]
  · rw [file?_of_not_inProgress running]
    intro file none_eq
    cases none_eq

/-- Every receive has a phase, no two of them work on one file, and the files that are open
have been allocated. -/
structure Separate (locate : String → Location) (blake3 : Bytes → BitVec 256)
    (P : RecvPool Location) : Prop where
  claims : ∀ (i : Nat) t, P.threads[i]? = some t → ∃ phase, Claim locate blake3 P.shared t phase
  apart : ∀ (i j : Nat) t u, i ≠ j → P.threads[i]? = some t → P.threads[j]? = some u →
    Apart (file? locate P.shared t) (file? locate P.shared u)
  allocated : ∀ o ∈ P.shared.opened, o.file < P.shared.volume.disk.next

variable {P : RecvPool Location}

/-- A new receive has no file yet. -/
theorem Separate.call (h : Separate locate blake3 P) (call : RecvCall) :
    Separate locate blake3 { P with threads := P.threads ++ [⟨call, call.body blake3⟩] } := by
  have fresh : Claim locate blake3 P.shared ⟨call, call.body blake3⟩ .outside :=
    ⟨body_conforms call, fun _ => trivial⟩
  have idle (claimed : Option FileId) :
      Apart (file? locate P.shared ⟨call, call.body blake3⟩) claimed :=
    fresh.apart_of_phase fun _ none_eq => nomatch none_eq
  constructor
  · intro j u member
    rcases System.thread_of_append member with ⟨rfl, -⟩ | old
    · exact ⟨.outside, fresh⟩
    · exact h.claims j u old
  · intro j l t u distinct first second
    rcases System.thread_of_append first with ⟨rfl, -⟩ | old
    · exact idle _
    · rcases System.thread_of_append second with ⟨rfl, -⟩ | old'
      · exact (idle _).symm
      · exact h.apart j l t u distinct old old'
  · exact h.allocated

/-- What a receive works on does not depend on what has landed. -/
theorem file?_land (b : BufferedVolume Location) (handle : Nat)
    (t : Thread signature FileSyncError RecvCall) :
    file? locate (b.land handle) t = file? locate b t := by
  simp only [file?, land_file?, land_names]

/-- A file that is open has been allocated, and stays so. -/
theorem allocated_land (allocated : ∀ o ∈ b.opened, o.file < b.volume.disk.next) (handle : Nat) :
    ∀ o ∈ (b.land handle).opened, o.file < (b.land handle).volume.disk.next := by
  obtain ⟨same, -⟩ | ⟨o, o', _, _, _, landing⟩ := land_cases b handle
  · rw [same]
    exact allocated
  · rw [landing.lands]
    intro entry member
    obtain old | rfl := List.mem_or_eq_of_mem_set member
    · exact allocated entry old
    · rw [landing.file]
      exact allocated o (List.mem_of_getElem? landing.found)

theorem Separate.land (h : Separate locate blake3 P) (handle : Nat) :
    Separate locate blake3 { P with shared := P.shared.land handle } := by
  constructor
  · intro i t found
    obtain ⟨phase, claim⟩ := h.claims i t found
    exact ⟨phase, claim.conforms, fun running => (claim.owns running).land handle⟩
  · intro i j t u different first second
    change Apart (file? locate (P.shared.land handle) t) (file? locate (P.shared.land handle) u)
    rw [file?_land, file?_land]
    exact h.apart i j t u different first second
  · exact allocated_land h.allocated handle

/-! ### A receive acts -/

/-- A write that is handed over changes the entry of its handle, if there is one. -/
theorem submit_state (b : BufferedVolume Location) (handle offset : Nat) (bytes : Bytes) :
    (b.submit handle offset bytes).2 = b ∨
      ∃ o o', b.opened[handle]? = some o ∧ o'.file = o.file ∧
        (b.submit handle offset bytes).2 = { b with opened := b.opened.set handle o' } := by
  rw [BufferedVolume.submit]
  cases found : b.opened[handle]? with
  | none => exact .inl rfl
  | some o =>
      obtain ⟨file, pending, failed⟩ := o
      refine .inr ⟨⟨file, pending, failed⟩, ?_⟩
      cases failed with
      | some error => exact ⟨{ file }, rfl, rfl, rfl⟩
      | none => exact ⟨{ file, pending := some (offset, bytes) }, rfl, rfl, rfl⟩

theorem submit_file? (b : BufferedVolume Location) (handle offset other : Nat) (bytes : Bytes) :
    (b.submit handle offset bytes).2.file? other = b.file? other := by
  obtain same | ⟨o, o', found, file, same⟩ := submit_state b handle offset bytes
  · rw [same]
  · rw [same]
    exact set_file? found file other

theorem Holding.submit_other {handle other offset : Nat} {path : String} {o : OpenFile}
    {content bytes : Bytes} (h : Holding locate b handle path o content)
    (apart : b.file? other ≠ some o.file) :
    Holding locate (b.submit other offset bytes).2 handle path o content := by
  obtain same | ⟨old, new, found, file, same⟩ := submit_state b other offset bytes
  · rw [same]
    exact h
  · rw [same]
    have different : other ≠ handle := fun this => apart (this ▸ h.file?_eq)
    refine h.set_other different fun mine => absurd ?_ apart
    rw [BufferedVolume.file?, found, Option.map_some, ← file, mine]

/-- What else is done with a volume is done with its directory. -/
theorem Holding.names {handle : Nat} {path : String} {o : OpenFile} {content : Bytes}
    {volume : Volume Location} (h : Holding locate b handle path o content)
    (holds : volume.disk.Holds (locate path) o.file content) :
    Holding locate { b with volume } handle path o content :=
  ⟨h.found, holds, h.alone⟩

variable [DecidableEq Location]

/-- A file that is created is one that nobody else is writing. -/
theorem Holding.created {path : String}
    (allocated : ∀ o ∈ b.opened, o.file < b.volume.disk.next)
    (heard : Heard locate b (.create path)) :
    Holding locate {
      volume := { b.volume with disk := (b.volume.disk.create (locate path)).2 }
      opened := b.opened ++ [{ file := (b.volume.disk.create (locate path)).1 }] }
      b.opened.length path { file := (b.volume.disk.create (locate path)).1 } [] := by
  refine ⟨List.getElem?_concat_length, Disk.create_holds _ _, ?_⟩
  intro other o' different found same
  rw [List.getElem?_append] at found
  split at found
  case isFalse late =>
    obtain ⟨short, -⟩ := List.getElem?_eq_some_iff.mp found
    rw [List.length_singleton] at short
    omega
  case isTrue =>
    have member := List.mem_of_getElem? found
    cases named : b.volume.disk.names (locate path) with
    | some file =>
        refine heard file named o' member (same.trans ?_)
        simp only [Disk.create, named]
    | none =>
        have fresh : (b.volume.disk.create (locate path)).1 = b.volume.disk.next := by
          simp only [Disk.create, named]
        have old := allocated o' member
        rw [same] at old
        exact absurd (old.trans_eq fresh.symm) (Nat.lt_irrefl _)

/-- Another receive creates its file. -/
theorem Holding.create_other {handle : Nat} {path other : String} {o : OpenFile} {content : Bytes}
    (h : Holding locate b handle path o content)
    (apart : b.volume.disk.names (locate other) ≠ some o.file) :
    Holding locate {
      volume := { b.volume with disk := (b.volume.disk.create (locate other)).2 }
      opened := b.opened ++ [{ file := (b.volume.disk.create (locate other)).1 }] }
      handle path o content := by
  have present := (List.getElem?_eq_some_iff.mp h.found).1
  refine ⟨(List.getElem?_append_left present).trans h.found, h.holds.create apart, ?_⟩
  intro k entry different found same
  rw [List.getElem?_append] at found
  split at found
  case isTrue => exact h.alone k entry different found same
  case isFalse =>
    obtain rfl := List.mem_singleton.mp (List.mem_of_getElem? found)
    rfl

/-- A step of a receive leads from a volume that suits its phase to one that
suits the next. -/
theorem exec_owns (allowed : phase.Allows blake3 a) (owns : Owns locate b phase)
    (allocated : ∀ o ∈ b.opened, o.file < b.volume.disk.next) (heard : Heard locate b a) :
    phase.Expects a (b.exec locate a).1 ∧
      Owns locate (b.exec locate a).2 (phase.after a (b.exec locate a).1) := by
  cases allowed with
  | createDirAll | canonicalize | pathExists => exact ⟨trivial, trivial⟩
  | create =>
      simp only [BufferedVolume.exec]
      split
      · exact ⟨trivial, trivial⟩
      · exact ⟨trivial, _, _, Holding.created allocated heard, fun _ => rfl⟩
  | @writeAll handle path written bytes =>
      obtain ⟨o, content, holding, fills⟩ := owns
      obtain ⟨o', content', held, idle, filled, -⟩ := holding.land_self fills
      refine ⟨trivial, ?_⟩
      simp only [BufferedVolume.exec, BufferedVolume.submit, held.found]
      obtain ⟨file, pending, failed⟩ := o'
      cases failed with
      | some error => trivial
      | none =>
          obtain rfl := filled rfl
          exact ⟨⟨file, some (_, bytes), none⟩, _, held.set_self rfl, fun _ => ⟨rfl, rfl⟩⟩
  | @syncAll handle path written =>
      obtain ⟨o, content, holding, fills⟩ := owns
      obtain ⟨o', content', held, idle, filled, unfailed⟩ := holding.land_self fills
      obtain ⟨sound, landing⟩ := heard o holding.found
      obtain rfl := filled (unfailed sound landing)
      refine ⟨trivial, ?_⟩
      simp only [BufferedVolume.exec]
      split
      · trivial
      · exact ⟨o', held, idle⟩
  | removeFile => exact ⟨trivial, trivial⟩
  | rename =>
      obtain ⟨o, holding, idle⟩ := owns
      simp only [BufferedVolume.exec, Volume.exec]
      split
      · exact ⟨trivial, o, holding, idle⟩
      · rw [holding.holds.content?]
        exact ⟨rfl, trivial⟩
  | returned => exact ⟨trivial, trivial⟩

/-- A receive keeps its file when another one acts that has a file of its own and touches
no other. -/
theorem Holding.exec_other {handle : Nat} {path : String} {o : OpenFile} {content : Bytes}
    (h : Holding locate b handle path o content) (allowed : phase.Allows blake3 a)
    (owns : Owns locate b phase) (apart : phase.file? b ≠ some o.file)
    (untouched : touched? locate b a ≠ some o.file) :
    Holding locate (b.exec locate a).2 handle path o content := by
  have different {own : Nat} (mine : b.file? own ≠ some o.file) : own ≠ handle :=
    fun same => mine (same ▸ h.file?_eq)
  cases allowed with
  | createDirAll | canonicalize | pathExists => exact h
  | create =>
      simp only [BufferedVolume.exec]
      split
      · exact h
      · exact h.create_other untouched
  | @writeAll own path' written bytes =>
      have apart : b.file? own ≠ some o.file := apart
      have landed := h.land_other (different apart)
      rw [← land_file? b own] at apart
      exact landed.submit_other apart
  | @syncAll own path' written =>
      have apart : b.file? own ≠ some o.file := apart
      have landed := h.land_other (different apart)
      simp only [BufferedVolume.exec]
      split <;> exact landed
  | removeFile =>
      obtain ⟨own, holding, -⟩ := owns
      have other : own.file ≠ o.file := fun same => apart (holding.file?_eq.trans (congrArg some same))
      simp only [BufferedVolume.exec, Volume.exec]
      split
      · exact h
      · rw [holding.holds.named]
        refine h.names (h.holds.remove ?_)
        exact fun same => other (Option.some.inj (holding.holds.named.symm.trans same))
  | rename =>
      obtain ⟨own, holding, -⟩ := owns
      have other : own.file ≠ o.file := fun same => apart (holding.file?_eq.trans (congrArg some same))
      simp only [BufferedVolume.exec, Volume.exec]
      split
      · exact h
      · rw [holding.holds.content?]
        refine h.names (h.holds.rename ?_ untouched)
        exact fun same => other (Option.some.inj (holding.holds.named.symm.trans same))
  | returned => exact h

theorem exec_owns_other (allowed : phase.Allows blake3 a) (owns : Owns locate b phase)
    (kept : Owns locate b other) (apart : Apart (phase.file? b) (other.file? b))
    (untouched : Apart (touched? locate b a) (other.file? b)) :
    Owns locate (b.exec locate a).2 other := by
  have free {named : Option FileId} {file : FileId} (h : Apart named (other.file? b))
      (mine : other.file? b = some file) : named ≠ some file := fun same => h file same mine
  cases other with
  | outside | finished => trivial
  | holding handle path written =>
      obtain ⟨o, content, holding, fills⟩ := kept
      have mine := holding.file?_eq
      exact ⟨o, content, holding.exec_other allowed owns (free apart mine) (free untouched mine), fills⟩
  | synced handle path written =>
      obtain ⟨o, holding, idle⟩ := kept
      have mine := holding.file?_eq
      exact ⟨o, holding.exec_other allowed owns (free apart mine) (free untouched mine), idle⟩

/-- A handle goes on referring to its file. -/
theorem exec_file? {handle : Nat} (b : BufferedVolume Location) (a : Action) {file : FileId}
    (found : b.file? handle = some file) : (b.exec locate a).2.file? handle = some file := by
  cases a with
  | create path =>
      simp only [BufferedVolume.exec]
      split
      · exact found
      · obtain ⟨o, here, -⟩ := Option.map_eq_some_iff.mp found
        have present := (List.getElem?_eq_some_iff.mp here).1
        rw [BufferedVolume.file?, List.getElem?_append_left present]
        exact found
  | writeAll own offset bytes =>
      exact (submit_file? _ own offset handle bytes).trans ((land_file? b own handle).trans found)
  | syncAll own =>
      simp only [BufferedVolume.exec]
      split <;> exact (land_file? b own handle).trans found
  | _ => exact found

theorem phase_file? (owns : Owns locate b phase) (a : Action) :
    phase.file? (b.exec locate a).2 = phase.file? b := by
  cases has : phase.handle? with
  | none => rw [Phase.file?, Phase.file?, has, Option.bind_none, Option.bind_none]
  | some handle =>
      obtain ⟨_, o, _, holding⟩ := owns.holding has
      have here := holding.file?_eq
      rw [Phase.file?, Phase.file?, has, Option.bind_some, Option.bind_some, here]
      exact exec_file? b a here

/-- The file of a receive stays the same until it is created or given up. -/
theorem after_handle? {r : a.Answer} {handle : Nat} (allowed : phase.Allows blake3 a)
    (later : (phase.after a r).handle? = some handle) :
    phase.handle? = some handle ∨ ∃ path, a = .create path := by
  cases allowed with
  | create => exact .inr ⟨_, rfl⟩
  | createDirAll | canonicalize | pathExists => cases later
  | writeAll | syncAll =>
      cases r with
      | ok u => exact .inl later
      | error e => cases later
  | removeFile => cases later
  | rename =>
      cases r with
      | ok moved => cases later
      | error e => exact .inl later
  | returned => cases later

/-- A receive gets no file that another one works on. -/
theorem exec_apart (allowed : phase.Allows blake3 a) (owns : Owns locate b phase)
    (kept : Owns locate b other) (apart : Apart (phase.file? b) (other.file? b))
    (untouched : Apart (touched? locate b a) (other.file? b)) :
    Apart ((phase.after a (b.exec locate a).1).file? (b.exec locate a).2) (other.file? b) := by
  intro file later
  obtain ⟨handle, has, found⟩ := Option.bind_eq_some_iff.mp later
  obtain before | ⟨path, rfl⟩ := after_handle? allowed has
  · obtain ⟨_, o, _, holding⟩ := owns.holding before
    have here := holding.file?_eq
    obtain rfl : o.file = file := Option.some.inj ((exec_file? b a here).symm.trans found)
    exact apart o.file (Option.bind_eq_some_iff.mpr ⟨handle, before, here⟩)
  · cases allowed
    intro theirs
    obtain ⟨handle', has', found'⟩ := Option.bind_eq_some_iff.mp theirs
    obtain ⟨_, o, _, holding⟩ := kept.holding has'
    obtain rfl : o.file = file := Option.some.inj (holding.file?_eq.symm.trans found')
    have named : b.volume.disk.names (locate path) ≠ some o.file :=
      fun same => untouched _ same theirs
    simp only [BufferedVolume.exec] at has found
    split at has
    · cases has
    case h_2 none =>
      obtain rfl := Option.some.inj has
      simp only [none] at found
      rw [BufferedVolume.file?, List.getElem?_concat_length, Option.map_some] at found
      exact holding.holds.create_ne named (Option.some.inj found)

/-- A step of one receive leaves another with its phase and its file. -/
theorem Claim.exec_other {u : Thread signature FileSyncError RecvCall}
    (claim : Claim locate blake3 b u other) (allowed : phase.Allows blake3 a)
    (owns : Owns locate b phase) (apart : Apart (phase.file? b) (file? locate b u))
    (untouched : Apart (touched? locate b a) (file? locate b u)) :
    Claim locate blake3 (b.exec locate a).2 u other ∧
      file? locate (b.exec locate a).2 u = file? locate b u ∧
      Apart ((phase.after a (b.exec locate a).1).file? (b.exec locate a).2) (file? locate b u) := by
  by_cases running : u.rest.InProgress
  · have same := claim.file?_eq running
    have theirs := claim.owns running
    rw [same] at apart untouched
    have kept : Claim locate blake3 (b.exec locate a).2 u other :=
      ⟨claim.conforms, fun _ => exec_owns_other allowed owns theirs apart untouched⟩
    refine ⟨kept, ?_, same ▸ exec_apart allowed owns theirs apart untouched⟩
    rw [kept.file?_eq running, same]
    exact phase_file? theirs a
  · rw [file?_of_not_inProgress running, file?_of_not_inProgress running]
    refine ⟨⟨claim.conforms, fun still => absurd still running⟩, rfl, ?_⟩
    intro file _ none_eq
    cases none_eq

theorem allocated_exec (allocated : ∀ o ∈ b.opened, o.file < b.volume.disk.next) (a : Action) :
    ∀ o ∈ (b.exec locate a).2.opened, o.file < (b.exec locate a).2.volume.disk.next := by
  cases a with
  | create path =>
      simp only [BufferedVolume.exec]
      split
      · exact allocated
      · obtain ⟨grows, fresh⟩ := Disk.next_create b.volume.disk (locate path)
        intro o member
        obtain old | new := List.mem_append.mp member
        · exact Nat.lt_of_lt_of_le (allocated o old) grows
        · obtain rfl := List.mem_singleton.mp new
          exact fresh
  | writeAll handle offset bytes =>
      have landed := allocated_land allocated handle
      simp only [BufferedVolume.exec]
      obtain same | ⟨o, o', found, file, same⟩ := submit_state (b.land handle) handle offset bytes
      · rw [same]
        exact landed
      · rw [same]
        intro entry member
        obtain old | rfl := List.mem_or_eq_of_mem_set member
        · exact landed entry old
        · rw [file]
          exact landed o (List.mem_of_getElem? found)
  | syncAll handle =>
      have landed := allocated_land allocated handle
      simp only [BufferedVolume.exec]
      split <;> exact landed
  | removeFile path =>
      simp only [BufferedVolume.exec, Volume.exec]
      split
      · exact allocated
      · split <;> exact allocated
  | rename source target =>
      simp only [BufferedVolume.exec, Volume.exec]
      split
      · exact allocated
      · split
        · exact allocated
        · rw [Disk.next_rename]
          exact allocated
  | _ => exact allocated

theorem Separate.step {i : Nat} {call : RecvCall}
    {k : a.Answer → Program signature FileSyncError Unit}
    (h : Separate locate blake3 P) (undisturbed : Undisturbed locate P (.step i))
    (found : P.threads[i]? = some ⟨call, .act a k⟩) :
    Separate locate blake3 {
      shared := (P.shared.exec locate a).2
      threads := P.threads.set i ⟨call, k (P.shared.exec locate a).1⟩ } := by
  obtain ⟨phase, claim⟩ := h.claims i _ found
  have allowed : phase.Allows blake3 a := claim.conforms.1
  have owns := claim.owns rfl
  obtain ⟨heard, untouched⟩ := undisturbed a (Pool.next?_step found)
  have own := exec_owns allowed owns h.allocated heard
  have acted : Claim locate blake3 (P.shared.exec locate a).2
      ⟨call, k (P.shared.exec locate a).1⟩ (phase.after a (P.shared.exec locate a).1) :=
    ⟨claim.conforms.2 _ own.1, fun _ => own.2⟩
  -- every other thread, with what the step leaves of its claim
  have others (j : Nat) (u) (different : j ≠ i) (member : P.threads[j]? = some u) :
      ∃ other, Claim locate blake3 (P.shared.exec locate a).2 u other ∧
        file? locate (P.shared.exec locate a).2 u = file? locate P.shared u ∧
        Apart ((phase.after a (P.shared.exec locate a).1).file? (P.shared.exec locate a).2)
          (file? locate P.shared u) := by
    obtain ⟨other, kept⟩ := h.claims j u member
    have apart := h.apart i j _ u (Ne.symm different) found member
    rw [claim.file?_eq rfl] at apart
    refine ⟨other, kept.exec_other allowed owns apart fun file touched => ?_⟩
    exact untouched file touched u (List.mem_eraseIdx_iff_getElem?.mpr ⟨j, different, member⟩)
  constructor
  · intro j u member
    rcases System.thread_of_set member with ⟨-, rfl⟩ | ⟨different, old⟩
    · exact ⟨_, acted⟩
    · obtain ⟨other, kept, -⟩ := others j u different old
      exact ⟨other, kept⟩
  · intro j l t u distinct first second
    rcases System.thread_of_set first with ⟨rfl, rfl⟩ | ⟨different, old⟩
    · rcases System.thread_of_set second with ⟨rfl, rfl⟩ | ⟨different', old'⟩
      · exact absurd rfl distinct
      · obtain ⟨other, -, same, apart⟩ := others l u different' old'
        exact acted.apart_of_phase (same ▸ apart)
    · obtain ⟨-, -, same, apart⟩ := others j t different old
      rcases System.thread_of_set second with ⟨rfl, rfl⟩ | ⟨different', old'⟩
      · exact (acted.apart_of_phase (same ▸ apart)).symm
      · obtain ⟨-, -, same', -⟩ := others l u different' old'
        rw [same, same']
        exact h.apart j l t u distinct old old'
  · exact allocated_exec h.allocated a

theorem Separate.move {m : RecvMove} (undisturbed : Undisturbed locate P m)
    (h : Separate locate blake3 P) :
    Separate locate blake3 ((receives locate blake3).move P m) := by
  cases m with
  | call c => exact h.call c
  | disturb x =>
      cases x with
      | env env =>
          refine ⟨fun i t found => ?_, h.apart, h.allocated⟩
          obtain ⟨phase, claim⟩ := h.claims i t found
          refine ⟨phase, claim.conforms, fun running => ?_⟩
          have owns := claim.owns running
          cases phase with
          | outside | finished => trivial
          | holding handle path written =>
              obtain ⟨o, content, holding, fills⟩ := owns
              exact ⟨o, content, holding.names holding.holds, fills⟩
          | synced handle path written =>
              obtain ⟨o, holding, idle⟩ := owns
              exact ⟨o, holding.names holding.holds, idle⟩
      | land handle => exact h.land handle
  | step i =>
      rcases (receives locate blake3).advance_cases P i with same | ⟨c, a, k, found, moved⟩
      · change Separate locate blake3 ((receives locate blake3).advance P i)
        rw [same]
        exact h
      · change Separate locate blake3 ((receives locate blake3).advance P i)
        rw [moved]
        exact h.step undisturbed found

/-- A receive that returns now has installed what it announced. -/
theorem Separate.performed (h : Separate locate blake3 P) (m : RecvMove) :
    ∀ e ∈ (receives locate blake3).performed P m, Intact blake3 e.action := by
  intro e member
  obtain ⟨i, c, k, rfl, found⟩ := (receives locate blake3).exists_of_mem_performed member
  obtain ⟨phase, claim⟩ := h.claims i _ found
  have allowed : phase.Allows blake3 e.action := claim.conforms.1
  generalize e.action = a at allowed
  cases allowed with
  | returned intact => exact intact
  | _ => trivial

/-- Receives whose steps leave the files of the others alone and miss no write install what
they announce, in every interleaving. -/
theorem installsIntact_of_undisturbed {v : Volume Location} {moves : List RecvMove}
    (undisturbed : (receives locate blake3).Along (Undisturbed locate) (idle v) moves) :
    InstallsIntact locate blake3 v moves := by
  refine System.trace_forall (receives locate blake3) (fun P m ok h => Separate.move ok h)
    (fun P m h => h.performed m) ⟨?_, ?_, ?_⟩ undisturbed
  · exact fun i t found => nomatch found
  · exact fun i j t u _ found => nomatch found
  · exact fun o member => nomatch member

end Invariant

/-! ## Two receives -/

namespace Sample

/-- The digests of the two bodies below. -/
def blake3 (bytes : Bytes) : BitVec 256 :=
  if bytes = [97] then 0x17762fddd969a453925d65717ac3eea21320b66b54342fde15128d6caf21215f
  else if bytes = [98] then 0x10e5cf3d3c8a4f9f3468c8cc58eea84892a22fdadbc1acb22410190044c1d553
  else 0

/-- An empty directory on which every operation succeeds. -/
def volume : Volume (List UnixPath.Component) where
  disk := .empty
  env := {
    createDirAll := fun _ => .ok ()
    canonicalize := .ok
    directory := fun path => path = "/d"
    createFault := fun _ => none
    writeFault := none
    syncFault := none
    removeFault := fun _ => none
    renameFault := fun _ _ => none }

/-- The stream of a sender that announces what it sends. -/
def push (fileId relativePath : String) (body : Bytes) : RecvCall where
  stream := FileTransferHeader.encode
    { fileId, relativePath, size := UInt64.ofNat body.length, blake3 := blake3 body } ++ body
  destDir := "/d"
  maxBytes := maxFilesyncBytes

/-- Each of two receives creates its partial file and has its body written, one after the
other; then the first ends. -/
def overlapping (first second : String) : List RecvMove :=
  [.call (push "a" first [97]), .call (push "b" second [98])] ++ List.replicate 8 (.step 0) ++
    [.disturb (.land 0)] ++ List.replicate 8 (.step 1) ++ [.disturb (.land 1)] ++
    List.replicate 3 (.step 0)

/-- The disk is full when the last write of a receive lands. -/
def fullDisk : List RecvMove :=
  [.call (push "a" "x" [97])] ++ List.replicate 8 (.step 0) ++
    [.disturb (.env { volume.env with writeFault := some ("No space left on device", 0) }),
      .disturb (.land 0)] ++ List.replicate 3 (.step 0)

/-- The first receive returns having installed the body of the second; and one whose write
fails returns having installed nothing. -/
theorem samePath_not_installsIntact :
    ¬ InstallsIntact UnixPath.components blake3 volume (overlapping "x" "x") ∧
      ¬ InstallsIntact UnixPath.components blake3 volume fullDisk := by
  unfold InstallsIntact
  constructor <;> decide +kernel

/-- Under different paths the same schedule installs the first body. -/
theorem differentPaths_installsIntact :
    (receives UnixPath.components blake3).Along (Undisturbed UnixPath.components) (idle volume)
      (overlapping "x" "y") ∧
    (∃ e ∈ (receives UnixPath.components blake3).trace (idle volume) (overlapping "x" "y"),
      e.action = .returned ⟨"a", "x", 1, blake3 [97]⟩ "/d/x" [97]) ∧
    InstallsIntact UnixPath.components blake3 volume (overlapping "x" "y") :=
  ⟨by decide +kernel, by decide +kernel,
    installsIntact_of_undisturbed (by decide +kernel)⟩

end Sample

end Qubox.FileSync
