import Qubox.Library.Protocol
import Qubox.Library.Site
import Qubox.Update.Checker

/-!
# What is installed

`download_update` hashes the bytes it has received, writes them, and returns at
once when it finds something under the staged path: the rest of a write that was
cut off, a directory, what was staged when something else was announced for the
version, or, because the version is joined to the staging directory as it is, a
file that has nothing to do with updates.

A run is a schedule of downloads and `ApplyUpdate` requests. A crash is a call
that gets no further step. The state notes which hash the call announced that
created a file; no program reads it. Under `FindsOwn` calls do not overlap, and what
the early exit finds is a complete file that was staged for the hash that the call
announces. Then a file is followed from its download to the binary by the phase of
its call, and `Kept` says that other complete files have the hash they were staged
for.
-/

namespace Qubox.Update

open Interaction

/-! ## Runs -/

inductive UpdateCall where
  | download (info : UpdateInfo)
  /-- An `ApplyUpdate` request, with what `current_exe` answers meanwhile and the hash that
  the verified update info for the version announces, if there is one. -/
  | applyUpdate (stagedVersion : String) (currentExe : Except IoError String)
      (announced : Option String)

namespace UpdateCall

def version : UpdateCall → String
  | .download info => info.version
  | .applyUpdate stagedVersion _ _ => stagedVersion

/-- The hash announced for the version. -/
def announced : UpdateCall → Option String
  | .download info => some info.sha256
  | .applyUpdate _ _ announced => announced

/-- The binary that the call replaces. -/
def binary? : UpdateCall → Option String
  | .download _ => none
  | .applyUpdate _ currentExe _ => some (currentBinary currentExe)

def body (sha256 : Bytes → BitVec 256) (checker : UpdateChecker) :
    UpdateCall → Program signature UpdateError Unit
  | .download info => do
      let _ ← checker.downloadUpdate sha256 info
      return
  | .applyUpdate stagedVersion currentExe _ => do
      let _ ← dispatchApplyUpdate sha256 (some checker) stagedVersion currentExe
      return

end UpdateCall

/-- A volume, and the hash announced by the call that created a file. -/
structure Staging where
  volume : Volume
  announced : FileId → Option String

/-- The actions of all calls, each with the hash that its call announces. -/
abbrev announcing : Signature := signature.sited (Option String)

namespace Staging

def noted (s : Staging) (hash : Option String) : (a : Action) → a.Answer → FileId → Option String
  | .create _, .ok file => Function.update s.announced file hash
  | _, _ => s.announced

def exec (locate : String → Place) (a : Option String × Action) (s : Staging) :
    a.2.Answer × Staging :=
  let done := s.volume.exec locate a.2
  (done.1, ⟨done.2, s.noted a.1 a.2 done.1⟩)

end Staging

abbrev UpdatePool := Pool announcing Staging UpdateError UpdateCall

abbrev UpdateMove := Move UpdateCall FsEnv

section Statement

variable (locate : String → Place) (sha256 : Bytes → BitVec 256) (checker : UpdateChecker)

@[reducible] def updates : System announcing Staging UpdateError UpdateCall FsEnv where
  exec := Staging.exec locate
  body call := (call.body sha256 checker).sited call.announced
  change env s := { s with volume := { s.volume with env } }

/-- There is content with the SHA-256 that the call announces. -/
def Announced (call : UpdateCall) (content : Option Bytes) : Prop :=
  ∃ bytes ∈ content, call.announced = some (hexDigest (sha256 bytes))

instance (call : UpdateCall) (content : Option Bytes) :
    Decidable (Announced sha256 call content) :=
  Option.decidableExistsMem content

/-- Of one action of a call: the path that `download_update` returns and the file
that is moved over the binary have announced content. -/
def Verified (v : Volume) (call : UpdateCall) : Action → Prop
  | .returned path => Announced sha256 call (v.disk.content? (locate path))
  | .rename source target =>
      some target = call.binary? → ((Volume.exec locate (.rename source target) v).1.toBool) →
        Announced sha256 call (v.disk.content? (locate source))
  | _ => True

instance (v : Volume) (call : UpdateCall) :
    DecidablePred (Verified locate sha256 v call)
  | .returned _ => inferInstanceAs (Decidable (Announced _ _ _))
  | .rename _ _ => inferInstanceAs (Decidable (_ → _ → Announced _ _ _))
  | .pathExists _ | .createDirAll _ | .httpGet _ | .create _ | .writeAll _ _
  | .setPermissions _ _ | .readDir _ | .removeDirAll _ | .removeFile _ | .modified _ | .now
  | .recordUpdate _ | .sendEvent _ => isTrue trivial

/-- Of the action that a move performs. -/
def VerifiedMove (P : UpdatePool) : UpdateMove → Prop
  | .step i => ∀ t ∈ P.threads[i]?, ∀ a ∈ t.next?,
      Verified locate sha256 P.shared.volume t.call a.2
  | _ => True

instance (P : UpdatePool) : DecidablePred (VerifiedMove locate sha256 P)
  | .step _ =>
      haveI (t : Thread announcing UpdateError UpdateCall) :
          Decidable (∀ a ∈ t.next?, Verified locate sha256 P.shared.volume t.call a.2) :=
        Option.decidableForallMem _
      Option.decidableForallMem _
  | .call _ | .disturb _ => isTrue trivial

/-- The path is the one under which the call looks for a staged binary. -/
def Target (call : UpdateCall) (path : String) : Prop :=
  ∃ dirs ∈ checker.projectDirs, path = stagedBinary dirs call.version

instance (call : UpdateCall) : DecidablePred (Target checker call) :=
  fun _ => Option.decidableExistsMem _

/-- The last write to the file was completed, and the call that created it announced
what this one does. -/
def Own (s : Staging) (call : UpdateCall) (file : FileId) : Prop :=
  s.volume.written file = true ∧ call.announced.isSome ∧ s.announced file = call.announced

instance (s : Staging) (call : UpdateCall) : DecidablePred (Own s call) :=
  fun _ => inferInstanceAs (Decidable (_ ∧ _ ∧ _))

/-- What the early exit of `download_update` finds is a file that was staged for the
announced hash. -/
def FindsOwnFile (s : Staging) (call : UpdateCall) : Action → Prop
  | .pathExists path =>
      Target checker call path → (s.volume.metadata locate path).toBool →
        ∃ file ∈ s.volume.disk.names (locate path), Own s call file
  | _ => True

instance (s : Staging) (call : UpdateCall) (a : Action) :
    Decidable (FindsOwnFile locate checker s call a) :=
  match a with
  | .pathExists path =>
      haveI : Decidable (∃ file ∈ s.volume.disk.names (locate path), Own s call file) :=
        Option.decidableExistsMem _
      inferInstanceAs (Decidable (_ → _ → _))
  | .createDirAll _ | .httpGet _ | .create _ | .writeAll _ _ | .setPermissions _ _ | .readDir _
  | .removeDirAll _ | .removeFile _ | .rename _ _ | .modified _ | .now | .recordUpdate _
  | .sendEvent _ | .returned _ => isTrue trivial

/-- A step is one of the latest call, and finds no other file. -/
def FindsOwn (P : UpdatePool) : UpdateMove → Prop
  | .step i => i + 1 = P.threads.length ∧
      ∀ t ∈ P.threads[i]?, ∀ a ∈ t.next?, FindsOwnFile locate checker P.shared t.call a.2
  | _ => True

instance (P : UpdatePool) : DecidablePred (FindsOwn locate checker P)
  | .step _ =>
      haveI (t : Thread announcing UpdateError UpdateCall) :
          Decidable (∀ a ∈ t.next?, FindsOwnFile locate checker P.shared t.call a.2) :=
        Option.decidableForallMem _
      haveI := Option.decidableForallMem (p := fun t : Thread announcing UpdateError UpdateCall =>
        ∀ a ∈ t.next?, FindsOwnFile locate checker P.shared t.call a.2)
      inferInstanceAs (Decidable (_ ∧ _))
  | .call _ | .disturb _ => isTrue trivial

/-- A plain staging directory: a name in it is an entry of it. -/
structure Layout : Prop where
  entries : ∀ dirs ∈ checker.projectDirs, ∀ entry : UnixPath.EntryName,
    locate (UnixPath.join (stagedRoot dirs) entry.text) =
      locate (stagedRoot dirs) ++ [.normal entry.text]
  binaries : ∀ dirs ∈ checker.projectDirs, ∀ entry : UnixPath.EntryName,
    locate (stagedBinary dirs entry.text) =
      locate (stagedRoot dirs) ++ [.normal entry.text, .normal "qubox"]

/-- The place of a staged binary. -/
def Staged (place : Place) : Prop :=
  ∃ dirs ∈ checker.projectDirs, ∃ entry : UnixPath.EntryName,
    place = locate (stagedBinary dirs entry.text)

/-- The binary, its neighbours and the sentinel lie outside the staging
directory, and neither the backup nor the sentinel is the binary. -/
structure Placed (binary : String) : Prop where
  unstaged : ∀ path ∈ [binary, sibling binary "prev", sibling binary "new"],
    ¬ Staged locate checker (locate path)
  sentinel : ∀ dirs ∈ checker.projectDirs,
    ¬ Staged locate checker (locate (UnixPath.join dirs.dataLocalDir restartSentinel))
  backup_ne : sibling binary "prev" ≠ binary
  sentinel_ne : ∀ dirs ∈ checker.projectDirs,
    locate (UnixPath.join dirs.dataLocalDir restartSentinel) ≠ locate binary

end Statement

def PlainVersion (version : String) : Prop := ∃ entry : UnixPath.EntryName, entry.text = version

/-- Announced versions are plain names, and the binary that a request replaces is where it
belongs. -/
structure UpdateCall.Admissible (locate : String → Place) (checker : UpdateChecker)
    (call : UpdateCall) : Prop where
  plain : call.announced.isSome → PlainVersion call.version
  placed : ∀ binary ∈ call.binary?, Placed locate checker binary

/-- Of the complete files in these places each has what is promised of it. -/
def Kept (staged : Place → Prop) (promise : FileId → Bytes → Prop) (v : Volume) : Prop :=
  ∀ place file, staged place → v.disk.names place = some file → v.written file = true →
    promise file (v.disk.files file)

/-- A file has the hash that was announced by the call that created it. -/
def Staging.Promise (sha256 : Bytes → BitVec 256) (s : Staging) (file : FileId) (bytes : Bytes) :
    Prop :=
  ∀ hash ∈ s.announced file, hexDigest (sha256 bytes) = hash

/-! ## Following one file -/

/-- What a call is about: the file it looks for, what it may rely on when there
is one, what that file contains, and where it may end up. -/
structure Errand where
  locate : String → Place
  staged : Place → Prop
  target : String → Prop
  found : Prop
  good : Bytes → Prop
  binary? : Option String

namespace Errand

variable (E : Errand)

/-- Nothing is promised of files in this place. -/
def Free (place : Place) : Prop := ¬ E.staged place

inductive Phase where
  | seeking
  | filling (file : FileId) (place : Place)
  | keeping (place : Place)
  | noting (place : Place) (file : FileId) (other : Place)

inductive Allows : Phase → Action → Prop
  | seek {path : String} (target : E.target path) : Allows .seeking (.pathExists path)
  | makeDir {path : String} : Allows .seeking (.createDirAll path)
  | fetch {url : String} : Allows .seeking (.httpGet url)
  | create {path : String} : Allows .seeking (.create path)
  | fill {file : FileId} {place : Place} {bytes : Bytes} (good : E.good bytes) :
      Allows (.filling file place) (.writeAll file bytes)
  | pathExists {place : Place} {path : String} : Allows (.keeping place) (.pathExists path)
  | createDirAll {place : Place} {path : String} : Allows (.keeping place) (.createDirAll path)
  | setPermissions {place : Place} {path : String} {mode : Nat} :
      Allows (.keeping place) (.setPermissions path mode)
  | readDir {place : Place} {path : String} : Allows (.keeping place) (.readDir path)
  | now {place : Place} : Allows (.keeping place) .now
  | recordUpdate {place : Place} {record : UpdateRecord} :
      Allows (.keeping place) (.recordUpdate record)
  | sendEvent {place : Place} {version : String} : Allows (.keeping place) (.sendEvent version)
  | returned {path : String} : Allows (.keeping (E.locate path)) (.returned path)
  | removeDirAll {place : Place} {path : String} (apart : ¬ E.locate path <+: place) :
      Allows (.keeping place) (.removeDirAll path)
  | carry {source target : String} (free : E.Free (E.locate target)) :
      Allows (.keeping (E.locate source)) (.rename source target)
  | rename {place : Place} {source target : String} (away : E.locate source ≠ place)
      (apart : E.locate target ≠ place) (free : E.Free (E.locate target))
      (elsewhere : some target ≠ E.binary?) : Allows (.keeping place) (.rename source target)
  | note {place : Place} {path : String} (apart : E.locate path ≠ place)
      (free : E.Free (E.locate path)) : Allows (.keeping place) (.create path)
  | fillNote {place other : Place} {file : FileId} {bytes : Bytes} (free : E.Free other) :
      Allows (.noting place file other) (.writeAll file bytes)

def Expects : Phase → (a : Action) → a.Answer → Prop
  | .seeking, .pathExists _, true => E.found
  | _, _, _ => True

def after : Phase → (a : Action) → a.Answer → Phase
  | .seeking, .pathExists path, true => .keeping (E.locate path)
  | .seeking, .create path, .ok file => .filling file (E.locate path)
  | .filling _ place, .writeAll _ _, .ok () => .keeping place
  | .filling _ _, .writeAll _ _, .error _ => .seeking
  | .keeping place, .rename source target, .ok () =>
      .keeping (if E.locate source = place then E.locate target else place)
  | .keeping place, .create path, .ok file => .noting place file (E.locate path)
  | .noting place _ _, .writeAll _ _, _ => .keeping place
  | phase, _, _ => phase

def protocol : Protocol signature Phase where
  allows := E.Allows
  expects := E.Expects
  after := E.after

/-- The volume has a file in this place with the content of the errand. -/
def Has (v : Volume) (place : Place) : Prop :=
  ∃ file bytes, v.disk.Holds place file bytes ∧ E.good bytes

/-- What the volume holds for a call in this phase. -/
def Suits (v : Volume) : Phase → Prop
  | .seeking => True
  | .filling file place => v.disk.Holds place file []
  | .keeping place => E.Has v place
  | .noting place file other => E.Has v place ∧ v.disk.names other = some file ∧ other ≠ place

end Errand

/-! ## Complete files keep their promises -/

section Kept

variable {locate : String → Place} {staged : Place → Prop} {promise : FileId → Bytes → Prop}
  {v : Volume}

theorem Kept.create (kept : Kept staged promise v) (path : String) :
    Kept staged promise (v.create locate path).2 := by
  intro place file there named complete
  by_cases new : file = (v.disk.create (locate path)).1
  · subst new
    simp [Volume.create] at complete
  · change promise file ((v.disk.create (locate path)).2.files file)
    rw [Disk.files_create_of_ne new]
    refine kept place file there (Disk.names_of_create named new) ?_
    exact (Function.update_of_ne new _ _).symm.trans complete

/-- A write needs to keep the promise only when it is completed. -/
theorem Kept.write {file : FileId} {place : Place} {bytes : Bytes} {complete : Bool}
    (kept : Kept staged promise v) (named : v.disk.names place = some file)
    (promised : staged place → complete = true →
      promise file (Disk.overwrite (v.disk.files file) 0 bytes)) :
    Kept staged promise (v.write file bytes complete) := by
  intro other file' there named' complete'
  by_cases same : file' = file
  · subst same
    obtain rfl : other = place := v.unlinked other place file' named' named
    have done : complete = true := (Function.update_self _ _ _).symm.trans complete'
    change promise file' (Function.update v.disk.files file' _ file')
    rw [Function.update_self]
    exact promised there done
  · change promise file' (Function.update v.disk.files file _ file')
    rw [Function.update_of_ne same]
    exact kept other file' there named' ((Function.update_of_ne same _ _).symm.trans complete')

theorem Kept.removeWhere (kept : Kept staged promise v) (gone : Place → Bool) :
    Kept staged promise (v.removeWhere gone) := by
  intro place file there named complete
  exact kept place file there (Disk.names_of_removeWhere named) complete

theorem Kept.rename {source target : String} (kept : Kept staged promise v)
    (free : ¬ staged (locate target)) : Kept staged promise (v.rename locate source target) := by
  intro place file there named complete
  change promise file ((v.disk.rename (locate source) (locate target)).files file)
  rw [Disk.files_rename]
  have other : place ≠ locate target := fun same => free (same ▸ there)
  exact kept place file there (Disk.names_of_rename named other) complete

end Kept

/-! ## The file that is followed stays -/

namespace Errand

variable {E : Errand} {v : Volume} {place : Place}

theorem Has.create (has : E.Has v place) {path : String} (apart : E.locate path ≠ place) :
    E.Has (v.create E.locate path).2 place := by
  obtain ⟨file, bytes, holds, good⟩ := has
  exact ⟨file, bytes, holds.create (v.unlinked.ne holds apart), good⟩

theorem Has.write (has : E.Has v place) {file : FileId} {other : Place}
    (named : v.disk.names other = some file) (apart : other ≠ place) (bytes : Bytes)
    (complete : Bool) : E.Has (v.write file bytes complete) place := by
  obtain ⟨file', bytes', holds, good⟩ := has
  refine ⟨file', bytes', holds.write ?_ 0 bytes, good⟩
  rintro rfl
  exact v.unlinked.ne holds apart named

theorem Has.removeWhere (has : E.Has v place) {gone : Place → Bool} (apart : gone place = false) :
    E.Has (v.removeWhere gone) place := by
  obtain ⟨file, bytes, holds, good⟩ := has
  exact ⟨file, bytes, holds.removeWhere apart, good⟩

theorem Has.rename (has : E.Has v place) {source target : String}
    (away : E.locate source ≠ place) (apart : E.locate target ≠ place) :
    E.Has (v.rename E.locate source target) place := by
  obtain ⟨file, bytes, holds, good⟩ := has
  exact ⟨file, bytes, holds.rename (v.unlinked.ne holds away) (v.unlinked.ne holds apart), good⟩

theorem Has.renamed {source : String} (has : E.Has v (E.locate source)) (target : String) :
    E.Has (v.rename E.locate source target) (E.locate target) := by
  obtain ⟨file, bytes, holds, good⟩ := has
  exact ⟨file, bytes, holds.renamed _, good⟩

/-- A step of a call leads from a volume that suits its phase to one that suits
the next, and keeps the promises. A call that seeks relies on what it finds. -/
theorem exec_suits {promise : FileId → Bytes → Prop} {phase : Phase} {a : Action}
    (allowed : E.Allows phase a) (suits : E.Suits v phase) (kept : Kept E.staged promise v)
    (sure : phase = .seeking → ∀ path, a = .pathExists path →
      (v.metadata E.locate path).toBool = true → E.found ∧ E.Has v (E.locate path))
    (promised : ∀ file place bytes, phase = .filling file place → E.good bytes →
      promise file bytes) :
    E.Expects phase a (Volume.exec E.locate a v).1 ∧
      E.Suits (Volume.exec E.locate a v).2 (E.after phase a (Volume.exec E.locate a v).1) ∧
      Kept E.staged promise (Volume.exec E.locate a v).2 := by
  cases allowed with
  | @seek path target =>
      have found := sure rfl path rfl
      simp only [Volume.exec]
      cases answer : (v.metadata E.locate path).toBool with
      | true => exact ⟨(found answer).1, (found answer).2, kept⟩
      | false => exact ⟨trivial, trivial, kept⟩
  | makeDir | fetch => exact ⟨trivial, trivial, kept⟩
  | create =>
      simp only [Volume.exec]
      split
      · exact ⟨trivial, trivial, kept⟩
      · exact ⟨trivial, Disk.create_holds _ _, kept.create _⟩
  | @fill file place bytes good =>
      have holds : v.disk.Holds place file [] := suits
      simp only [Volume.exec]
      split
      · refine ⟨trivial, trivial, kept.write holds.named ?_⟩
        intro _ incomplete
        cases incomplete
      · have filled : v.disk.write file 0 bytes |>.Holds place file bytes := holds.append bytes
        refine ⟨trivial, ⟨file, bytes, filled, good⟩, kept.write holds.named fun _ _ => ?_⟩
        rw [holds.contains]
        exact (Disk.overwrite_end [] bytes).symm ▸ promised file place bytes rfl good
  | pathExists | createDirAll => exact ⟨trivial, suits, kept⟩
  | setPermissions =>
      simp only [Volume.exec]
      split
      · exact ⟨trivial, suits, kept⟩
      · exact ⟨trivial, suits, kept⟩
  | readDir | now | recordUpdate | sendEvent | returned => exact ⟨trivial, suits, kept⟩
  | @removeDirAll place path apart =>
      have outside : (E.locate path).isPrefixOf place = false :=
        Bool.eq_false_iff.mpr fun below => apart (List.isPrefixOf_iff_prefix.mp below)
      simp only [Volume.exec]
      split
      · exact ⟨trivial, Has.removeWhere suits (by rw [outside, Bool.false_and]),
          kept.removeWhere _⟩
      · exact ⟨trivial, Has.removeWhere suits outside, kept.removeWhere _⟩
  | @carry source target free =>
      obtain ⟨file, bytes, holds, good⟩ := suits
      simp only [Volume.exec]
      split
      · exact ⟨trivial, ⟨file, bytes, holds, good⟩, kept⟩
      · rw [holds.named]
        refine ⟨trivial, ?_, kept.rename free⟩
        simp only [Errand.after, if_pos]
        exact Has.renamed ⟨file, bytes, holds, good⟩ target
  | @rename place source target away apart free elsewhere =>
      simp only [Volume.exec]
      split
      · exact ⟨trivial, suits, kept⟩
      · split
        · exact ⟨trivial, suits, kept⟩
        · refine ⟨trivial, ?_, kept.rename free⟩
          simp only [Errand.after, if_neg away]
          exact Has.rename suits away apart
  | note apart free =>
      simp only [Volume.exec]
      split
      · exact ⟨trivial, suits, kept⟩
      · exact ⟨trivial, ⟨Has.create suits apart, (Disk.create_holds _ _).named, apart⟩,
          kept.create _⟩
  | fillNote free =>
      obtain ⟨has, named, apart⟩ := suits
      simp only [Volume.exec]
      split
      · exact ⟨trivial, has.write named apart _ _, kept.write named fun there => absurd there free⟩
      · exact ⟨trivial, has.write named apart _ _, kept.write named fun there => absurd there free⟩

/-! ## The programs follow the protocol -/

section Program

variable {phase : Phase} {ε α β : Type} {wrap : ε → UpdateError} {r : Except ε α}

theorem conforms_orFail {post : Phase → α → Prop} (h : ∀ a, r = .ok a → post phase a) :
    (orFail wrap r).Conforms E.protocol post phase := by
  cases r with
  | ok a => exact h a rfl
  | error e => trivial

theorem conforms_orFail_bind {f : α → Program signature UpdateError β} {post : Phase → β → Prop}
    (h : ∀ a, r = .ok a → (f a).Conforms E.protocol post phase) :
    (orFail wrap r >>= f).Conforms E.protocol post phase := by
  cases r with
  | ok a => exact h a rfl
  | error e => trivial

theorem fsWrite_fills {path : String} {bytes : Bytes} (good : E.good bytes) :
    (fsWrite path bytes).Conforms E.protocol (fun later _ => later = .keeping (E.locate path))
      .seeking := by
  refine ⟨.create, fun created _ => conforms_orFail_bind ?_⟩
  rintro file rfl
  refine ⟨.fill good, fun written _ => conforms_orFail ?_⟩
  rintro _ rfl
  rfl

theorem fsWrite_notes {path : String} {bytes : Bytes} (apart : E.locate path ≠ place)
    (free : E.Free (E.locate path)) :
    (fsWrite path bytes).Conforms E.protocol (fun later _ => later = .keeping place)
      (.keeping place) := by
  refine ⟨.note apart free, fun created _ => conforms_orFail_bind ?_⟩
  rintro file rfl
  exact ⟨.fillNote free, fun written _ => conforms_orFail fun _ _ => rfl⟩

/-- The cleanup removes no directory above the place. -/
def Spares (E : Errand) (root version : String) (place : Place) : Prop :=
  ∀ entry : UnixPath.EntryName, entry.text ≠ version →
    ¬ E.locate (UnixPath.join root entry.text) <+: place

/-- The action is allowed while a file is kept, and the file stays where it is. -/
def Stays (E : Errand) (place : Place) (a : Action) : Prop :=
  E.Allows (.keeping place) a ∧ ∀ r, E.after (.keeping place) a r = .keeping place

theorem removeOthers_upholds {root version : String} (spares : E.Spares root version place)
    (entries : List (Except IoError UnixPath.EntryName)) :
    (removeOthers root version entries).Upholds (fun _ _ => True) (E.Stays place)
      (fun _ => True) := by
  fun_induction removeOthers root version entries with
  | case1 | case2 => trivial
  | case3 entry entries rest other ih =>
      exact ⟨⟨.removeDirAll (spares entry other), fun _ => rfl⟩, fun _ _ => ih⟩
  | case4 entry entries rest same ih => exact ih

theorem cleanupOldStaged_upholds {dirs : ProjectDirs} {version : String}
    (spares : E.Spares (stagedRoot dirs) version place) :
    (cleanupOldStaged dirs version).Upholds (fun _ _ => True) (E.Stays place) (fun _ => True) := by
  refine ⟨⟨.pathExists, fun _ => rfl⟩, fun found _ => ?_⟩
  cases found with
  | false => trivial
  | true =>
      refine ⟨⟨.readDir, fun _ => rfl⟩, fun listed _ => ?_⟩
      cases listed with
      | error e => trivial
      | ok entries => exact removeOthers_upholds spares entries

variable {sha256 : Bytes → BitVec 256} {checker : UpdateChecker} {dirs : ProjectDirs}
  {info : UpdateInfo}

/-- The bytes with the hash of the update info are those the errand is about. -/
structure Matches (E : Errand) (sha256 : Bytes → BitVec 256) (dirs : ProjectDirs)
    (info : UpdateInfo) (bytes : Bytes) : Prop where
  found : E.found
  good : E.good bytes
  spares : E.Spares (stagedRoot dirs) info.version (E.locate (stagedBinary dirs info.version))

theorem fetchUpdate_conforms
    (genuine : ∀ bytes, hexDigest (sha256 bytes) = info.sha256 → E.Matches sha256 dirs info bytes) :
    (UpdateChecker.fetchUpdate sha256 dirs info).Conforms E.protocol
      (fun later _ => later = .keeping (E.locate (stagedBinary dirs info.version)) ∧ E.found)
      .seeking := by
  refine ⟨.makeDir, fun created _ => conforms_orFail_bind fun _ _ => ?_⟩
  refine ⟨.fetch, fun fetched _ => conforms_orFail_bind fun bytes _ => ?_⟩
  dsimp only
  split
  case isTrue => trivial
  case isFalse same =>
    have hit := genuine bytes (not_not.mp same)
    refine (fsWrite_fills hit.good).bind ?_
    rintro _ _ rfl
    refine ⟨.setPermissions, fun permitted _ => conforms_orFail_bind fun _ _ => ?_⟩
    refine (Program.Upholds.conforms_attempt (cleanupOldStaged_upholds hit.spares)).bind ?_
    rintro _ _ rfl
    exact ⟨rfl, hit.found⟩

theorem downloadUpdate_conforms (info : UpdateInfo)
    (target : ∀ dirs ∈ checker.projectDirs, E.target (stagedBinary dirs info.version))
    (genuine : ∀ dirs ∈ checker.projectDirs, ∀ bytes,
      hexDigest (sha256 bytes) = info.sha256 → E.Matches sha256 dirs info bytes) :
    (checker.downloadUpdate sha256 info).Conforms E.protocol
      (fun later path => (∃ dirs ∈ checker.projectDirs, path = stagedBinary dirs info.version) ∧
        later = .keeping (E.locate path) ∧ E.found) .seeking := by
  rw [UpdateChecker.downloadUpdate, UpdateChecker.expectDirs]
  cases here : checker.projectDirs with
  | none => trivial
  | some dirs =>
      refine ⟨.seek (target dirs here), fun exists_ found => ?_⟩
      cases exists_ with
      | true => exact ⟨.returned, fun _ _ => ⟨⟨dirs, rfl, rfl⟩, rfl, found⟩⟩
      | false =>
          refine (fetchUpdate_conforms (genuine dirs here)).bind ?_
          rintro _ _ ⟨rfl, found⟩
          exact ⟨.returned, fun _ _ => ⟨⟨dirs, rfl, rfl⟩, rfl, found⟩⟩

/-- The files that `apply_update` writes and replaces are not those it is to
install, and nothing is promised of them. -/
structure Clear (E : Errand) (checker : UpdateChecker) (staged binary : String) : Prop where
  binary_ne : E.locate binary ≠ E.locate staged
  backup_ne : E.locate (sibling binary "prev") ≠ E.locate staged
  elsewhere : some (sibling binary "prev") ≠ E.binary?
  sentinel_ne : ∀ dirs ∈ checker.projectDirs,
    E.locate (UnixPath.join dirs.dataLocalDir restartSentinel) ≠ E.locate binary
  free : ∀ path ∈ [binary, sibling binary "prev", sibling binary "new"], E.Free (E.locate path)
  sentinel_free : ∀ dirs ∈ checker.projectDirs,
    E.Free (E.locate (UnixPath.join dirs.dataLocalDir restartSentinel))

variable {staged binary : String}

theorem backupCurrent_conforms (clear : E.Clear checker staged binary) :
    (UpdateChecker.backupCurrent binary).Conforms E.protocol
      (fun later _ => later = .keeping (E.locate staged)) (.keeping (E.locate staged)) := by
  have allowed : E.Allows (.keeping (E.locate staged)) (.rename binary (sibling binary "prev")) :=
    .rename clear.binary_ne clear.backup_ne (clear.free _ (by simp)) clear.elsewhere
  refine ⟨.pathExists, fun found _ => ?_⟩
  cases found with
  | false => rfl
  | true =>
      refine ⟨allowed, fun renamed _ => conforms_orFail ?_⟩
      rintro _ rfl
      exact congrArg Phase.keeping (if_neg clear.binary_ne)

theorem after_carry (source target : String) :
    E.protocol.after (.keeping (E.locate source)) (.rename source target) (.ok ()) =
      .keeping (E.locate target) :=
  congrArg Phase.keeping (if_pos rfl)

theorem installStaged_conforms (clear : E.Clear checker staged binary) :
    (UpdateChecker.installStaged staged binary).Conforms E.protocol
      (fun later _ => later = .keeping (E.locate binary)) (.keeping (E.locate staged)) := by
  have first : E.Allows (.keeping (E.locate staged)) (.rename staged (sibling binary "new")) :=
    .carry (clear.free _ (by simp))
  have second : E.Allows (.keeping (E.locate (sibling binary "new")))
      (.rename (sibling binary "new") binary) :=
    .carry (clear.free _ (by simp))
  refine ⟨first, fun renamed _ => conforms_orFail_bind ?_⟩
  rintro _ rfl
  rw [after_carry]
  refine ⟨second, fun renamed _ => conforms_orFail ?_⟩
  rintro _ rfl
  exact after_carry _ _

theorem writeSentinel_conforms (clear : E.Clear checker staged binary) :
    checker.writeSentinel.Conforms E.protocol (fun later _ => later = .keeping (E.locate binary))
      (.keeping (E.locate binary)) := by
  rw [UpdateChecker.writeSentinel]
  split
  case h_1 => rfl
  case h_2 dirs here =>
    refine ⟨.createDirAll, fun created _ => conforms_orFail_bind fun _ _ => ?_⟩
    exact fsWrite_notes (clear.sentinel_ne dirs here) (clear.sentinel_free dirs here)

/-- `apply_update` takes the staged file to the binary. -/
theorem applyUpdate_conforms (clear : E.Clear checker staged binary) :
    (checker.applyUpdate staged binary).Conforms E.protocol
      (fun later _ => later = .keeping (E.locate binary)) (.keeping (E.locate staged)) := by
  refine ⟨.pathExists, fun found _ => ?_⟩
  cases found with
  | false => trivial
  | true =>
      refine (backupCurrent_conforms clear).bind ?_
      rintro _ _ rfl
      refine (installStaged_conforms clear).bind ?_
      rintro _ _ rfl
      refine (writeSentinel_conforms clear).bind ?_
      rintro _ _ rfl
      refine ⟨.now, fun now _ => ⟨.recordUpdate, fun recorded _ => ?_⟩⟩
      exact conforms_orFail fun _ _ => rfl

theorem hexDigest_ne_empty (digest : BitVec 256) : hexDigest digest ≠ "" := by
  rw [hexDigest, hexEncode, Bytes.ofNatBE]
  intro empty
  have nothing := congrArg String.toList empty
  rw [String.toList_ofList] at nothing
  cases nothing

/-- The request installs what it finds. It cannot download: its update info has
no hash, and no digest is empty. -/
theorem dispatchApplyUpdate_conforms {version : String} {exe : Except IoError String}
    (target : ∀ dirs ∈ checker.projectDirs, E.target (stagedBinary dirs version))
    (clear : E.found → ∀ dirs ∈ checker.projectDirs,
      E.Clear checker (stagedBinary dirs version) (currentBinary exe)) :
    (dispatchApplyUpdate sha256 (some checker) version exe).Conforms E.protocol
      (fun _ _ => True) .seeking := by
  refine (downloadUpdate_conforms ⟨version, true, 0, "", ""⟩ target
    fun _ _ _ same => ?_).attempt.bind ?_
  · exact absurd same (hexDigest_ne_empty _)
  · rintro later downloaded outcome
    split
    · trivial
    · trivial
    · obtain ⟨⟨dirs, here, rfl⟩, rfl, found⟩ := outcome
      refine (applyUpdate_conforms (clear found dirs here)).attempt.bind ?_
      rintro later applied outcome
      split
      · trivial
      · obtain rfl := outcome
        exact ⟨.sendEvent, fun _ _ => trivial⟩

end Program

end Errand

/-! ## Calls one after the other -/

section Run

variable {locate : String → Place} {sha256 : Bytes → BitVec 256} {checker : UpdateChecker}
  {call : UpdateCall}

/-- The file of the announced version that the call is about. -/
def UpdateCall.errand (locate : String → Place) (sha256 : Bytes → BitVec 256)
    (checker : UpdateChecker) (call : UpdateCall) : Errand where
  locate := locate
  staged := Staged locate checker
  target := Target checker call
  found := call.announced.isSome
  good bytes := call.announced = some (hexDigest (sha256 bytes))
  binary? := call.binary?

theorem Layout.spares (layout : Layout locate checker) (plain : PlainVersion call.version)
    {dirs : ProjectDirs} (here : dirs ∈ checker.projectDirs) :
    (call.errand locate sha256 checker).Spares (stagedRoot dirs) call.version
      (locate (stagedBinary dirs call.version)) := by
  obtain ⟨plain, same⟩ := plain
  intro entry other below
  rw [← same] at below other
  change locate _ <+: _ at below
  rw [layout.entries dirs here entry, layout.binaries dirs here plain,
    List.prefix_append_right_inj, List.cons_prefix_cons] at below
  exact other (UnixPath.Component.normal.inj below.1)

theorem Placed.clear {version binary : String} {dirs : ProjectDirs}
    (placed : Placed locate checker binary) (here : dirs ∈ checker.projectDirs)
    (plain : PlainVersion version) (mine : call.binary? = some binary) :
    (call.errand locate sha256 checker).Clear checker (stagedBinary dirs version) binary := by
  obtain ⟨entry, rfl⟩ := plain
  have staged : Staged locate checker (locate (stagedBinary dirs entry.text)) :=
    ⟨dirs, here, entry, rfl⟩
  constructor
  · intro (same : locate binary = _)
    exact placed.unstaged binary (by simp) (same ▸ staged)
  · intro (same : locate (sibling binary "prev") = _)
    exact placed.unstaged (sibling binary "prev") (by simp) (same ▸ staged)
  · exact fun same => placed.backup_ne (Option.some.inj (same.trans mine))
  · exact placed.sentinel_ne
  · exact placed.unstaged
  · exact placed.sentinel

theorem body_conforms (layout : Layout locate checker)
    (admissible : call.Admissible locate checker) :
    (call.body sha256 checker).Conforms (call.errand locate sha256 checker).protocol
      (fun _ _ => True) .seeking := by
  cases call with
  | download info =>
      have plain : PlainVersion (UpdateCall.download info).version := admissible.plain rfl
      refine (Errand.downloadUpdate_conforms (E := (UpdateCall.download info).errand _ _ _) info
        (fun dirs here => ⟨dirs, here, rfl⟩) ?_).bind fun _ _ _ => trivial
      intro dirs here bytes same
      exact ⟨rfl, congrArg some same.symm, layout.spares plain here⟩
  | applyUpdate version exe announced =>
      refine (Errand.dispatchApplyUpdate_conforms
        (E := (UpdateCall.applyUpdate version exe announced).errand _ _ _)
        (fun dirs here => ⟨dirs, here, rfl⟩) ?_).bind fun _ _ _ => trivial
      intro known dirs here
      exact (admissible.placed _ rfl).clear here (admissible.plain known) rfl

/-- What is left of an admissible call: a program that follows the protocol from a phase that
suits the volume, and the file that it fills is noted as its own. -/
structure Follows (locate : String → Place) (sha256 : Bytes → BitVec 256)
    (checker : UpdateChecker) (s : Staging) (t : Thread announcing UpdateError UpdateCall)
    (phase : Errand.Phase) (rest : Program signature UpdateError Unit) : Prop where
  admissible : t.call.Admissible locate checker
  rest_eq : t.rest = rest.sited t.call.announced
  conforms : rest.Conforms (t.call.errand locate sha256 checker).protocol (fun _ _ => True) phase
  suits : (t.call.errand locate sha256 checker).Suits s.volume phase
  noted : ∀ file place, phase = .filling file place → s.announced file = t.call.announced

/-- Calls made one after the other, and complete files as promised. -/
abbrev Followed (locate : String → Place) (sha256 : Bytes → BitVec 256)
    (checker : UpdateChecker) : UpdatePool → Prop :=
  System.HoldsLatest (fun s => Kept (Staged locate checker) (s.Promise sha256) s.volume)
    (fun s t => ∃ phase rest, Follows locate sha256 checker s t phase rest)

variable {P : UpdatePool} {s : Staging}

/-- A file that was staged for what the call announces has this hash. -/
theorem Kept.has (kept : Kept (Staged locate checker) (s.Promise sha256) s.volume)
    {path : String} (target : Target checker call path) (plain : PlainVersion call.version)
    (found : ∃ file ∈ s.volume.disk.names (locate path), Own s call file) :
    (call.errand locate sha256 checker).Has s.volume (locate path) := by
  obtain ⟨dirs, here, rfl⟩ := target
  obtain ⟨entry, same⟩ := plain
  obtain ⟨file, named, written, known, noted⟩ := found
  obtain ⟨hash, announced⟩ := Option.isSome_iff_exists.mp known
  refine ⟨file, s.volume.disk.files file, ⟨named, rfl⟩, announced.trans (congrArg some ?_)⟩
  exact (kept _ file ⟨dirs, here, entry, by rw [same]⟩ named written hash
    (noted.trans announced)).symm

/-- Promises do not change but of a file that is created, and that is not complete. -/
theorem Kept.noted {hash : Option String} {a : Action}
    (kept : Kept (Staged locate checker) (s.Promise sha256) (s.volume.exec locate a).2) :
    Kept (Staged locate checker) ((s.exec locate (hash, a)).2.Promise sha256)
      (s.exec locate (hash, a)).2.volume := by
  intro place file staged named complete announced member
  refine kept place file staged named complete announced ?_
  cases a with
  | create path =>
      cases fault : s.volume.env.createFault path with
      | some error =>
          simp only [Staging.exec, Volume.exec, fault] at member
          exact member
      | none =>
          simp only [Staging.exec, Volume.exec, fault] at member complete
          have other : file ≠ (s.volume.create locate path).1 := by
            rintro rfl
            simp [Volume.create] at complete
          change announced ∈ Function.update s.announced _ hash file at member
          rwa [Function.update_of_ne other] at member
  | _ => exact member

/-- A file that is to be filled has just been created. -/
theorem Errand.Allows.noted {E : Errand} {phase : Errand.Phase} {a : Action} {r : a.Answer}
    {file : FileId} {place : Place} (allowed : E.Allows phase a)
    (filling : E.after phase a r = .filling file place) (s : Staging) (hash : Option String) :
    s.noted hash a r file = hash := by
  cases allowed with
  | seek => cases r <;> cases filling
  | create =>
      cases r with
      | error e => cases filling
      | ok created =>
          obtain rfl : created = file := (Errand.Phase.filling.inj filling).1
          exact Function.update_self _ _ _
  | fill | carry | rename | note => cases r <;> cases filling
  | _ => cases filling

theorem Followed.move {m : UpdateMove} (layout : Layout locate checker)
    (admissible : ∀ c, m = .call c → c.Admissible locate checker)
    (finds : FindsOwn locate checker P m) (followed : Followed locate sha256 checker P) :
    Followed locate sha256 checker ((updates locate sha256 checker).move P m) := by
  refine System.HoldsLatest.move _ followed ?_ ?_ ?_ ?_
  · rintro c rfl
    refine ⟨.seeking, c.body sha256 checker, admissible c rfl, rfl, ?_, trivial, ?_⟩
    · exact body_conforms layout (admissible c rfl)
    · intro file place same
      cases same
  · rintro env rfl
    refine ⟨followed.shared, ?_⟩
    rintro t ⟨phase, rest, follows⟩
    exact ⟨phase, rest, follows.admissible, follows.rest_eq, follows.conforms, follows.suits,
      follows.noted⟩
  · rintro i rfl
    exact finds.1
  · rintro i c a k rfl found ⟨phase, rest, follows⟩
    cases rest with
    | done u | fail e => cases follows.rest_eq
    | act b next =>
        have same : Program.act a k =
            Program.act (c.announced, b) fun r => (next r).sited c.announced := follows.rest_eq
        cases same
        have allowed : (c.errand locate sha256 checker).Allows phase b := follows.conforms.1
        have finds := finds.2 _ found _ rfl
        obtain ⟨expected, suits, kept⟩ := Errand.exec_suits allowed follows.suits followed.shared (by
            rintro rfl path rfl there
            cases allowed with
            | seek target =>
                obtain ⟨file, named, own⟩ := finds target there
                exact ⟨own.2.1, followed.shared.has target (follows.admissible.plain own.2.1)
                  ⟨file, named, own⟩⟩) (by
            rintro file place bytes rfl good hash member
            have mine : c.announced = some hash := (follows.noted file place rfl).symm.trans member
            exact Option.some.inj (good.symm.trans mine))
        refine ⟨kept.noted, _, next _, follows.admissible, rfl, follows.conforms.2 _ expected,
          suits, ?_⟩
        intro file place filling
        exact allowed.noted filling P.shared c.announced

/-- What the latest call does next concerns an announced file. -/
theorem Followed.verified {i : Nat} (turn : i + 1 = P.threads.length)
    (followed : Followed locate sha256 checker P) :
    VerifiedMove locate sha256 P (.step i) := by
  rintro ⟨c, rest⟩ found a next
  have last : P.threads.getLast? = some ⟨c, rest⟩ := by
    rw [List.getLast?_eq_getElem?, ← turn]
    exact found
  obtain ⟨phase, program, follows⟩ := followed.latest _ last
  have content {place : Place}
      (has : (c.errand locate sha256 checker).Has P.shared.volume place) :
      Announced sha256 c (P.shared.volume.disk.content? place) := by
    obtain ⟨file, bytes, holds, good⟩ := has
    exact ⟨bytes, holds.content?, good⟩
  obtain rfl : rest = program.sited c.announced := follows.rest_eq
  cases program with
  | done u | fail e => cases next
  | act b k =>
      obtain rfl : (c.announced, b) = a := Option.some.inj next
      have allowed : (c.errand locate sha256 checker).Allows phase b := follows.conforms.1
      have suits := follows.suits
      cases allowed with
      | returned => exact content suits
      | carry => exact fun _ _ => content suits
      | rename _ _ _ elsewhere => exact fun same => absurd same elsewhere
      | _ => trivial

/-- Where no call finds a file that is incomplete or was staged for another hash, every path
that `download_update` returns and every file that is moved over the binary has the announced
hash. -/
theorem verified_of_findsOwn {s : Staging} {moves : List UpdateMove}
    (layout : Layout locate checker)
    (start : Kept (Staged locate checker) (s.Promise sha256) s.volume)
    (calls : ∀ c, .call c ∈ moves → c.Admissible locate checker)
    (finds : (updates locate sha256 checker).Along (FindsOwn locate checker) ⟨s, []⟩ moves) :
    (updates locate sha256 checker).Along (VerifiedMove locate sha256) ⟨s, []⟩ moves := by
  refine System.Along.imp _ (I := Followed locate sha256 checker) ?_ ?_ ⟨start, ?_⟩
    (System.Along.of_mem _ finds)
  · rintro P m ⟨member, finds⟩ followed
    refine followed.move layout ?_ finds
    rintro c rfl
    exact calls c member
  · rintro P m ⟨-, finds⟩ followed
    cases m with
    | call c | disturb env => trivial
    | step i => exact followed.verified finds.1
  · intro t last
    cases last

end Run

/-! ## An interrupted download -/

namespace Sample

/-- The digests of the contents below. -/
def sha256 (bytes : Bytes) : BitVec 256 :=
  if bytes = [97, 98] then 0xfb8e20fc2e4c3f248c60c39bd652f3c1347298bb977b8b4d5903b85055620603
  else if bytes = [97] then 0xca978112ca1bbdcafac231b39a23dc4da786eff8147c4e72b9807785afee48bb
  else 0

def dirs : ProjectDirs := ⟨"/home/u/.cache/qubox", "/home/u/.local/share/qubox"⟩

def checker : UpdateChecker := ⟨some dirs, "0.1.0"⟩

def info : UpdateInfo where
  version := "0.2.0"
  available := true
  sizeBytes := 2
  manifestUrl := "https://updates.example.org/targets/0.2.0"
  sha256 := hexDigest (sha256 [97, 98])

/-- The version is signed again with other content. -/
def resigned : UpdateInfo := { info with sizeBytes := 1, sha256 := hexDigest (sha256 [97]) }

/-- Every operation succeeds, and the server sends the announced binary. -/
def env : FsEnv where
  clock := 0
  directory _ := none
  statFault _ := none
  createDirAll _ := .ok ()
  httpGet _ := .ok [97, 98]
  createFault _ := none
  writeFault := none
  permissionFault _ := none
  readDir _ := .ok []
  removeDirFault _ := none
  removeFault _ := none
  renameFault _ _ := none
  recordUpdate _ := .ok ()

/-- The server sends what has been signed again. -/
def resignedEnv : FsEnv := { env with httpGet := fun _ => .ok [97] }

def volume : Volume where
  disk := .empty
  unlinked := Disk.empty_unlinked
  modified _ := 0
  written _ := false
  env := env

def staging : Staging := ⟨volume, fun _ => none⟩

/-- The disk is full after one byte. -/
def fullDisk : FsEnv := { env with writeFault := some ("No space left on device (os error 28)", 1) }

/-- A request to install what this update info announces. -/
def install (info : UpdateInfo) : UpdateMove :=
  .call (.applyUpdate "0.2.0" (.ok "/usr/bin/qubox") (some info.sha256))

/-- A download under the given environment, a second one when all is well, and a
request to install the version. -/
def twice (first : FsEnv) (steps : Nat) : List UpdateMove :=
  [.disturb first, .call (.download info)] ++ List.replicate steps (.step 0) ++
    [.disturb env, .call (.download info), .step 1, .step 1, install info] ++
      List.replicate 12 (.step 2)

/-- The version is then downloaded and installed as it has been signed again. -/
def again : List UpdateMove :=
  [.disturb resignedEnv, .call (.download resigned)] ++ List.replicate 8 (.step 3) ++
    [install resigned] ++ List.replicate 12 (.step 4)

theorem layout : Layout UnixPath.components checker where
  entries := by
    intro dirs _ entry
    exact UnixPath.components_join _ entry
  binaries := by
    intro dirs _ entry
    have qubox := UnixPath.components_join (stagingDir dirs entry.text)
      ⟨"qubox", by decide, by decide⟩
    rw [stagedBinary, qubox, stagingDir, UnixPath.components_join, List.append_assoc]
    rfl

theorem kept :
    Kept (Staged UnixPath.components checker) (staging.Promise sha256) staging.volume := by
  intro place file _ named
  cases named

theorem unstaged {path : String}
    (apart : ¬ UnixPath.components (stagedRoot dirs) <+: UnixPath.components path) :
    ¬ Staged UnixPath.components checker (UnixPath.components path) := by
  rintro ⟨_, here, entry, same⟩
  obtain rfl := Option.some.inj here
  rw [same, layout.binaries dirs rfl entry] at apart
  exact apart (List.prefix_append _ _)

theorem placed : Placed UnixPath.components checker "/usr/bin/qubox" where
  unstaged path member := unstaged (by
    revert path
    decide)
  sentinel := by
    rintro _ here
    obtain rfl := Option.some.inj here
    exact unstaged (by decide)
  backup_ne := by decide
  sentinel_ne := by
    rintro _ here
    obtain rfl := Option.some.inj here
    decide

theorem admissible {first : FsEnv} {steps : Nat} {c : UpdateCall}
    (member : .call c ∈ twice first steps ++ again) :
    c.Admissible UnixPath.components checker := by
  have calls : (c = .download info ∨ c = .download resigned) ∨
      ∃ announced, c = .applyUpdate "0.2.0" (.ok "/usr/bin/qubox") announced := by
    obtain early | late := List.mem_append.mp member
    · have either : c = .download info ∨ .call c = install info := by
        simpa [twice, install] using early
      obtain rfl | same := either
      · exact .inl (.inl rfl)
      · exact .inr ⟨_, Move.call.inj same⟩
    · have either : c = .download resigned ∨ .call c = install resigned := by
        simpa [again, install] using late
      obtain rfl | same := either
      · exact .inl (.inr rfl)
      · exact .inr ⟨_, Move.call.inj same⟩
  constructor
  · intro _
    refine ⟨⟨"0.2.0", by decide, by decide⟩, ?_⟩
    obtain (rfl | rfl) | ⟨announced, rfl⟩ := calls <;> rfl
  · intro binary mine
    obtain (rfl | rfl) | ⟨announced, rfl⟩ := calls
    · cases mine
    · cases mine
    · obtain rfl := Option.some.inj mine
      exact placed

/-- The second download returns the path of the file that the first has begun,
and the request installs it. -/
theorem interrupted_not_verified :
    ¬ ∀ (locate : String → Place) (sha256 : Bytes → BitVec 256) (checker : UpdateChecker)
      (s : Staging) (moves : List UpdateMove), Layout locate checker →
      Kept (Staged locate checker) (s.Promise sha256) s.volume →
      (∀ c, .call c ∈ moves → c.Admissible locate checker) →
      (updates locate sha256 checker).Along (VerifiedMove locate sha256) ⟨s, []⟩ moves := by
  intro always
  have verified := always UnixPath.components sha256 checker staging (twice fullDisk 5)
    layout kept fun c member => admissible (List.mem_append_left again member)
  revert verified
  decide

/-- After a complete download the same calls return and install what was announced, and so
do those that follow when the version is signed again. -/
theorem complete_verified :
    (updates UnixPath.components sha256 checker).Along
      (FindsOwn UnixPath.components checker) ⟨staging, []⟩ (twice env 8 ++ again) ∧
    ((updates UnixPath.components sha256 checker).schedule ⟨staging, []⟩
      (twice env 8 ++ again)).shared.volume.disk.content?
        (UnixPath.components "/usr/bin/qubox") = some [97] ∧
    (updates UnixPath.components sha256 checker).Along
      (VerifiedMove UnixPath.components sha256) ⟨staging, []⟩ (twice env 8 ++ again) :=
  ⟨by decide, by decide,
    verified_of_findsOwn layout kept (fun _ => admissible) (by decide)⟩

end Sample

end Qubox.Update
