import Mathlib.Logic.Function.Basic
import Qubox.Library.Bytes

/-!
# Files and their names

A disk keeps apart what a name refers to and what a file contains. A process
that has created a file holds the file and not its name, so it keeps writing to
that file when the name is given to another one, and two processes that create
the same name hold the same file.

Names are positions in the directory tree; which path denotes which position is
up to the client of this library.
-/

/-- A file, whatever it is called. -/
abbrev FileId := Nat

/-- Directory entries of regular files and the bytes of every file. Files from
`next` on have not been allocated. -/
structure Disk (Location : Type) where
  names : Location → Option FileId
  files : FileId → Bytes
  next : FileId
  allocated : ∀ location file, names location = some file → file < next

namespace Disk

variable {Location : Type}

/-- A disk with no file. -/
def empty : Disk Location where
  names _ := none
  files _ := []
  next := 0
  allocated _ _ named := nomatch named

/-- What reading a name gives. -/
def content? (d : Disk Location) (location : Location) : Option Bytes :=
  (d.names location).map d.files

/-- Bytes put at an offset; a gap before them reads as zeros. -/
def overwrite (content : Bytes) (offset : Nat) (bytes : Bytes) : Bytes :=
  if bytes = [] then content
  else
    content.take offset ++ List.replicate (offset - content.length) 0 ++ bytes ++
      content.drop (offset + bytes.length)

def write (d : Disk Location) (file : FileId) (offset : Nat) (bytes : Bytes) : Disk Location :=
  { d with files := Function.update d.files file (overwrite (d.files file) offset bytes) }

/-- All names that satisfy the test are gone. -/
def removeWhere (d : Disk Location) (gone : Location → Bool) : Disk Location where
  names location := if gone location then none else d.names location
  files := d.files
  next := d.next
  allocated := by
    intro other file named
    split at named
    case isTrue => cases named
    case isFalse => exact d.allocated other file named

/-- No file has two names. -/
def Unlinked (d : Disk Location) : Prop :=
  ∀ first second file, d.names first = some file → d.names second = some file → first = second

/-- What a process that writes a file needs of the disk: the name still refers
to the file, and the file contains what was written. -/
structure Holds (d : Disk Location) (location : Location) (file : FileId) (content : Bytes) :
    Prop where
  named : d.names location = some file
  contains : d.files file = content

variable {d : Disk Location} {location other source target : Location} {file : FileId}
  {content : Bytes}

theorem overwrite_end (content bytes : Bytes) :
    overwrite content content.length bytes = content ++ bytes := by
  rw [overwrite]
  split
  case isTrue nothing => rw [nothing, List.append_nil]
  case isFalse =>
    rw [List.take_length, Nat.sub_self, List.drop_eq_nil_of_le (Nat.le_add_right _ _)]
    simp

theorem Holds.content? (h : d.Holds location file content) :
    d.content? location = some content := by
  rw [Disk.content?, h.named, Option.map_some, h.contains]

theorem Holds.ne (h : d.Holds location file content) (apart : d.names other ≠ some file) :
    location ≠ other :=
  fun same => apart (same ▸ h.named)

theorem Holds.append (h : d.Holds location file content) (bytes : Bytes) :
    (d.write file content.length bytes).Holds location file (content ++ bytes) := by
  refine ⟨h.named, (Function.update_self _ _ _).trans ?_⟩
  rw [h.contains, overwrite_end]

theorem Holds.write (h : d.Holds location file content) {file' : FileId} (apart : file' ≠ file)
    (offset : Nat) (bytes : Bytes) : (d.write file' offset bytes).Holds location file content :=
  ⟨h.named, (Function.update_of_ne apart.symm _ _).trans h.contains⟩

theorem Holds.removeWhere {gone : Location → Bool} (h : d.Holds location file content)
    (apart : gone location = false) : (d.removeWhere gone).Holds location file content :=
  ⟨(if_neg (Bool.eq_false_iff.mp apart)).trans h.named, h.contains⟩

theorem empty_unlinked : (empty : Disk Location).Unlinked := by
  intro first second file named
  cases named

/-- Under another name there is another file. -/
theorem Unlinked.ne (unlinked : d.Unlinked) (h : d.Holds location file content)
    (apart : other ≠ location) : d.names other ≠ some file :=
  fun named => apart (unlinked other location file named h.named)

theorem Unlinked.removeWhere (unlinked : d.Unlinked) (gone : Location → Bool) :
    (d.removeWhere gone).Unlinked := by
  intro first second file this that
  simp only [Disk.removeWhere] at this that
  split at this
  · cases this
  · split at that
    · cases that
    · exact unlinked first second file this that

theorem names_of_removeWhere {gone : Location → Bool}
    (named : (d.removeWhere gone).names location = some file) : d.names location = some file := by
  simp only [Disk.removeWhere] at named
  split at named
  · cases named
  · exact named

/-! ## Changing names

Each operation of another process keeps what is held, unless the name it is
about refers to the file in question. -/

variable [DecidableEq Location]

/-- A file of that name without content: the named one cut to length zero, or a
new one. -/
def create (d : Disk Location) (location : Location) : FileId × Disk Location :=
  match d.names location with
  | some file => (file, { d with files := Function.update d.files file [] })
  | none => (d.next, {
      names := Function.update d.names location (some d.next)
      files := Function.update d.files d.next []
      next := d.next + 1
      allocated := by
        intro other file named
        rw [Function.update_apply] at named
        split at named
        case isTrue => exact Option.some.inj named ▸ Nat.lt_succ_self _
        case isFalse => exact Nat.lt_succ_of_lt (d.allocated other file named) })

/-- The name is gone; a process that holds the file keeps it. -/
def remove (d : Disk Location) (location : Location) : Disk Location where
  names := Function.update d.names location none
  files := d.files
  next := d.next
  allocated := by
    intro other file named
    rw [Function.update_apply] at named
    split at named
    case isTrue => cases named
    case isFalse => exact d.allocated other file named

/-- The second name takes over the file of the first. Two names of one file are
left alone. -/
def rename (d : Disk Location) (source target : Location) : Disk Location :=
  match named : d.names source with
  | none => d
  | some file =>
      if d.names target = some file then d
      else {
        names := Function.update (Function.update d.names target (some file)) source none
        files := d.files
        next := d.next
        allocated := by
          intro other file' named'
          simp only [Function.update_apply] at named'
          split at named'
          case isTrue => cases named'
          case isFalse =>
            split at named'
            case isTrue => exact Option.some.inj named' ▸ d.allocated source file named
            case isFalse => exact d.allocated other file' named' }

theorem create_holds (d : Disk Location) (location : Location) :
    (d.create location).2.Holds location (d.create location).1 [] := by
  rw [create]
  split
  case h_1 file named => exact ⟨named, Function.update_self _ _ _⟩
  case h_2 => exact ⟨Function.update_self _ _ _, Function.update_self _ _ _⟩

/-- The file a process gets is not one that somebody else holds, unless it was
asked for by name. -/
theorem Holds.create_ne (h : d.Holds location file content) (apart : d.names other ≠ some file) :
    (d.create other).1 ≠ file := by
  rw [create]
  split
  case h_1 file' named => exact fun same => apart (same ▸ named)
  case h_2 => exact (Nat.ne_of_lt (d.allocated location file h.named)).symm

theorem Holds.create (h : d.Holds location file content) (apart : d.names other ≠ some file) :
    (d.create other).2.Holds location file content := by
  have fresh := h.create_ne apart
  revert fresh
  rw [Disk.create]
  split
  case h_1 file' named =>
    exact fun fresh => ⟨h.named, (Function.update_of_ne fresh.symm _ _).trans h.contains⟩
  case h_2 =>
    exact fun fresh => ⟨(Function.update_of_ne (h.ne apart) _ _).trans h.named,
      (Function.update_of_ne fresh.symm _ _).trans h.contains⟩

/-- The file a process gets has been allocated, and those before stay so. -/
theorem next_create (d : Disk Location) (location : Location) :
    d.next ≤ (d.create location).2.next ∧ (d.create location).1 < (d.create location).2.next := by
  rw [create]
  split
  case h_1 file named => exact ⟨Nat.le_refl _, d.allocated location file named⟩
  case h_2 => exact ⟨Nat.le_succ _, Nat.lt_succ_self _⟩

/-- Only the created file gets a name or changes. -/
theorem names_of_create (named : (d.create location).2.names other = some file)
    (old : file ≠ (d.create location).1) : d.names other = some file := by
  revert named old
  rw [Disk.create]
  split
  case h_1 => exact fun named _ => named
  case h_2 =>
    intro named old
    simp only [Function.update_apply] at named
    split at named
    · exact absurd (Option.some.inj named).symm old
    · exact named

theorem files_create_of_ne (old : file ≠ (d.create location).1) :
    (d.create location).2.files file = d.files file := by
  revert old
  rw [Disk.create]
  split
  case h_1 => exact fun old => Function.update_of_ne old _ _
  case h_2 => exact fun old => Function.update_of_ne old _ _

theorem Holds.remove (h : d.Holds location file content) (apart : d.names other ≠ some file) :
    (d.remove other).Holds location file content :=
  ⟨(Function.update_of_ne (h.ne apart) _ _).trans h.named, h.contains⟩

theorem Holds.rename (h : d.Holds location file content) (first : d.names source ≠ some file)
    (second : d.names target ≠ some file) :
    (d.rename source target).Holds location file content := by
  rw [Disk.rename]
  split
  case h_1 => exact h
  case h_2 file' named =>
    split
    case isTrue => exact h
    case isFalse =>
      refine ⟨?_, h.contains⟩
      change Function.update (Function.update d.names target (some file')) source none location = _
      rw [Function.update_of_ne (h.ne first), Function.update_of_ne (h.ne second), h.named]

/-- A rename gives no other name to a file. -/
theorem names_of_rename (named : (d.rename source target).names other = some file)
    (apart : other ≠ target) : d.names other = some file := by
  revert named
  rw [Disk.rename]
  split
  case h_1 => exact id
  case h_2 =>
    split
    case isTrue => exact id
    case isFalse =>
      intro named
      simp only [Function.update_apply, if_neg apart] at named
      split at named
      · cases named
      · exact named

theorem files_rename (d : Disk Location) (source target : Location) :
    (d.rename source target).files = d.files := by
  rw [Disk.rename]
  split
  case h_1 => rfl
  case h_2 => split <;> rfl

theorem next_rename (d : Disk Location) (source target : Location) :
    (d.rename source target).next = d.next := by
  rw [Disk.rename]
  split
  · rfl
  · split <;> rfl

/-- The file that is renamed goes by its new name. -/
theorem Holds.renamed (h : d.Holds source file content) (target : Location) :
    (d.rename source target).Holds target file content := by
  rw [Disk.rename]
  split
  case h_1 none_eq => exact absurd (h.named.symm.trans none_eq) (Option.some_ne_none file)
  case h_2 file' named =>
    obtain rfl : file = file' := Option.some.inj (h.named.symm.trans named)
    split
    case isTrue same => exact ⟨same, h.contains⟩
    case isFalse other =>
      refine ⟨?_, h.contains⟩
      change Function.update (Function.update d.names target (some file)) source none target = _
      have apart : target ≠ source := by
        rintro rfl
        exact other h.named
      rw [Function.update_of_ne apart, Function.update_self]

/-! ## Disks without hard links -/

theorem Unlinked.create (unlinked : d.Unlinked) (location : Location) :
    (d.create location).2.Unlinked := by
  rw [Disk.create]
  split
  case h_1 => exact unlinked
  case h_2 =>
    have fresh (name : Location) : d.names name ≠ some d.next :=
      fun named => Nat.lt_irrefl _ (d.allocated name _ named)
    intro first second file this that
    simp only [Function.update_apply] at this that
    split at this <;> split at that
    · rename_i same same'
      exact same.trans same'.symm
    · exact absurd (this ▸ that) (fresh second)
    · exact absurd (that ▸ this) (fresh first)
    · exact unlinked first second file this that

theorem Unlinked.remove (unlinked : d.Unlinked) (location : Location) :
    (d.remove location).Unlinked := by
  intro first second file this that
  simp only [Disk.remove, Function.update_apply] at this that
  split at this
  · cases this
  · split at that
    · cases that
    · exact unlinked first second file this that

theorem Unlinked.rename (unlinked : d.Unlinked) (source target : Location) :
    (d.rename source target).Unlinked := by
  rw [Disk.rename]
  split
  case h_1 => exact unlinked
  case h_2 file' named =>
    split
    case isTrue => exact unlinked
    case isFalse =>
      -- a name other than the two keeps its file, which is not the renamed one
      have other (name : Location) (h : name ≠ source) : d.names name ≠ some file' :=
        fun same => h (unlinked name source file' same named)
      intro first second file this that
      simp only [Function.update_apply] at this that
      split at this
      · cases this
      · split at that
        · cases that
        · split at this <;> split at that
          · rename_i same same'
            exact same.trans same'.symm
          · exact absurd (this ▸ that) (other second ‹_›)
          · exact absurd (that ▸ this) (other first ‹_›)
          · exact unlinked first second file this that

/-! ## Installing a file

A file is written under one name and then moved to another. -/

/-- The file has this content now. -/
def fill (d : Disk Location) (file : FileId) (content : Bytes) : Disk Location :=
  { d with files := Function.update d.files file content }

def install (d : Disk Location) (source target : Location) (content : Bytes) : Disk Location :=
  ((d.create source).2.fill (d.create source).1 content).rename source target

/-- Both disks say the same about the name. -/
structure SameAt (before after : Disk Location) (location : Location) : Prop where
  names : after.names location = before.names location
  content : after.content? location = before.content? location

omit [DecidableEq Location] in
theorem write_fill (d : Disk Location) (file : FileId) (content bytes : Bytes) :
    (d.fill file content).write file content.length bytes = d.fill file (content ++ bytes) := by
  simp only [fill, Disk.write, Function.update_self, Function.update_idem, overwrite_end]

theorem fill_created (d : Disk Location) (location : Location) :
    (d.create location).2.fill (d.create location).1 [] = (d.create location).2 := by
  have cut := (d.create_holds location).contains
  rw [fill, ← cut, Function.update_eq_self]

theorem fill_holds (d : Disk Location) (location : Location) (content : Bytes) :
    ((d.create location).2.fill (d.create location).1 content).Holds location
      (d.create location).1 content :=
  ⟨(d.create_holds location).named, Function.update_self _ _ _⟩

theorem install_holds (d : Disk Location) (source target : Location) (content : Bytes) :
    (d.install source target content).Holds target (d.create source).1 content :=
  (d.fill_holds source content).renamed target

/-- The old name of a file that is renamed is free. -/
theorem Unlinked.names_rename_source (unlinked : d.Unlinked) (apart : source ≠ target) :
    (d.rename source target).names source = none := by
  rw [Disk.rename]
  split
  case h_1 free => exact free
  case h_2 file named =>
    split
    case isTrue same => exact absurd (unlinked source target file named same) apart
    case isFalse => exact Function.update_self _ _ _

theorem Unlinked.install (unlinked : d.Unlinked) (source target : Location) (content : Bytes) :
    (d.install source target content).Unlinked :=
  Unlinked.rename (d := (d.create source).2.fill (d.create source).1 content)
    (unlinked.create source) source target

theorem names_create_of_ne (apart : other ≠ location) :
    (d.create location).2.names other = d.names other := by
  rw [Disk.create]
  split
  case h_1 => rfl
  case h_2 => exact Function.update_of_ne apart _ _

theorem names_rename_of_ne (first : other ≠ source) (second : other ≠ target) :
    (d.rename source target).names other = d.names other := by
  rw [Disk.rename]
  split
  case h_1 => rfl
  case h_2 file named =>
    split
    case isTrue => rfl
    case isFalse =>
      exact (Function.update_of_ne first _ _).trans (Function.update_of_ne second _ _)

theorem names_install_of_ne (first : other ≠ source) (second : other ≠ target) (content : Bytes) :
    (d.install source target content).names other = d.names other :=
  (names_rename_of_ne first second).trans (names_create_of_ne first)

theorem files_install_of_ne (old : file ≠ (d.create source).1) (target : Location)
    (content : Bytes) : (d.install source target content).files file = d.files file := by
  rw [install, files_rename]
  exact (Function.update_of_ne old _ _).trans (files_create_of_ne old)

/-- What goes by other names is left alone. -/
theorem Unlinked.sameAt_install (unlinked : d.Unlinked) (first : location ≠ source)
    (second : location ≠ target) (bytes : Bytes) :
    SameAt d (d.install source target bytes) location := by
  have names : (d.install source target bytes).names location = d.names location :=
    names_install_of_ne first second bytes
  refine ⟨names, ?_⟩
  rw [content?, content?, names]
  cases named : d.names location with
  | none => rfl
  | some file =>
      have h : d.Holds location file (d.files file) := ⟨named, rfl⟩
      have old : file ≠ (d.create source).1 := (h.create_ne (unlinked.ne h first.symm)).symm
      rw [Option.map_some, Option.map_some, files_install_of_ne old]

/-- The old file under the target's name is lost. -/
theorem Unlinked.not_sameAt_target (unlinked : d.Unlinked) (apart : source ≠ target)
    (named : (d.names target).isSome) (content : Bytes) :
    ¬ SameAt d (d.install source target content) target := by
  obtain ⟨file, named⟩ := Option.isSome_iff_exists.mp named
  intro same
  have h : d.Holds target file (d.files file) := ⟨named, rfl⟩
  have fresh : (d.create source).1 ≠ file := h.create_ne (unlinked.ne h apart)
  have installed := (d.install_holds source target content).named
  rw [same.names, named] at installed
  exact fresh (Option.some.inj installed).symm

/-- So is a file that goes by the name that is only used meanwhile. -/
theorem Unlinked.not_sameAt_source (unlinked : d.Unlinked) (apart : source ≠ target)
    (named : (d.names source).isSome) (content : Bytes) :
    ¬ SameAt d (d.install source target content) source := by
  intro same
  have gone : (d.install source target content).names source = none :=
    Unlinked.names_rename_source (d := (d.create source).2.fill (d.create source).1 content)
      (unlinked.create source) apart
  rw [← same.names, gone] at named
  cases named

end Disk
