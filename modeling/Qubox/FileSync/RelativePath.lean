import Qubox.FileSync.Transfer

/-!
# Accepted relative paths

`validate_relative_path` accepts a path exactly if it is short, has no control
character, does not look absolute and has no `..` among its pieces. Joined to a
directory, such a path leads to a place strictly below it, unless it is made of
dots for the current directory alone: then it leads to the directory itself.
-/

namespace Qubox.FileSync

open UnixPath (Component components component? hasRoot)

/-! ## What is accepted -/

/-- The pieces of a path between its separators. -/
def pieces (relativePath : String) : List (List Char) := relativePath.toList.splitOn '/'

/-- What a path has to satisfy to be accepted. -/
structure Acceptable (relativePath : String) : Prop where
  nonempty : relativePath ≠ ""
  short : relativePath.utf8ByteSize ≤ maxRelPathBytes
  printable : ∀ c ∈ relativePath.toList, isControl c = false
  backslash : relativePath.toList.head? ≠ some '\\'
  separator : relativePath.toList.head? ≠ some '/'
  drive : relativePath.toList[1]? ≠ some ':'
  descends : ['.', '.'] ∉ pieces relativePath

theorem validateComponent_ok {relativePath : String} {c : Component} :
    validateComponent relativePath c = .ok () ↔
      c = .curDir ∨ ∃ name, name ≠ "" ∧ c = .normal name := by
  cases c with
  | normal name =>
      rw [validateComponent]
      split
      case isTrue empty => simp [empty]
      case isFalse named => simp [named]
  | curDir | parentDir | rootDir => simp [validateComponent]

theorem forM_ok {α : Type} {f : α → Except FileSyncError Unit} {l : List α} :
    l.forM f = .ok () ↔ ∀ a ∈ l, f a = .ok () := by
  induction l with
  | nil => simp [pure, Except.pure]
  | cons a l ih =>
      have unfolded : (a :: l).forM f = (f a >>= fun _ => l.forM f) := rfl
      rw [unfolded, List.forall_mem_cons, ← ih]
      cases f a with
      | error e | ok u => simp [bind, Except.bind]

/-- The components that a loop over a relative path sees. -/
theorem mem_components {relativePath : String} (relative : hasRoot relativePath = false)
    {c : Component} (member : c ∈ components relativePath) :
    c = .curDir ∨ c ∈ (pieces relativePath).filterMap component? := by
  rw [components, relative, if_neg Bool.false_ne_true] at member
  split at member
  · exact (List.mem_cons.mp member).imp id id
  · exact .inr member

theorem named_mem_components {relativePath : String} (relative : hasRoot relativePath = false)
    {c : Component} (member : c ∈ (pieces relativePath).filterMap component?) :
    c ∈ components relativePath := by
  rw [components, relative, if_neg Bool.false_ne_true]
  split
  · exact .tail _ member
  · exact member

theorem component?_eq_some {piece : List Char} {c : Component} (found : component? piece = some c) :
    (piece = ['.', '.'] ∧ c = .parentDir) ∨
      ∃ name, name ≠ "" ∧ piece ≠ ['.', '.'] ∧ c = .normal name := by
  rw [component?] at found
  split at found
  case isTrue => cases found
  case isFalse blank =>
    rw [not_or] at blank
    split at found
    case isTrue dots =>
      cases found
      exact .inl ⟨dots, rfl⟩
    case isFalse dots =>
      cases found
      refine .inr ⟨_, fun empty => blank.1 ?_, dots, rfl⟩
      rw [← String.toList_ofList (l := piece), empty]
      rfl

/-- A check that is followed by others. -/
theorem check_ok {failed : Prop} [Decidable failed] {e : FileSyncError}
    {rest : Except FileSyncError Unit} :
    (if failed then .error e else rest) = .ok () ↔ ¬ failed ∧ rest = .ok () := by
  split
  case isTrue bad => exact iff_of_false (fun same => by cases same) fun both => both.1 bad
  case isFalse fine => exact (and_iff_right fine).symm

theorem validateComponents_ok {relativePath : String} (relative : hasRoot relativePath = false) :
    (components relativePath).forM (validateComponent relativePath) = .ok () ↔
      ['.', '.'] ∉ pieces relativePath := by
  rw [forM_ok]
  constructor
  · intro all dots
    have parent : Component.parentDir ∈ components relativePath :=
      named_mem_components relative (List.mem_filterMap.mpr ⟨_, dots, by decide⟩)
    rcases validateComponent_ok.mp (all _ parent) with same | ⟨_, _, same⟩ <;> cases same
  · intro descends c member
    rw [validateComponent_ok]
    rcases mem_components relative member with rfl | named
    · exact .inl rfl
    · obtain ⟨piece, inside, found⟩ := List.mem_filterMap.mp named
      rcases component?_eq_some found with ⟨rfl, -⟩ | ⟨name, nonempty, -, rfl⟩
      · exact absurd inside descends
      · exact .inr ⟨name, nonempty, rfl⟩

theorem validateRelativePath_ok_iff {relativePath : String} :
    validateRelativePath relativePath = .ok () ↔ Acceptable relativePath := by
  have control : relativePath.toList.any isControl = false ↔
      ∀ c ∈ relativePath.toList, isControl c = false := by
    rw [List.any_eq_false]
    simp only [Bool.not_eq_true]
  have root : hasRoot relativePath = true ↔ relativePath.toList.head? = some '/' :=
    decide_eq_true_iff
  simp only [validateRelativePath, check_ok, not_or, Bool.not_eq_true, control, not_lt, root]
  constructor
  · rintro ⟨nonempty, short, -, printable, ⟨backslash, separator⟩, drive, rooted, rest⟩
    exact ⟨nonempty, short, printable, backslash, separator, drive,
      (validateComponents_ok (decide_eq_false rooted)).mp rest⟩
  · intro ok
    refine ⟨ok.nonempty, ok.short, ?_, ok.printable, ⟨ok.backslash, ok.separator⟩, ok.drive,
      ok.separator, (validateComponents_ok (decide_eq_false ok.separator)).mpr ok.descends⟩
    rw [Bool.eq_false_iff, Ne, List.contains_iff_mem]
    exact fun null => absurd (ok.printable _ null) (by decide)

/-! ## Where an accepted path leads -/

/-- A component that leaves the directory, a separator at the front, a control
character or a drive prefix. -/
def Unsafe (relativePath : String) : Prop :=
  .parentDir ∈ components relativePath ∨ relativePath.toList.head? = some '/' ∨
    relativePath.toList.head? = some '\\' ∨ (∃ c ∈ relativePath.toList, isControl c = true) ∨
    relativePath.toList[1]? = some ':'

/-- If the path is accepted, it leads strictly below any absolute directory that
it is joined to; if it is unsafe, it is not accepted. -/
structure LeadsBelow (relativePath : String) : Prop where
  below : validateRelativePath relativePath = .ok () → ∀ dir, hasRoot dir = true →
    ∃ names : List String, names ≠ [] ∧
      components (UnixPath.join dir relativePath) = components dir ++ names.map .normal
  rejected : Unsafe relativePath → validateRelativePath relativePath ≠ .ok ()

/-- A path of at most the allowed length that begins with a dot and consists of
separators and single dots. -/
def DotsAlone (relativePath : String) : Prop :=
  relativePath.toList.head? = some '.' ∧
    (∀ piece ∈ pieces relativePath, piece = [] ∨ piece = ['.']) ∧
    relativePath.utf8ByteSize ≤ maxRelPathBytes

section Paths

variable {relativePath : String}

theorem Acceptable.relative (ok : Acceptable relativePath) : hasRoot relativePath = false :=
  decide_eq_false ok.separator

theorem Unsafe.not_acceptable (risk : Unsafe relativePath) : ¬ Acceptable relativePath := by
  intro ok
  rcases risk with parent | separator | backslash | ⟨c, member, control⟩ | drive
  · have all := forM_ok.mp ((validateComponents_ok ok.relative).mpr ok.descends)
    rcases validateComponent_ok.mp (all _ parent) with same | ⟨_, _, same⟩ <;> cases same
  · exact ok.separator separator
  · exact ok.backslash backslash
  · rw [ok.printable c member] at control
    cases control
  · exact ok.drive drive

/-- The components that the pieces of an accepted path stand for are names. -/
theorem Acceptable.names (ok : Acceptable relativePath) :
    ∃ names : List String, (pieces relativePath).filterMap component? = names.map .normal := by
  have normal : ∀ c ∈ (pieces relativePath).filterMap component?, ∃ name, c = .normal name := by
    intro c member
    obtain ⟨piece, inside, found⟩ := List.mem_filterMap.mp member
    rcases component?_eq_some found with ⟨rfl, -⟩ | ⟨name, -, -, rfl⟩
    · exact absurd inside ok.descends
    · exact ⟨name, rfl⟩
  generalize (pieces relativePath).filterMap component? = named at normal
  induction named with
  | nil => exact ⟨[], rfl⟩
  | cons c named ih =>
      obtain ⟨name, rfl⟩ := normal c List.mem_cons_self
      obtain ⟨names, rfl⟩ := ih fun c later => normal c (.tail _ later)
      exact ⟨name :: names, rfl⟩

/-- A letter of a path of dots alone. -/
theorem DotsAlone.letter (dots : DotsAlone relativePath) {c : Char}
    (member : c ∈ relativePath.toList) : c = '/' ∨ c = '.' := by
  rcases UnixPath.mem_piece member with separator | ⟨piece, inside, found⟩
  · exact .inl separator
  · rcases dots.2.1 piece inside with rfl | rfl
    · cases found
    · exact .inr (List.mem_singleton.mp found)

theorem DotsAlone.acceptable (dots : DotsAlone relativePath) : Acceptable relativePath := by
  have head := dots.1
  refine ⟨?_, dots.2.2, fun c member => ?_, ?_, ?_, fun drive => ?_, fun descends => ?_⟩
  · rintro rfl
    cases head
  · rcases dots.letter member with rfl | rfl <;> decide
  · rw [head]
    decide
  · rw [head]
    decide
  · have colon := dots.letter (List.mem_of_getElem? drive)
    rcases colon with same | same <;> exact absurd same (by decide)
  · rcases dots.2.1 _ descends with same | same <;> cases same

theorem DotsAlone.unnamed (dots : DotsAlone relativePath) :
    (pieces relativePath).filterMap component? = [] := by
  refine List.filterMap_eq_nil_iff.mpr fun piece inside => ?_
  exact if_pos (dots.2.1 piece inside)

/-- An accepted path without a name is one of dots alone. -/
theorem Acceptable.dotsAlone (ok : Acceptable relativePath)
    (unnamed : (pieces relativePath).filterMap component? = []) : DotsAlone relativePath := by
  have blank : ∀ piece ∈ pieces relativePath, piece = [] ∨ piece = ['.'] := by
    intro piece inside
    have none := List.filterMap_eq_nil_iff.mp unnamed piece inside
    rw [component?] at none
    split at none
    case isTrue blank => exact blank
    case isFalse => split at none <;> cases none
  refine ⟨?_, blank, ok.short⟩
  cases letters : relativePath.toList with
  | nil => exact absurd (String.toList_eq_nil_iff.mp letters) ok.nonempty
  | cons c rest =>
      have member : c ∈ relativePath.toList := by
        rw [letters]
        exact List.mem_cons_self
      have head := ok.separator
      rw [letters] at head
      rcases UnixPath.mem_piece member with rfl | ⟨piece, inside, found⟩
      · exact absurd rfl head
      · rcases blank piece inside with rfl | rfl
        · cases found
        · rw [List.mem_singleton.mp found]
          rfl

end Paths

/-- A relative path leads below its destination, or is rejected, unless it is made
of dots alone. -/
theorem leadsBelow_iff (relativePath : String) :
    LeadsBelow relativePath ↔ ¬ DotsAlone relativePath := by
  have joined (relative : hasRoot relativePath = false) {dir : String}
      (rooted : hasRoot dir = true) :
      components (UnixPath.join dir relativePath) =
        components dir ++ (pieces relativePath).filterMap component? := by
    refine UnixPath.components_join_relative ?_ relative
    rintro rfl
    exact absurd rooted (by decide)
  constructor
  · intro leads dots
    obtain ⟨names, nonempty, added⟩ :=
      leads.below (validateRelativePath_ok_iff.mpr dots.acceptable) "/" (by decide)
    rw [joined dots.acceptable.relative (by decide), dots.unnamed] at added
    exact nonempty (List.map_eq_nil_iff.mp (List.append_cancel_left added).symm)
  · intro named
    refine ⟨fun accepted dir rooted => ?_, fun risk accepted => ?_⟩
    · have ok := validateRelativePath_ok_iff.mp accepted
      obtain ⟨names, same⟩ := ok.names
      refine ⟨names, fun empty => named (ok.dotsAlone ?_), ?_⟩
      · rw [same, empty]
        rfl
      · rw [joined ok.relative rooted, same]
    · exact risk.not_acceptable (validateRelativePath_ok_iff.mp accepted)

/-- The current directory is accepted, and is no place below the destination. -/
theorem currentDir_not_leadsBelow : ¬ LeadsBelow "." := by
  intro leads
  have accepted : validateRelativePath "." = .ok () := by decide
  obtain ⟨names, nonempty, added⟩ := leads.below accepted "/d" (by decide)
  have same : components (UnixPath.join "/d" ".") = components "/d" := by decide
  rw [same] at added
  exact nonempty (List.map_eq_nil_iff.mp (List.self_eq_append_right.mp added))

end Qubox.FileSync
