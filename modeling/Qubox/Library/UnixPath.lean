import Mathlib.Data.List.Basic

/-!
# Paths under Unix rules

A path is its text. Its components are read off the text as the standard path
library of the modelled program does: separators may repeat, a dot is dropped
unless the path starts with it, and two dots are kept because the parent of a
symbolic link is not known from the text.
-/

namespace UnixPath

inductive Component where
  | rootDir
  | curDir
  | parentDir
  | normal (name : String)
  deriving DecidableEq

/-- The component written between two separators, if it denotes one. -/
def component? (piece : List Char) : Option Component :=
  if piece = [] ∨ piece = ['.'] then none
  else if piece = ['.', '.'] then some .parentDir
  else some (.normal (String.ofList piece))

def hasRoot (path : String) : Bool := path.toList.head? = some '/'

def components (path : String) : List Component :=
  let pieces := path.toList.splitOn '/'
  let named := pieces.filterMap component?
  if hasRoot path then .rootDir :: named
  else if pieces.head? = some ['.'] then .curDir :: named
  else named

def Component.text : Component → String
  | .rootDir => ""
  | .curDir => "."
  | .parentDir => ".."
  | .normal name => name

/-- A path with the given components. -/
def render : List Component → String
  | [.rootDir] => "/"
  | path => "/".intercalate (path.map Component.text)

/-- The paths above one whose components are listed last first. -/
def above : List Component → List String
  | [] => []
  | .rootDir :: _ => []
  | _ :: rest => render rest.reverse :: above rest

/-- `Path::parent`. -/
def parent (path : String) : Option String := (above (components path).reverse).head?

/-- `Path::ancestors`: the path itself and then each parent. -/
def ancestors (path : String) : List String := path :: above (components path).reverse

/-- `Path::join`. -/
def join (base path : String) : String :=
  if hasRoot path then path
  else if base = "" ∨ base.toList.getLast? = some '/' then base ++ path
  else base ++ "/" ++ path

/-- `Path::starts_with`, which compares whole components. -/
def startsWith (path base : String) : Bool := (components base).isPrefixOf (components path)

/-- `Path::file_name`. -/
def fileName (path : String) : Option String :=
  match (components path).getLast? with
  | some (.normal name) => some name
  | _ => none

/-- The parts of a file name before and after its last dot. A dot at the front
does not count. -/
def splitAtDot (name : String) : String × Option String :=
  let reversed := name.toList.reverse
  let after := reversed.takeWhile (· ≠ '.')
  match reversed.dropWhile (· ≠ '.') with
  | _ :: before@(_ :: _) => (String.ofList before.reverse, some (String.ofList after.reverse))
  | _ => (name, none)

/-- `Path::extension`. -/
def extension (path : String) : Option String :=
  (fileName path).bind fun name => (splitAtDot name).2

/-- `Path::with_extension`. -/
def withExtension (path ext : String) : String :=
  match fileName path with
  | none => path
  | some name =>
      let stem := (splitAtDot name).1
      let renamed := if ext = "" then stem else stem ++ "." ++ ext
      render ((components path).dropLast ++ [.normal renamed])

/-! ## Entries of a directory -/

/-- A name as a directory lists it. -/
structure EntryName where
  text : String
  separatorFree : '/' ∉ text.toList
  named : text ≠ "" ∧ text ≠ "." ∧ text ≠ ".."

theorem component?_entry (entry : EntryName) :
    component? entry.text.toList = some (.normal entry.text) := by
  have empty : entry.text.toList ≠ [] := fun h => entry.named.1 (String.toList_eq_nil_iff.mp h)
  have dot : entry.text.toList ≠ ['.'] := fun h => entry.named.2.1 (String.toList_inj.mp h)
  have dots : entry.text.toList ≠ ['.', '.'] := fun h => entry.named.2.2 (String.toList_inj.mp h)
  rw [component?, if_neg (not_or.mpr ⟨empty, dot⟩), if_neg dots, String.ofList_toList]

theorem splitOn_entry (entry : EntryName) :
    entry.text.toList.splitOn '/' = [entry.text.toList] :=
  List.splitOn_eq_singleton entry.separatorFree

theorem hasRoot_entry (entry : EntryName) : hasRoot entry.text = false := by
  refine decide_eq_false fun rooted => entry.separatorFree ?_
  exact List.mem_of_mem_head? rooted

/-- The components of a text whose pieces are those of the base, up to a piece that
denotes no component, and some more. -/
theorem components_of_pieces {base path : String} {front back : List (List Char)}
    (pieces : path.toList.splitOn '/' = front ++ back)
    (head : front.head? = (base.toList.splitOn '/').head?) (some : front ≠ [])
    (named : front.filterMap component? = (base.toList.splitOn '/').filterMap component?)
    (root : hasRoot path = hasRoot base) :
    components path = components base ++ back.filterMap component? := by
  have first : (front ++ back).head? = (base.toList.splitOn '/').head? := by
    rw [List.head?_append_of_ne_nil _ some, head]
  rw [components, components, pieces, root, first, List.filterMap_append, named]
  split
  · rfl
  · split <;> rfl

theorem hasRoot_append {base : String} (nonempty : base ≠ "") (rest : String) :
    hasRoot (base ++ rest) = hasRoot base := by
  have letters : base.toList ≠ [] := fun none => nonempty (String.toList_eq_nil_iff.mp none)
  rw [hasRoot, hasRoot, String.toList_append, List.head?_append_of_ne_nil _ letters]

/-- A relative path, joined to a path that is not empty, adds its components to it. -/
theorem components_join_relative {base path : String} (nonempty : base ≠ "")
    (relative : hasRoot path = false) :
    components (join base path) =
      components base ++ (path.toList.splitOn '/').filterMap component? := by
  rw [join, relative, if_neg Bool.false_ne_true]
  split
  case isTrue ended =>
    obtain ⟨front, shape⟩ := List.getLast?_eq_some_iff.mp (ended.resolve_left nonempty)
    have pieces : (base ++ path).toList.splitOn '/' =
        front.splitOn '/' ++ path.toList.splitOn '/' := by
      rw [String.toList_append, shape, List.append_assoc, List.singleton_append,
        List.splitOn_append_cons_self]
    refine components_of_pieces pieces ?_ (List.splitOn_ne_nil _ _) ?_ (hasRoot_append nonempty _)
    · rw [shape, List.splitOn_append_cons_self,
        List.head?_append_of_ne_nil _ (List.splitOn_ne_nil _ _)]
    · rw [shape, List.splitOn_append_cons_self, List.filterMap_append]
      simp [component?]
  case isFalse =>
    refine components_of_pieces ?_ rfl (List.splitOn_ne_nil _ _) rfl ?_
    · rw [String.append_assoc, String.toList_append, String.toList_append]
      have slash : "/".toList ++ path.toList = '/' :: path.toList := rfl
      rw [slash, List.splitOn_append_cons_self]
    · rw [String.append_assoc, hasRoot_append nonempty]

/-- An entry lies one component below its directory. -/
theorem components_join (base : String) (entry : EntryName) :
    components (join base entry.text) = components base ++ [.normal entry.text] := by
  have named : (entry.text.toList.splitOn '/').filterMap component? = [.normal entry.text] := by
    rw [splitOn_entry, List.filterMap_cons_some (component?_entry entry), List.filterMap_nil]
  by_cases empty : base = ""
  · subst empty
    rw [join, hasRoot_entry, if_neg Bool.false_ne_true, if_pos (.inl rfl), String.empty_append,
      components, splitOn_entry, hasRoot_entry]
    have dot : entry.text.toList ≠ ['.'] := fun h => entry.named.2.1 (String.toList_inj.mp h)
    rw [splitOn_entry] at named
    simp only [named, List.head?_cons, Option.some.injEq, if_neg dot, if_neg Bool.false_ne_true]
    have nothing : components "" = [] := by decide
    rw [nothing, List.nil_append]
  · rw [components_join_relative empty (hasRoot_entry entry), named]

/-- A letter of a path is a separator or stands in one of its pieces. -/
theorem mem_piece {letters : List Char} {c : Char} (member : c ∈ letters) :
    c = '/' ∨ ∃ piece ∈ letters.splitOn '/', c ∈ piece := by
  have joined : ['/'].intercalate (letters.splitOn '/') = letters := List.intercalate_splitOn '/'
  rw [← joined] at member
  generalize letters.splitOn '/' = pieces at member
  induction pieces with
  | nil => cases member
  | cons piece pieces ih =>
      cases pieces with
      | nil =>
          rw [List.intercalate_singleton] at member
          exact .inr ⟨piece, List.mem_cons_self, member⟩
      | cons next pieces =>
          rw [List.intercalate_cons_cons] at member
          rcases List.mem_append.mp member with front | rest
          · rcases List.mem_append.mp front with here | separator
            · exact .inr ⟨piece, List.mem_cons_self, here⟩
            · exact .inl (List.mem_singleton.mp separator)
          · rcases ih rest with separator | ⟨later, inside, found⟩
            · exact .inl separator
            · exact .inr ⟨later, .tail _ inside, found⟩

/-! ## Reading back what was rendered -/

/-- The component is the one that its own text denotes. -/
def Component.Written (component : Component) : Prop :=
  '/' ∉ component.text.toList ∧ component? component.text.toList = some component

theorem separator_not_mem {letters piece : List Char} (member : piece ∈ letters.splitOn '/') :
    '/' ∉ piece := by
  induction letters generalizing piece with
  | nil =>
      rw [List.splitOn_nil, List.mem_singleton] at member
      rw [member]
      exact List.not_mem_nil
  | cons letter letters ih =>
      rw [List.splitOn_cons_eq_if_modifyHead] at member
      split at member
      case isTrue =>
        rcases List.mem_cons.mp member with rfl | later
        · exact List.not_mem_nil
        · exact ih later
      case isFalse other =>
        cases pieces : letters.splitOn '/' with
        | nil => exact absurd pieces (List.splitOn_ne_nil _ _)
        | cons first rest =>
            rw [pieces] at member
            rcases List.mem_cons.mp member with rfl | later
            · intro found
              rcases List.mem_cons.mp found with same | found
              · exact other (beq_iff_eq.mpr same.symm)
              · exact ih (pieces ▸ List.mem_cons_self) found
            · exact ih (pieces ▸ List.mem_cons_of_mem _ later)

theorem written_of_piece {letters piece : List Char} {component : Component}
    (member : piece ∈ letters.splitOn '/') (denotes : component? piece = some component) :
    component.Written := by
  have text : component.text.toList = piece := by
    rw [component?] at denotes
    split at denotes
    case isTrue => cases denotes
    case isFalse =>
      split at denotes
      case isTrue dots =>
        cases denotes
        exact dots.symm
      case isFalse =>
        cases denotes
        exact String.toList_ofList
  rw [Component.Written, text]
  exact ⟨separator_not_mem member, denotes⟩

theorem filterMap_text {names : List Component} (written : ∀ name ∈ names, name.Written) :
    (names.map fun name => name.text.toList).filterMap component? = names := by
  induction names with
  | nil => rfl
  | cons name names ih =>
      obtain ⟨here, later⟩ := List.forall_mem_cons.mp written
      rw [List.map_cons, List.filterMap_cons_some here.2, ih later]

/-- What is rendered from components that are written as such reads back the same. -/
theorem components_render {names : List Component} (written : ∀ name ∈ names, name.Written) :
    components (render (.rootDir :: names)) = .rootDir :: names := by
  cases names with
  | nil => decide
  | cons first rest =>
      have letters : (render (.rootDir :: first :: rest)).toList =
          ['/'].intercalate ([] :: (first :: rest).map fun name => name.text.toList) := by
        rw [render, String.toList_intercalate, List.map_map]
        · rfl
        · exact fun single => List.cons_ne_nil _ _ (List.cons.inj single).2
      have root : hasRoot (render (.rootDir :: first :: rest)) = true := by
        rw [hasRoot, letters, List.map_cons, List.intercalate_cons_cons]
        rfl
      have pieces : (render (.rootDir :: first :: rest)).toList.splitOn '/' =
          [] :: (first :: rest).map fun name => name.text.toList := by
        rw [letters]
        refine List.splitOn_intercalate _ ?_ (List.cons_ne_nil _ _)
        intro piece member
        rcases List.mem_cons.mp member with rfl | named
        · exact List.not_mem_nil
        · obtain ⟨name, among, rfl⟩ := List.mem_map.mp named
          exact (written name among).1
      have nothing : component? [] = none := rfl
      rw [components, root, if_pos rfl, pieces, List.filterMap_cons_none nothing,
        filterMap_text written]

/-- A path that starts at the root, as its components. -/
theorem components_rooted {path : String} (root : hasRoot path = true) :
    ∃ names, components path = .rootDir :: names ∧ ∀ name ∈ names, name.Written := by
  refine ⟨(path.toList.splitOn '/').filterMap component?, ?_, ?_⟩
  · rw [components, root, if_pos rfl]
  · intro name member
    obtain ⟨piece, among, denotes⟩ := List.mem_filterMap.mp member
    exact written_of_piece among denotes

example : components "./a//b/./../c/" =
    [.curDir, .normal "a", .normal "b", .parentDir, .normal "c"] := by decide

example : ancestors "/d/a/b" = ["/d/a/b", "/d/a", "/d", "/"] := by decide

example : withExtension "/usr/bin/qubox" "prev" = "/usr/bin/qubox.prev" := by decide

end UnixPath
