import Mathlib.Logic.Relation
import Qubox.Library.UnixPath

/-!
# Directory trees

A tree of directories, files and symbolic links, and what it means to resolve a
path in it: step by step, following links, with `..` going from a directory to
the one above it. A path may be resolved as the tree is, or with every missing
name taken for a directory that is made on the way.

`walk` is the resolution of an operating system, which gives up after a number of
links. `Resolves` is the same without the limit.
-/

namespace UnixTree

open UnixPath (Component components hasRoot)

/-- Names from the root. -/
abbrev Location := List String

inductive Node where
  | directory
  | file
  | link (target : String)
  deriving DecidableEq

structure Tree where
  node : Location → Option Node
  root : node [] = some .directory
  parents : ∀ location name, (node (location ++ [name])).isSome → node location = some .directory

/-- A separator or a dot at the end of a path asks for a directory. -/
def trailing (path : String) : List Component :=
  match (path.toList.splitOn '/').getLast? with
  | some [] => [.curDir]
  | some ['.'] => [.curDir]
  | _ => []

/-- What has to be gone through to resolve the path. -/
def steps (path : String) : List Component := components path ++ trailing path

namespace Tree

variable (tree : Tree)

/-- A step can be made from here. -/
def Opens (make : Bool) (location : Location) : Prop :=
  tree.node location = some .directory ∨ make = true ∧ tree.node location = none

instance (make : Bool) (location : Location) : Decidable (tree.Opens make location) :=
  inferInstanceAs (Decidable (_ ∨ _ ∧ _))

/-- Resolution of the steps, with `follow` for what comes after a link. -/
def walkWith (make : Bool) (follow : Location → List Component → Option Location) :
    Location → List Component → Option Location
  | location, [] => some location
  | location, step :: rest =>
      if tree.Opens make location then
        match step with
        | .rootDir => walkWith make follow [] rest
        | .curDir => walkWith make follow location rest
        | .parentDir => walkWith make follow location.dropLast rest
        | .normal name =>
            match tree.node (location ++ [name]) with
            | some (.link target) => follow location (steps target ++ rest)
            | some _ => walkWith make follow (location ++ [name]) rest
            | none => if make then walkWith make follow (location ++ [name]) rest else none
      else none

/-- Resolution through at most this many links. -/
def walk (make : Bool) : (links : Nat) → Location → List Component → Option Location
  | 0 => tree.walkWith make fun _ _ => none
  | links + 1 => tree.walkWith make (walk make links)

inductive Resolves (make : Bool) : Location → List Component → Location → Prop
  | done (location : Location) : Resolves make location [] location
  | root {location place : Location} {rest : List Component} (opens : tree.Opens make location)
      (onward : Resolves make [] rest place) : Resolves make location (.rootDir :: rest) place
  | stay {location place : Location} {rest : List Component} (opens : tree.Opens make location)
      (onward : Resolves make location rest place) : Resolves make location (.curDir :: rest) place
  | up {location place : Location} {rest : List Component} (opens : tree.Opens make location)
      (onward : Resolves make location.dropLast rest place) :
      Resolves make location (.parentDir :: rest) place
  | enter {location place : Location} {rest : List Component} {name : String} {node : Node}
      (opens : tree.Opens make location) (found : tree.node (location ++ [name]) = some node)
      (plain : ∀ target, node ≠ .link target)
      (onward : Resolves make (location ++ [name]) rest place) :
      Resolves make location (.normal name :: rest) place
  | create {location place : Location} {rest : List Component} {name : String}
      (opens : tree.Opens make location) (made : make = true)
      (missing : tree.node (location ++ [name]) = none)
      (onward : Resolves make (location ++ [name]) rest place) :
      Resolves make location (.normal name :: rest) place
  | follow {location place : Location} {rest : List Component} {name target : String}
      (opens : tree.Opens make location)
      (found : tree.node (location ++ [name]) = some (.link target))
      (onward : Resolves make location (steps target ++ rest) place) :
      Resolves make location (.normal name :: rest) place

/-- One step of a resolution: where it leads, and what is then left to do. -/
def advance (make : Bool) : Location × List Component → Option (Location × List Component)
  | (_, []) => none
  | (location, step :: rest) =>
      if tree.Opens make location then
        match step with
        | .rootDir => some ([], rest)
        | .curDir => some (location, rest)
        | .parentDir => some (location.dropLast, rest)
        | .normal name =>
            match tree.node (location ++ [name]) with
            | some (.link target) => some (location, steps target ++ rest)
            | some _ => some (location ++ [name], rest)
            | none => if make then some (location ++ [name], rest) else none
      else none

def Moves (make : Bool) (a b : Location × List Component) : Prop := tree.advance make a = some b

section Laws

variable {tree} {make : Bool} {location middle place : Location} {first second : List Component}

theorem resolves_of_walkWith {follow : Location → List Component → Option Location}
    (sound : ∀ location path place, follow location path = some place →
      tree.Resolves make location path place)
    (walked : tree.walkWith make follow location first = some place) :
    tree.Resolves make location first place := by
  induction first generalizing location with
  | nil =>
      cases walked
      exact .done _
  | cons step rest ih =>
      cases step with
      | rootDir =>
          rw [walkWith] at walked
          split at walked
          case isTrue opens => exact .root opens (ih walked)
          case isFalse => cases walked
      | curDir =>
          rw [walkWith] at walked
          split at walked
          case isTrue opens => exact .stay opens (ih walked)
          case isFalse => cases walked
      | parentDir =>
          rw [walkWith] at walked
          split at walked
          case isTrue opens => exact .up opens (ih walked)
          case isFalse => cases walked
      | normal name =>
          rw [walkWith] at walked
          split at walked
          case isFalse => cases walked
          case isTrue opens =>
            split at walked
            case h_1 target found => exact .follow opens found (sound _ _ _ walked)
            case h_2 node other found =>
              exact .enter opens found (fun target same => other target same) (ih walked)
            case h_3 missing =>
              split at walked
              case isTrue made => exact .create opens made missing (ih walked)
              case isFalse => cases walked

theorem resolves_of_walk {links : Nat} (walked : tree.walk make links location first = some place) :
    tree.Resolves make location first place := by
  induction links generalizing location first place with
  | zero => exact resolves_of_walkWith (fun _ _ _ none => by cases none) walked
  | succ links ih => exact resolves_of_walkWith (fun _ _ _ => ih) walked

theorem Opens.made (opens : tree.Opens make location) : tree.Opens true location :=
  opens.imp_right fun missing => ⟨rfl, missing.2⟩

/-- What resolves as it is resolves the same with missing names made. -/
theorem Resolves.made (resolves : tree.Resolves make location first place) :
    tree.Resolves true location first place := by
  induction resolves with
  | done location => exact .done location
  | root opens _ ih => exact .root opens.made ih
  | stay opens _ ih => exact .stay opens.made ih
  | up opens _ ih => exact .up opens.made ih
  | enter opens found plain _ ih => exact .enter opens.made found plain ih
  | create opens _ missing _ ih => exact .create opens.made rfl missing ih
  | follow opens found _ ih => exact .follow opens.made found ih

/-- A path resolves to one location at most. -/
theorem Resolves.unique {other : Location} (resolves : tree.Resolves make location first place)
    (again : tree.Resolves make location first other) : place = other := by
  induction resolves with
  | done location =>
      cases again
      rfl
  | root opens _ ih =>
      cases again with
      | root _ onward => exact ih onward
  | stay opens _ ih =>
      cases again with
      | stay _ onward => exact ih onward
  | up opens _ ih =>
      cases again with
      | up _ onward => exact ih onward
  | enter opens found plain _ ih =>
      cases again with
      | enter _ _ _ onward => exact ih onward
      | create _ _ missing _ => cases found.symm.trans missing
      | follow _ link _ => exact absurd (Option.some.inj (found.symm.trans link)) (plain _)
  | create opens made missing _ ih =>
      cases again with
      | enter _ found _ _ => cases missing.symm.trans found
      | create _ _ _ onward => exact ih onward
      | follow _ link _ => cases missing.symm.trans link
  | follow opens link _ ih =>
      cases again with
      | enter _ found plain _ => exact absurd (Option.some.inj (found.symm.trans link)) (plain _)
      | create _ _ missing _ => cases missing.symm.trans link
      | follow _ again onward =>
          obtain rfl := Node.link.inj (Option.some.inj (link.symm.trans again))
          exact ih onward

theorem Resolves.append (before : tree.Resolves make location first middle)
    (after : tree.Resolves make middle second place) :
    tree.Resolves make location (first ++ second) place := by
  induction before with
  | done location => exact after
  | root opens _ ih => exact .root opens (ih after)
  | stay opens _ ih => exact .stay opens (ih after)
  | up opens _ ih => exact .up opens (ih after)
  | enter opens found plain _ ih => exact .enter opens found plain (ih after)
  | create opens made missing _ ih => exact .create opens made missing (ih after)
  | follow opens found _ ih =>
      have onward := ih after
      rw [List.append_assoc] at onward
      exact .follow opens found onward

/-- A path is resolved by resolving a part of it and then the rest. -/
theorem resolves_append_iff : tree.Resolves make location (first ++ second) place ↔
    ∃ middle, tree.Resolves make location first middle ∧ tree.Resolves make middle second place := by
  refine ⟨fun resolves => ?_, fun ⟨_, before, after⟩ => before.append after⟩
  generalize whole : first ++ second = path at resolves
  induction resolves generalizing first with
  | done location =>
      obtain ⟨rfl, rfl⟩ := List.append_eq_nil_iff.mp whole
      exact ⟨location, .done _, .done _⟩
  | root opens onward ih =>
      rcases List.append_eq_cons_iff.mp whole with ⟨rfl, rfl⟩ | ⟨first, rfl, rfl⟩
      · exact ⟨_, .done _, .root opens onward⟩
      · obtain ⟨middle, before, after⟩ := ih rfl
        exact ⟨middle, .root opens before, after⟩
  | stay opens onward ih =>
      rcases List.append_eq_cons_iff.mp whole with ⟨rfl, rfl⟩ | ⟨first, rfl, rfl⟩
      · exact ⟨_, .done _, .stay opens onward⟩
      · obtain ⟨middle, before, after⟩ := ih rfl
        exact ⟨middle, .stay opens before, after⟩
  | up opens onward ih =>
      rcases List.append_eq_cons_iff.mp whole with ⟨rfl, rfl⟩ | ⟨first, rfl, rfl⟩
      · exact ⟨_, .done _, .up opens onward⟩
      · obtain ⟨middle, before, after⟩ := ih rfl
        exact ⟨middle, .up opens before, after⟩
  | enter opens found plain onward ih =>
      rcases List.append_eq_cons_iff.mp whole with ⟨rfl, rfl⟩ | ⟨first, rfl, rfl⟩
      · exact ⟨_, .done _, .enter opens found plain onward⟩
      · obtain ⟨middle, before, after⟩ := ih rfl
        exact ⟨middle, .enter opens found plain before, after⟩
  | create opens made missing onward ih =>
      rcases List.append_eq_cons_iff.mp whole with ⟨rfl, rfl⟩ | ⟨first, rfl, rfl⟩
      · exact ⟨_, .done _, .create opens made missing onward⟩
      · obtain ⟨middle, before, after⟩ := ih rfl
        exact ⟨middle, .create opens made missing before, after⟩
  | follow opens found onward ih =>
      rcases List.append_eq_cons_iff.mp whole with ⟨rfl, rfl⟩ | ⟨first, rfl, rfl⟩
      · exact ⟨_, .done _, .follow opens found onward⟩
      · obtain ⟨middle, before, after⟩ := ih (List.append_assoc ..)
        exact ⟨middle, .follow opens found before, after⟩

/-- To end on a dot changes nothing. -/
theorem Resolves.dropDot (resolves : tree.Resolves make location (first ++ [.curDir]) place) :
    tree.Resolves make location first place := by
  obtain ⟨middle, before, after⟩ := resolves_append_iff.mp resolves
  cases after with
  | stay _ onward =>
      cases onward
      exact before

theorem Resolves.passes (resolves : tree.Resolves make location first place) :
    Relation.ReflTransGen (tree.Moves make) (location, first) (place, []) := by
  induction resolves with
  | done location => exact .refl
  | root opens _ ih => exact .head (if_pos opens) ih
  | stay opens _ ih => exact .head (if_pos opens) ih
  | up opens _ ih => exact .head (if_pos opens) ih
  | @enter _ _ _ _ node opens found plain _ ih =>
      refine .head ((if_pos opens).trans ?_) ih
      cases node with
      | link target => exact absurd rfl (plain target)
      | directory | file => simp only [found]
  | create opens made missing _ ih =>
      refine .head ((if_pos opens).trans ?_) ih
      simp only [missing, if_pos made]
  | follow opens found _ ih =>
      refine .head ((if_pos opens).trans ?_) ih
      simp only [found]

theorem Resolves.of_moves {here next : Location × List Component}
    (moved : tree.Moves make here next) (onward : tree.Resolves make next.1 next.2 place) :
    tree.Resolves make here.1 here.2 place := by
  unfold Moves advance at moved
  split at moved
  case h_1 => cases moved
  case h_2 location step rest =>
    split at moved
    case isFalse => cases moved
    case isTrue opens =>
      cases step with
      | rootDir =>
          cases moved
          exact .root opens onward
      | curDir =>
          cases moved
          exact .stay opens onward
      | parentDir =>
          cases moved
          exact .up opens onward
      | normal name =>
          dsimp only at moved
          split at moved
          case h_1 target found =>
            cases moved
            exact .follow opens found onward
          case h_2 node other found =>
            cases moved
            exact .enter opens found (fun target same => other target same) onward
          case h_3 missing =>
            split at moved
            case isTrue made =>
              cases moved
              exact .create opens made missing onward
            case isFalse => cases moved

/-- Resolving is to make one step after the other until none is left. -/
theorem resolves_iff_passes {here : Location × List Component} :
    tree.Resolves make here.1 here.2 place ↔
      Relation.ReflTransGen (tree.Moves make) here (place, []) := by
  refine ⟨Resolves.passes, fun passes => ?_⟩
  induction passes using Relation.ReflTransGen.head_induction_on with
  | refl => exact .done place
  | head moved _ ih => exact ih.of_moves moved

end Laws

end Tree

end UnixTree
