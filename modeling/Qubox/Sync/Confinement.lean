import Qubox.Library.UnixTree

/-!
# Paths within roots

`path_within_roots` resolves a path and asks whether it came out below a root. A
path that does not resolve is judged by the nearest path above it that does, and
the steps that were left out are not looked at. They may lead out of the root
again, through `..` or through a link whose target is not there.
-/

namespace Qubox.Sync

open UnixPath (Component components hasRoot above render)
open UnixTree (Tree Location steps trailing)

/-- The directory tree, the working directory and how many links are followed. -/
structure Resolver where
  tree : Tree
  current : Location
  links : Nat

namespace Resolver

variable (resolver : Resolver)

/-- Where the resolution of a path starts. -/
def start (path : String) : Location := if hasRoot path then [] else resolver.current

def canonicalize (path : String) : Option Location :=
  if path = "" then none
  else resolver.tree.walk false resolver.links (resolver.start path) (steps path)

/-- `starts_with` of canonical paths. -/
def startsWith (place root : Location) : Bool := root.isPrefixOf place

def withinRoots (roots : List String) (place : Location) : Bool :=
  roots.any fun r => ((resolver.canonicalize r).map (startsWith place)).getD false

/-- The loop over the parents of a path that does not resolve. -/
def judgeParents (roots : List String) : List String → Bool
  | [] => false
  | parent :: rest =>
      if parent = "" then false
      else
        match resolver.canonicalize parent with
        | some c =>
            roots.any fun r =>
              ((resolver.canonicalize r).map fun rc => startsWith c rc || c == rc).getD false
        | none => judgeParents roots rest

def pathWithinRoots (path : String) (roots : List String) : Bool :=
  match resolver.canonicalize path with
  | some canon => resolver.withinRoots roots canon
  | none =>
      if !hasRoot path then false
      else resolver.judgeParents roots (above (components path).reverse)

/-! ## What it is for -/

/-- The path leads to this place once its missing directories are made. -/
def LeadsTo (path : String) (place : Location) : Prop :=
  resolver.tree.Resolves true (resolver.start path) (steps path) place

def Inside (roots : List String) (place : Location) : Prop :=
  ∃ root ∈ roots, ∃ top, resolver.canonicalize root = some top ∧ top <+: place

/-- If the path is taken to lie within the roots, that is where it leads. -/
def Confined (path : String) (roots : List String) : Prop :=
  resolver.pathWithinRoots path roots = true →
    ∀ place, resolver.LeadsTo path place → resolver.Inside roots place

/-- From the components of a path, last first, the nearest path above it that
resolves, and the steps that lead on from there. -/
def nearestFrom : List Component → List Component → Option (Location × List Component)
  | [], _ => none
  | .rootDir :: _, _ => none
  | step :: rest, skipped =>
      match resolver.canonicalize (render rest.reverse) with
      | some c => some (c, step :: skipped)
      | none => nearestFrom rest (step :: skipped)

def nearest (path : String) : Option (Location × List Component) :=
  resolver.nearestFrom (components path).reverse (trailing path)

/-- From here the steps come to an end, and pass no place within the roots. -/
structure StaysOut (roots : List String) (here : Location × List Component) : Prop where
  outside : ∀ passed, Relation.ReflTransGen (resolver.tree.Moves true) here passed →
    ¬ resolver.Inside roots passed.1
  ends : ∃ place, Relation.ReflTransGen (resolver.tree.Moves true) here (place, [])

/-- On the way of the steps, a `..` or the start of an absolute link goes from a place
within the roots to one outside them, and nothing after it leads back. -/
def LeadsAway (roots : List String) (start : Location × List Component) : Prop :=
  ∃ within step rest outside, resolver.Inside roots within ∧
    Relation.ReflTransGen (resolver.tree.Moves true) start (within, step :: rest) ∧
    (step = .parentDir ∨ step = .rootDir) ∧
    resolver.tree.Moves true (within, step :: rest) (outside, rest) ∧
    resolver.StaysOut roots (outside, rest)

/-- The steps left out do not lead away from the roots. -/
def SafelySkipped (path : String) (roots : List String) : Prop :=
  ∀ location skipped, resolver.nearest path = some (location, skipped) →
    resolver.Inside roots location → ¬ resolver.LeadsAway roots (location, skipped)

section Laws

variable {resolver} {path : String} {roots : List String} {place : Location}

theorem startsWith_iff {root : Location} : startsWith place root = true ↔ root <+: place :=
  List.isPrefixOf_iff_prefix

theorem withinRoots_iff :
    resolver.withinRoots roots place = true ↔ resolver.Inside roots place := by
  rw [withinRoots, List.any_eq_true]
  refine exists_congr fun root => and_congr_right fun _ => ?_
  cases resolver.canonicalize root with
  | none => simp
  | some top => simp [startsWith_iff]

theorem canonicalize_sound (found : resolver.canonicalize path = some place) :
    resolver.tree.Resolves false (resolver.start path) (steps path) place := by
  rw [canonicalize] at found
  split at found
  case isTrue => cases found
  case isFalse => exact Tree.resolves_of_walk found

/-- A place that a path resolves to is the only one that it leads to. -/
theorem leadsTo_of_canonicalize {other : Location} (found : resolver.canonicalize path = some place)
    (leads : resolver.LeadsTo path other) : other = place :=
  leads.unique (canonicalize_sound found).made

theorem trailing_cases (path : String) : trailing path = [] ∨ trailing path = [.curDir] := by
  rw [trailing]
  split
  · exact .inr rfl
  · exact .inr rfl
  · exact .inl rfl

/-- A rooted path that resolves is resolved along its components. -/
theorem resolves_components {names : List Component}
    (read : components path = .rootDir :: names) (found : resolver.canonicalize path = some place) :
    resolver.tree.Resolves false [] (.rootDir :: names) place := by
  have resolves := canonicalize_sound found
  rw [steps, read] at resolves
  have rooted : resolver.tree.Resolves false (resolver.start path) (.rootDir :: names) place := by
    rcases trailing_cases path with none | dot
    · rwa [none, List.append_nil] at resolves
    · rw [dot] at resolves
      exact resolves.dropDot
  cases rooted with
  | root _ onward => exact .root (.inl resolver.tree.root) onward

/-- The second test of the loop adds nothing to the first. -/
theorem judge_iff :
    (roots.any fun r =>
      ((resolver.canonicalize r).map fun rc =>
        startsWith place rc || place == rc).getD false) = true ↔
    resolver.Inside roots place := by
  rw [List.any_eq_true]
  refine exists_congr fun root => and_congr_right fun _ => ?_
  cases resolver.canonicalize root with
  | none => simp
  | some top =>
      have same : place = top → top <+: place := fun same => same ▸ List.prefix_rfl
      simpa [startsWith_iff] using same

theorem not_rootDir_of_written {step : Component} (written : step.Written) : step ≠ .rootDir := by
  rintro rfl
  cases written.2

theorem render_rooted_ne_empty {names : List Component} (written : ∀ name ∈ names, name.Written) :
    render (.rootDir :: names) ≠ "" := by
  intro empty
  have nothing : components "" = [] := by decide +kernel
  have read := UnixPath.components_render written
  rw [empty, nothing] at read
  cases read

theorem above_cons {step : Component} (written : step.Written) (rest : List Component) :
    above (step :: rest) = render rest.reverse :: above rest := by
  cases step with
  | rootDir => exact absurd rfl (not_rootDir_of_written written)
  | curDir | parentDir | normal name => rfl

theorem nearestFrom_cons {step : Component} (written : step.Written)
    (rest skipped : List Component) :
    resolver.nearestFrom (step :: rest) skipped =
      match resolver.canonicalize (render rest.reverse) with
      | some c => some (c, step :: skipped)
      | none => resolver.nearestFrom rest (step :: skipped) := by
  cases step with
  | rootDir => exact absurd rfl (not_rootDir_of_written written)
  | curDir | parentDir | normal name => rfl

/-- The loop judges the nearest path above that resolves. -/
theorem judgeParents_iff {back skipped : List Component}
    (written : ∀ name ∈ back, name.Written) :
    resolver.judgeParents roots (above (back ++ [.rootDir])) = true ↔
      ∃ location rest, resolver.nearestFrom (back ++ [.rootDir]) skipped = some (location, rest) ∧
        resolver.Inside roots location := by
  induction back generalizing skipped with
  | nil => simp [above, nearestFrom, judgeParents]
  | cons step back ih =>
      obtain ⟨here, later⟩ := List.forall_mem_cons.mp written
      have nonempty : render (back ++ [Component.rootDir]).reverse ≠ "" := by
        rw [List.reverse_append, List.reverse_singleton, List.singleton_append]
        exact render_rooted_ne_empty fun name among => later name (List.mem_reverse.mp among)
      rw [List.cons_append, above_cons here, nearestFrom_cons here, judgeParents, if_neg nonempty]
      cases resolver.canonicalize (render (back ++ [Component.rootDir]).reverse) with
      | none => exact ih later
      | some c =>
          refine judge_iff.trans ⟨fun inside => ⟨c, _, rfl, inside⟩, ?_⟩
          rintro ⟨_, _, same, inside⟩
          cases same
          exact inside

/-- The nearest path above is a front of the path, and the steps that lead on are the
rest of it. -/
theorem nearestFrom_eq_some {back skipped rest : List Component} {location : Location}
    (written : ∀ name ∈ back, name.Written)
    (found : resolver.nearestFrom (back ++ [.rootDir]) skipped = some (location, rest)) :
    ∃ front, .rootDir :: back.reverse ++ skipped = .rootDir :: front ++ rest ∧
      resolver.tree.Resolves false [] (.rootDir :: front) location := by
  induction back generalizing skipped with
  | nil => cases found
  | cons step back ih =>
      obtain ⟨here, later⟩ := List.forall_mem_cons.mp written
      rw [List.cons_append, nearestFrom_cons here] at found
      have front : (back ++ [Component.rootDir]).reverse = .rootDir :: back.reverse := by
        rw [List.reverse_append, List.reverse_singleton, List.singleton_append]
      rw [front] at found
      cases resolved : resolver.canonicalize (render (.rootDir :: back.reverse)) with
      | none =>
          rw [resolved] at found
          obtain ⟨front, whole, resolves⟩ := ih later found
          refine ⟨front, ?_, resolves⟩
          rw [← whole, List.reverse_cons]
          simp
      | some c =>
          rw [resolved] at found
          cases found
          have read := UnixPath.components_render
            fun name among => later name (List.mem_reverse.mp among)
          refine ⟨back.reverse, ?_, resolves_components read resolved⟩
          rw [List.reverse_cons]
          simp

theorem pathWithinRoots_missing (root : hasRoot path = true)
    (missing : resolver.canonicalize path = none) :
    resolver.pathWithinRoots path roots = true ↔
      ∃ location rest, resolver.nearest path = some (location, rest) ∧
        resolver.Inside roots location := by
  obtain ⟨names, read, written⟩ := UnixPath.components_rooted root
  rw [pathWithinRoots, missing, root, nearest, read, List.reverse_cons]
  exact judgeParents_iff fun name among => written name (List.mem_reverse.mp among)

/-- The steps of a path are resolved up to the nearest path above, and from there. -/
theorem leadsTo_iff_of_nearest {location : Location} {skipped : List Component}
    (root : hasRoot path = true) (found : resolver.nearest path = some (location, skipped)) :
    resolver.LeadsTo path place ↔ resolver.tree.Resolves true location skipped place := by
  obtain ⟨names, read, written⟩ := UnixPath.components_rooted root
  rw [nearest, read, List.reverse_cons] at found
  obtain ⟨front, whole, resolves⟩ := nearestFrom_eq_some
    (fun name among => written name (List.mem_reverse.mp among)) found
  rw [List.reverse_reverse] at whole
  rw [LeadsTo, start, if_pos root, steps, read, whole]
  refine ⟨fun leads => ?_, resolves.made.append⟩
  obtain ⟨middle, before, after⟩ := UnixTree.Tree.resolves_append_iff.mp leads
  rwa [before.unique resolves.made] at after

theorem Inside.below {location : Location} (inside : resolver.Inside roots location)
    (below : location <+: place) : resolver.Inside roots place := by
  obtain ⟨root, among, top, found, above⟩ := inside
  exact ⟨root, among, top, found, above.trans below⟩

section Leaving

variable {start here next : Location × List Component}

theorem LeadsAway.outside (away : resolver.LeadsAway roots start) :
    ∃ place, resolver.tree.Resolves true start.1 start.2 place ∧
      ¬ resolver.Inside roots place := by
  obtain ⟨within, step, rest, outside, -, reached, -, moved, out⟩ := away
  obtain ⟨place, ends⟩ := out.ends
  exact ⟨place, Tree.resolves_iff_passes.mpr (reached.trans (.head moved ends)), out.outside _ ends⟩

/-- A step from within the roots to the outside goes up or to the root. -/
theorem leaves_by (moved : resolver.tree.Moves true here next)
    (inside : resolver.Inside roots here.1) (out : ¬ resolver.Inside roots next.1) :
    ∃ step, (step = .parentDir ∨ step = .rootDir) ∧ here.2 = step :: next.2 := by
  unfold Tree.Moves Tree.advance at moved
  split at moved
  case h_1 => cases moved
  case h_2 location step rest =>
    split at moved
    case isFalse => cases moved
    case isTrue =>
      cases step with
      | rootDir =>
          cases moved
          exact ⟨_, .inr rfl, rfl⟩
      | curDir =>
          cases moved
          exact absurd inside out
      | parentDir =>
          cases moved
          exact ⟨_, .inl rfl, rfl⟩
      | normal name =>
          have below := inside.below (List.prefix_append location [name])
          dsimp only at moved
          split at moved
          case h_1 =>
            cases moved
            exact absurd inside out
          case h_2 =>
            cases moved
            exact absurd below out
          case h_3 =>
            cases moved
            exact absurd below out

/-- Steps that end outside lead away, unless they are outside all along. -/
theorem leadsAway_or_staysOut
    (ends : Relation.ReflTransGen (resolver.tree.Moves true) start (place, []))
    (out : ¬ resolver.Inside roots place) :
    resolver.LeadsAway roots start ∨ resolver.StaysOut roots start := by
  induction ends using Relation.ReflTransGen.head_induction_on with
  | refl =>
      refine .inr ⟨fun passed passes => ?_, place, .refl⟩
      rcases passes.cases_head with rfl | ⟨_, moved, _⟩
      · exact out
      · cases moved
  | @head here next moved ends ih =>
      rcases ih with ⟨within, step, rest, outside, inside, reached, leaves⟩ | stays
      · exact .inl ⟨within, step, rest, outside, inside, .head moved reached, leaves⟩
      by_cases inside : resolver.Inside roots here.1
      · -- the step that was last within the roots
        obtain ⟨step, leaves, split⟩ := leaves_by moved inside (stays.outside next .refl)
        obtain ⟨within, path⟩ := here
        obtain ⟨outside, rest⟩ := next
        obtain rfl : path = step :: rest := split
        exact .inl ⟨within, step, rest, outside, inside, .refl, leaves, moved, stays⟩
      · refine .inr ⟨fun passed passes => ?_, place, .head moved ends⟩
        rcases passes.cases_head with rfl | ⟨other, same, passes⟩
        · exact inside
        · obtain rfl := Option.some.inj (moved.symm.trans same)
          exact stays.outside passed passes

end Leaving

/-- A path taken to lie within the roots leads there exactly if it resolves as it is, or
the steps left out do not lead away again. -/
theorem confined_iff : resolver.Confined path roots ↔
    (resolver.canonicalize path).isSome ∨ hasRoot path = false ∨
      resolver.SafelySkipped path roots := by
  cases resolved : resolver.canonicalize path with
  | some canon =>
      refine iff_of_true (fun accepted place leads => ?_) (.inl rfl)
      rw [pathWithinRoots, resolved] at accepted
      rw [leadsTo_of_canonicalize resolved leads]
      exact withinRoots_iff.mp accepted
  | none =>
      cases root : hasRoot path with
      | false =>
          refine iff_of_true (fun accepted => ?_) (.inr (.inl rfl))
          rw [pathWithinRoots, resolved, root] at accepted
          cases accepted
      | true =>
          rw [Confined, pathWithinRoots_missing root resolved]
          constructor
          · refine fun confined => .inr (.inr fun location skipped found inside away => ?_)
            obtain ⟨place, leads, out⟩ := away.outside
            exact out (confined ⟨location, skipped, found, inside⟩ place
              ((leadsTo_iff_of_nearest root found).mpr leads))
          · rintro safe ⟨location, skipped, found, inside⟩ place leads
            have safely : resolver.SafelySkipped path roots := by simpa using safe
            have onward := (leadsTo_iff_of_nearest root found).mp leads
            by_contra out
            rcases leadsAway_or_staysOut onward.passes out with away | stays
            · exact safely location skipped found inside away
            · exact stays.outside _ .refl inside

end Laws

end Resolver

namespace Sample

/-- A directory to be shared, beside one that is not. -/
def served : Resolver where
  tree :=
    { node := fun location =>
        if location ∈ [[], ["srv"], ["etc"]] then some .directory else none
      root := rfl
      parents := fun location name present => by
        have listed : location ++ [name] ∈ [[], ["srv"], ["etc"]] := by
          by_contra absent
          rw [if_neg absent] at present
          cases present
        have top : location = [] := by
          cases location with
          | nil => rfl
          | cons first rest => simp at listed
        rw [top]
        rfl }
  current := []
  links := 40

/-- A directory that is not there is left again, and with it the root. -/
theorem passwd_not_confined :
    ¬ served.Confined "/srv/new/../../etc/passwd" ["/srv"] := by
  intro confined
  have accepted : served.pathWithinRoots "/srv/new/../../etc/passwd" ["/srv"] = true := by
    decide +kernel
  have walked : served.tree.walk true 0 (served.start "/srv/new/../../etc/passwd")
      (steps "/srv/new/../../etc/passwd") = some ["etc", "passwd"] := by
    decide +kernel
  obtain ⟨root, among, top, found, below⟩ :=
    confined accepted _ (UnixTree.Tree.resolves_of_walk walked)
  rw [List.mem_singleton.mp among] at found
  have shared : served.canonicalize "/srv" = some ["srv"] := by decide +kernel
  rw [shared] at found
  cases found
  revert below
  decide

end Sample

end Qubox.Sync
