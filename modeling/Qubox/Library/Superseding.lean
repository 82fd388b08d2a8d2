import Mathlib.Data.List.Basic

/-!
# Superseded events

A sequence is thinned by dropping elements that the next one supersedes. What is left ends with
the last element, and has the last element of every kind, if elements supersede only those of
their own kind.
-/

/-- What is left when elements are dropped that the next one supersedes. -/
inductive Superseding {α : Type*} (supersedes : α → α → Prop) : List α → List α → Prop where
  | nil : Superseding supersedes [] []
  | keep {a events kept} : Superseding supersedes events kept →
      Superseding supersedes (a :: events) (a :: kept)
  | drop {a b events kept} : supersedes a b → Superseding supersedes (b :: events) kept →
      Superseding supersedes (a :: b :: events) kept

namespace Superseding

variable {α : Type*} {supersedes : α → α → Prop} {events kept : List α} {a b : α}

theorem concat (thinned : Superseding supersedes events kept) (a : α) :
    Superseding supersedes (events ++ [a]) (kept ++ [a]) := by
  induction thinned with
  | nil => exact .keep .nil
  | keep _ ih => exact .keep ih
  | drop next _ ih => exact .drop next ih

/-- Something is always left. -/
theorem eq_nil (thinned : Superseding supersedes events kept) (nothing : kept = []) :
    events = [] := by
  induction thinned with
  | nil => rfl
  | keep _ _ => cases nothing
  | drop _ _ ih => exact absurd (ih nothing) (List.cons_ne_nil _ _)

/-- The last element is left, and gives way to the next one. -/
theorem give_way (thinned : Superseding supersedes events (kept ++ [a])) (next : supersedes a b) :
    Superseding supersedes (events ++ [b]) (kept ++ [b]) := by
  generalize left : kept ++ [a] = all at thinned
  induction thinned generalizing kept with
  | nil => exact absurd left (List.append_ne_nil_of_right_ne_nil _ (List.cons_ne_nil _ _))
  | keep rest ih =>
      cases kept with
      | nil =>
          obtain ⟨rfl, rfl⟩ := List.cons.inj left
          rw [rest.eq_nil rfl]
          exact .drop next (.keep .nil)
      | cons first kept =>
          obtain ⟨rfl, others⟩ := List.cons.inj left
          exact .keep (ih others)
  | drop first _ ih => exact .drop first (ih left)

/-- What comes first is left, or gives way to what is left first. -/
theorem exists_head (chain : ∀ a b c, supersedes a b → supersedes b c → supersedes a c)
    (thinned : Superseding supersedes events (b :: kept)) :
    ∃ a rest, events = a :: rest ∧ (a = b ∨ supersedes a b) := by
  generalize left : b :: kept = all at thinned
  induction thinned with
  | nil => cases left
  | keep _ _ =>
      obtain ⟨rfl, -⟩ := List.cons.inj left
      exact ⟨_, _, rfl, .inl rfl⟩
  | @drop first second _ _ next _ ih =>
      obtain ⟨a, rest, same, first_of⟩ := ih left
      obtain ⟨rfl, rfl⟩ := List.cons.inj same
      refine ⟨first, _, rfl, .inr ?_⟩
      cases first_of with
      | inl same => rwa [← same]
      | inr later => exact chain _ _ _ next later

/-- Thinning what was thinned is thinning, if all that gives way to an element gives way to
each other. -/
theorem trans {left : List α}
    (chain : ∀ a b c, supersedes a b → supersedes b c → supersedes a c)
    (joins : ∀ a b c, supersedes a c → supersedes b c → supersedes a b)
    (first : Superseding supersedes events kept) (second : Superseding supersedes kept left) :
    Superseding supersedes events left := by
  induction first generalizing left with
  | nil => exact second
  | @keep a events kept rest ih =>
      cases second with
      | keep others => exact .keep (ih others)
      | @drop _ b _ _ next others =>
          obtain ⟨c, tail, rfl, first_of⟩ := exists_head chain rest
          refine .drop ?_ (ih others)
          cases first_of with
          | inl same => rwa [same]
          | inr later => exact joins _ _ _ next later
  | drop next _ ih => exact .drop next (ih second)

/-- Thinning commutes with leaving out whole kinds. -/
theorem filter {p : α → Bool} (kinds : ∀ a b, supersedes a b → p a = p b)
    (thinned : Superseding supersedes events kept) :
    Superseding supersedes (events.filter p) (kept.filter p) := by
  induction thinned with
  | nil => exact .nil
  | @keep a events kept _ ih =>
      by_cases kind : p a
      case pos =>
        rw [List.filter_cons_of_pos kind, List.filter_cons_of_pos kind]
        exact .keep ih
      case neg => rwa [List.filter_cons_of_neg kind, List.filter_cons_of_neg kind]
  | @drop a b events kept next _ ih =>
      by_cases kind : p a
      case pos =>
        have same : p b = true := (kinds _ _ next).symm.trans kind
        rw [List.filter_cons_of_pos same] at ih
        rw [List.filter_cons_of_pos kind, List.filter_cons_of_pos same]
        exact .drop next ih
      case neg => rwa [List.filter_cons_of_neg kind]

/-- What overwrites what it supersedes ends where the thinned sequence ends. -/
theorem foldl_eq {σ : Type*} {effect : σ → α → σ}
    (absorbs : ∀ a b, supersedes a b → ∀ s, effect (effect s a) b = effect s b)
    (thinned : Superseding supersedes events kept) (s : σ) :
    events.foldl effect s = kept.foldl effect s := by
  induction thinned generalizing s with
  | nil => rfl
  | keep _ ih => exact ih _
  | drop next _ ih =>
      have later := ih s
      rw [List.foldl_cons] at later
      rw [List.foldl_cons, List.foldl_cons, absorbs _ _ next]
      exact later

theorem sublist (thinned : Superseding supersedes events kept) : kept.Sublist events := by
  induction thinned with
  | nil => exact .slnil
  | keep _ ih => exact ih.cons_cons _
  | drop _ _ ih => exact ih.cons _

/-- The last element of a kind is left. -/
theorem getLast_filter {p : α → Bool} (kinds : ∀ a b, supersedes a b → p a = p b)
    (thinned : Superseding supersedes events kept) :
    (events.filter p).getLast? = (kept.filter p).getLast? := by
  induction thinned with
  | nil => rfl
  | @keep a events kept _ ih =>
      by_cases kind : p a
      · rw [List.filter_cons_of_pos kind, List.filter_cons_of_pos kind, List.getLast?_cons,
          List.getLast?_cons, ih]
      · rw [List.filter_cons_of_neg kind, List.filter_cons_of_neg kind, ih]
  | @drop a b events kept next _ ih =>
      rw [← ih]
      by_cases kind : p a
      · have same : p b = true := (kinds a b next).symm.trans kind
        rw [List.filter_cons_of_pos kind, List.filter_cons_of_pos same, List.getLast?_cons_cons]
      · rw [List.filter_cons_of_neg kind]

end Superseding
