import Mathlib.Data.List.Basic

/-!
# Partial steps

A step function that says where a step is possible, its runs, and the runs whose every step
meets a condition on the state before it.
-/

namespace Stepping

variable {S A : Type*} (step : S → A → Option S) (ok : S → A → Prop)

def run (s : S) : List A → Option S
  | [] => some s
  | a :: rest => (step s a).bind fun t => run t rest

/-- Every step of a run that gets that far meets the condition. -/
def Meets (s : S) : List A → Prop
  | [] => True
  | a :: rest => ok s a ∧ ∀ t, step s a = some t → Meets t rest

variable {step ok}

@[simp] theorem run_nil (s : S) : run step s [] = some s := rfl

theorem run_cons (s : S) (a : A) (rest : List A) :
    run step s (a :: rest) = (step s a).bind fun t => run step t rest := rfl

instance decidableMeets [∀ s a, Decidable (ok s a)] :
    ∀ s steps, Decidable (Meets step ok s steps)
  | _, [] => .isTrue trivial
  | s, a :: rest =>
      match stepped : step s a with
      | none => decidable_of_iff (ok s a) ⟨fun holds => ⟨holds, fun t some => by
          rw [stepped] at some
          cases some⟩, And.left⟩
      | some t =>
          haveI := decidableMeets t rest
          decidable_of_iff (ok s a ∧ Meets step ok t rest) ⟨fun holds => ⟨holds.1, fun u some => by
            obtain rfl := Option.some.inj (stepped.symm.trans some)
            exact holds.2⟩, fun holds => ⟨holds.1, holds.2 t stepped⟩⟩

theorem Meets.cons {s t : S} {a : A} {rest : List A} (meets : ok s a) (stepped : step s a = some t)
    (later : Meets step ok t rest) : Meets step ok s (a :: rest) := by
  refine ⟨meets, fun other other_stepped => ?_⟩
  obtain rfl := Option.some.inj (stepped.symm.trans other_stepped)
  exact later

/-- What every step keeps holds at the end of a run. -/
theorem Meets.invariant {I : S → Prop}
    (keeps : ∀ {s t a}, I s → ok s a → step s a = some t → I t) {s last : S} {steps : List A}
    (start : I s) (meets : Meets step ok s steps) (ran : run step s steps = some last) :
    I last := by
  induction steps generalizing s with
  | nil =>
      obtain rfl := Option.some.inj ran
      exact start
  | cons a rest ih =>
      obtain ⟨t, stepped, ran⟩ := Option.bind_eq_some_iff.mp ran
      exact ih (keeps start meets.1 stepped) (meets.2 t stepped) ran

/-- A run has got through its first steps. -/
theorem run_before {s last : S} {first second : List A}
    (ran : run step s (first ++ second) = some last) : ∃ t, run step s first = some t := by
  induction first generalizing s with
  | nil => exact ⟨s, rfl⟩
  | cons a rest ih =>
      obtain ⟨t, stepped, ran⟩ := Option.bind_eq_some_iff.mp ran
      obtain ⟨u, ran⟩ := ih ran
      exact ⟨u, Option.bind_eq_some_iff.mpr ⟨t, stepped, ran⟩⟩

/-- What every step keeps, without a condition. -/
theorem run_invariant {I : S → Prop} (keeps : ∀ {s t a}, I s → step s a = some t → I t)
    {s last : S} {steps : List A} (start : I s) (ran : run step s steps = some last) : I last := by
  induction steps generalizing s with
  | nil =>
      obtain rfl := Option.some.inj ran
      exact start
  | cons a rest ih =>
      obtain ⟨t, stepped, ran⟩ := Option.bind_eq_some_iff.mp ran
      exact ih (keeps start stepped) ran

/-- The first steps of a run meet the condition. -/
theorem Meets.before {s : S} {first second : List A} (meets : Meets step ok s (first ++ second)) :
    Meets step ok s first := by
  induction first generalizing s with
  | nil => trivial
  | cons a rest ih => exact ⟨meets.1, fun t stepped => ih (meets.2 t stepped)⟩

/-- The later steps of a run meet the condition from where the first ones led. -/
theorem Meets.after {s t : S} {first second : List A}
    (meets : Meets step ok s (first ++ second)) (ran : run step s first = some t) :
    Meets step ok t second := by
  induction first generalizing s with
  | nil =>
      obtain rfl := Option.some.inj ran
      exact meets
  | cons a rest ih =>
      obtain ⟨u, stepped, ran⟩ := Option.bind_eq_some_iff.mp ran
      exact ih (meets.2 u stepped) ran

/-- A record to which every step adds what its action stands for. -/
theorem run_adds {E : Type*} {view : S → List E} {out : A → List E} {s last : S} {steps : List A}
    (ran : run step s steps = some last)
    (adds : ∀ {s t a}, step s a = some t → view t = view s ++ out a) :
    view last = view s ++ steps.flatMap out := by
  induction steps generalizing s with
  | nil =>
      obtain rfl := Option.some.inj ran
      simp
  | cons a rest ih =>
      obtain ⟨t, stepped, ran⟩ := Option.bind_eq_some_iff.mp ran
      rw [ih ran, adds stepped, List.flatMap_cons, List.append_assoc]

/-- A run is no longer than a measure that its steps lower. -/
theorem length_le {measure : S → Nat} {steps : List A}
    (lowers : ∀ {s t a}, a ∈ steps → step s a = some t → measure t < measure s) {s last : S}
    (ran : run step s steps = some last) : steps.length ≤ measure s := by
  induction steps generalizing s with
  | nil => exact Nat.zero_le _
  | cons a rest ih =>
      obtain ⟨t, stepped, ran⟩ := Option.bind_eq_some_iff.mp ran
      have less := lowers (.head _) stepped
      have later := ih (fun member => lowers (.tail _ member)) ran
      rw [List.length_cons]
      omega

/-- What lowers a measure comes to rest. -/
theorem exists_rest {measure : S → Nat} {a : A}
    (lowers : ∀ {s t}, step s a = some t → measure t < measure s) (s : S) :
    ∃ n t, run step s (List.replicate n a) = some t ∧ step t a = none := by
  induction size : measure s using Nat.strongRecOn generalizing s with
  | ind size ih =>
      subst size
      cases stepped : step s a with
      | none => exact ⟨0, s, rfl, stepped⟩
      | some t =>
          obtain ⟨n, rest, ran, still⟩ := ih _ (lowers stepped) t rfl
          refine ⟨n + 1, rest, ?_, still⟩
          rw [List.replicate_succ, run_cons, stepped]
          exact ran

end Stepping
