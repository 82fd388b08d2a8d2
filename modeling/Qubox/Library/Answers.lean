import Mathlib.Data.List.Basic

/-!
# Answers that name a key

Somebody is shown who holds a key and answers with the key alone. The answer
travels, and whoever holds the key when it arrives gets what it grants. `Bound`
says that every answer on its way was made for the one who holds its key now. It
survives every step that takes holders or answers away, and a new holder or a
new answer that agrees with what is there.
-/

namespace Answers

variable {K O : Type*}

/-- The answers under the key were made for this holder. -/
def Agree (answers : List (K × O)) (k : K) (o : O) : Prop :=
  ∀ answer ∈ answers, answer.1 = k → answer.2 = o

instance [DecidableEq K] [DecidableEq O] (answers : List (K × O)) (k : K) (o : O) :
    Decidable (Agree answers k o) :=
  inferInstanceAs (Decidable (∀ answer ∈ answers, answer.1 = k → answer.2 = o))

def Bound (holder : K → Option O) (answers : List (K × O)) : Prop :=
  ∀ k o, holder k = some o → Agree answers k o

variable {holder holder' : K → Option O} {answers answers' : List (K × O)} {k : K} {o : O}

theorem Agree.mono (agree : Agree answers k o) (fewer : answers' ⊆ answers) :
    Agree answers' k o :=
  fun answer member => agree answer (fewer member)

theorem Bound.mono (bound : Bound holder answers)
    (holders : ∀ k o, holder' k = some o → holder k = some o) (fewer : answers' ⊆ answers) :
    Bound holder' answers' :=
  fun k o holds => (bound k o (holders k o holds)).mono fewer

/-- A new holder, for which every answer under the key was made. -/
theorem Bound.place (bound : Bound holder answers) (agree : Agree answers k o)
    (placed : ∀ k' o', holder' k' = some o' → holder k' = some o' ∨ (k' = k ∧ o' = o)) :
    Bound holder' answers := by
  intro k' o' holds
  obtain before | ⟨rfl, rfl⟩ := placed k' o' holds
  · exact bound k' o' before
  · exact agree

/-- A new answer, made for the one who holds the key. -/
theorem Bound.answer (bound : Bound holder answers)
    (current : holder k = none ∨ holder k = some o)
    (more : answers' ⊆ (k, o) :: answers) : Bound holder answers' := by
  intro k' o' holds answer member same
  obtain rfl | before := List.mem_cons.mp (more member)
  · subst same
    rw [holds] at current
    exact (Option.some.inj (current.resolve_left (Option.some_ne_none _))).symm
  · exact bound k' o' holds answer before same

end Answers
