import Mathlib.Data.List.Basic

/-!
# Histories

A machine with a step function takes one input after another. What it has
recorded, and whether an input is permitted, may depend on everything that came
before; both are functions of the history, the list of earlier inputs.
-/

namespace List

universe u v w

variable {α : Type u} {β : Type v} {σ : Type w}

/-- Every input of a list is permitted, given the inputs before it. -/
def Along (ok : List α → α → Prop) : List α → List α → Prop
  | _, [] => True
  | past, a :: rest => ok past a ∧ Along ok (past ++ [a]) rest

instance decidableAlong (ok : List α → α → Prop) [∀ past a, Decidable (ok past a)] :
    ∀ past rest, Decidable (Along ok past rest)
  | _, [] => isTrue trivial
  | past, a :: rest =>
      haveI := decidableAlong ok (past ++ [a]) rest
      inferInstanceAs (Decidable (_ ∧ _))

theorem along_iff {ok : List α → α → Prop} {past rest : List α} :
    Along ok past rest ↔ ∀ before a after, rest = before ++ a :: after → ok (past ++ before) a := by
  induction rest generalizing past with
  | nil => simp [Along]
  | cons b rest ih =>
      rw [Along, ih]
      constructor
      · rintro ⟨first, later⟩ before a after split
        cases before with
        | nil =>
            obtain ⟨rfl, -⟩ := List.cons.inj split
            simpa using first
        | cons c before =>
            obtain ⟨rfl, rfl⟩ := List.cons.inj split
            simpa using later before a after rfl
      · intro all
        refine ⟨by simpa using all [] b rest rfl, fun before a after split => ?_⟩
        simpa using all (b :: before) a after (by rw [split, List.cons_append])

theorem Along.concat {ok : List α → α → Prop} {past rest : List α} {a : α}
    (along : Along ok past rest) (last : ok (past ++ rest) a) : Along ok past (rest ++ [a]) := by
  induction rest generalizing past with
  | nil => exact ⟨by simpa using last, trivial⟩
  | cons b rest ih => exact ⟨along.1, ih along.2 (by simpa using last)⟩

/-- Induction over histories: what every permitted input keeps holds at the end. -/
theorem Along.invariant {ok : List α → α → Prop} {I : List α → Prop} {past rest : List α}
    (keeps : ∀ past a, ok past a → I past → I (past ++ [a])) (start : I past)
    (along : Along ok past rest) : I (past ++ rest) := by
  induction rest generalizing past with
  | nil => simpa using start
  | cons a rest ih => simpa using ih (keeps past a along.1 start) along.2

theorem Along.left {ok : List α → α → Prop} {past first second : List α}
    (along : Along ok past (first ++ second)) : Along ok past first := by
  rw [along_iff] at along ⊢
  intro before a after split
  exact along before a (after ++ second) (by rw [split, List.append_assoc, List.cons_append])

/-- What a machine notes down while it reads a list of inputs. -/
def notes (step : σ → α → σ) (note : σ → α → List β) : σ → List α → List β
  | _, [] => []
  | s, a :: rest => note s a ++ notes step note (step s a) rest

theorem notes_append (step : σ → α → σ) (note : σ → α → List β) (s : σ) (first second : List α) :
    notes step note s (first ++ second) =
      notes step note s first ++ notes step note (first.foldl step s) second := by
  induction first generalizing s with
  | nil => rfl
  | cons a first ih => rw [List.cons_append, notes, notes, ih, List.append_assoc, List.foldl_cons]

theorem mem_notes {step : σ → α → σ} {note : σ → α → List β} {s : σ} {inputs : List α} {b : β} :
    b ∈ notes step note s inputs ↔
      ∃ past a rest, inputs = past ++ a :: rest ∧ b ∈ note (past.foldl step s) a := by
  constructor
  · intro member
    induction inputs generalizing s with
    | nil => cases member
    | cons a inputs ih =>
        rcases List.mem_append.mp member with now | later
        · exact ⟨[], a, inputs, rfl, now⟩
        · obtain ⟨past, c, rest, rfl, noted⟩ := ih later
          exact ⟨a :: past, c, rest, rfl, noted⟩
  · rintro ⟨past, a, rest, rfl, noted⟩
    rw [notes_append, notes]
    exact List.mem_append_right _ (List.mem_append_left _ noted)

theorem notes_concat (step : σ → α → σ) (note : σ → α → List β) (s : σ) (past : List α) (a : α) :
    notes step note s (past ++ [a]) = notes step note s past ++ note (past.foldl step s) a := by
  rw [notes_append, notes, notes, List.append_nil]

/-! ## Machines that can get stuck -/

/-- Every input is permitted in the state it meets, as far as the machine gets. -/
def Permitted (step : σ → α → Option σ) (ok : σ → α → Prop) : σ → List α → Prop
  | _, [] => True
  | s, a :: rest => ok s a ∧ ∀ next, step s a = some next → Permitted step ok next rest

/-- A machine reads all its inputs exactly when no step gets stuck. -/
theorem foldlM_isSome_iff {step : σ → α → Option σ} {ok : σ → α → Prop}
    (exact : ∀ s a, (step s a).isSome ↔ ok s a) (s : σ) (inputs : List α) :
    (inputs.foldlM step s).isSome ↔ Permitted step ok s inputs := by
  induction inputs generalizing s with
  | nil => exact iff_of_true rfl trivial
  | cons a inputs ih =>
      rw [List.foldlM_cons, Permitted, ← exact]
      cases stepped : step s a with
      | none => exact iff_of_false nofun fun both => absurd both.1 nofun
      | some next =>
          rw [Option.bind_eq_bind, Option.bind_some, ih]
          constructor
          · rintro rest
            exact ⟨rfl, fun _ same => Option.some.inj same ▸ rest⟩
          · rintro ⟨-, rest⟩
            exact rest next rfl

/-- What such a machine notes down, as far as it gets. -/
def notesM (step : σ → α → Option σ) (note : σ → α → List β) : σ → List α → List β
  | _, [] => []
  | s, a :: rest => note s a ++
      match step s a with
      | some next => notesM step note next rest
      | none => []

theorem notesM_append {step : σ → α → Option σ} {note : σ → α → List β} {s next : σ}
    {first : List α} (ran : first.foldlM step s = some next) (second : List α) :
    notesM step note s (first ++ second) =
      notesM step note s first ++ notesM step note next second := by
  induction first generalizing s with
  | nil =>
      cases ran
      rfl
  | cons a first ih =>
      rw [List.foldlM_cons] at ran
      obtain ⟨middle, stepped, rest⟩ := Option.bind_eq_some_iff.mp ran
      simp only [List.cons_append, notesM, stepped, ih rest, List.append_assoc]

theorem notesM_concat {step : σ → α → Option σ} {note : σ → α → List β} {s next : σ}
    {past : List α} (ran : past.foldlM step s = some next) (a : α) :
    notesM step note s (past ++ [a]) = notesM step note s past ++ note next a := by
  rw [notesM_append ran, notesM]
  cases step next a <;> simp [notesM]

/-- Induction over runs: where no permitted input gets stuck and each keeps an
invariant, the machine reads all its inputs and the invariant holds at the end. -/
theorem Along.foldlM {step : σ → α → Option σ} {ok : List α → α → Prop} {I : List α → σ → Prop}
    {past rest : List α} {s : σ}
    (keeps : ∀ past s a, ok past a → I past s → ∃ next, step s a = some next ∧ I (past ++ [a]) next)
    (start : I past s) (along : Along ok past rest) :
    ∃ last, rest.foldlM step s = some last ∧ I (past ++ rest) last := by
  induction rest generalizing past s with
  | nil => exact ⟨s, rfl, by simpa using start⟩
  | cons a rest ih =>
      obtain ⟨next, stepped, kept⟩ := keeps past s a along.1 start
      obtain ⟨last, ran, done⟩ := ih kept along.2
      refine ⟨last, ?_, by simpa using done⟩
      rw [List.foldlM_cons, stepped]
      exact ran

/-- The same for a machine that may get stuck. -/
theorem Along.foldlM_of_some {step : σ → α → Option σ} {ok : List α → α → Prop}
    {I : List α → σ → Prop} {past rest : List α} {s last : σ}
    (keeps : ∀ past s a next, ok past a → step s a = some next → I past s → I (past ++ [a]) next)
    (start : I past s) (along : Along ok past rest) (ran : rest.foldlM step s = some last) :
    I (past ++ rest) last := by
  induction rest generalizing past s with
  | nil =>
      cases ran
      simpa using start
  | cons a rest ih =>
      rw [List.foldlM_cons] at ran
      obtain ⟨next, stepped, rest⟩ := Option.bind_eq_some_iff.mp ran
      simpa using ih (keeps past s a next along.1 stepped start) along.2 rest

end List
