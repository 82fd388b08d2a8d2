import Qubox.Library.Pool

/-!
# Programs that follow a protocol

A protocol gives a program a phase. The phase says which action may come next
and what its answer may be relied on to be, and it moves on with each answer.
`Conforms` is checked on the program alone. What the phase of a thread means for
the shared state is the client's invariant, which the answers relied on must
follow from.
-/

namespace Interaction

structure Protocol (S : Signature) (Φ : Type) where
  allows : Φ → S.Action → Prop
  expects : Φ → (a : S.Action) → S.Answer a → Prop
  after : Φ → (a : S.Action) → S.Answer a → Φ

namespace Program

variable {S : Signature} {Φ ε α β : Type} {A : Protocol S Φ} {phase : Φ}
  {post : Φ → α → Prop} {post' : Φ → β → Prop}

/-- Every action is one that the phase allows, and every result satisfies
`post` in the last phase, as long as the answers are as expected. -/
def Conforms (A : Protocol S Φ) (post : Φ → α → Prop) : Φ → Program S ε α → Prop
  | phase, .done a => post phase a
  | _, .fail _ => True
  | phase, .act a k =>
      A.allows phase a ∧ ∀ r, A.expects phase a r → (k r).Conforms A post (A.after phase a r)

@[simp] theorem conforms_done (a : α) :
    (.done a : Program S ε α).Conforms A post phase ↔ post phase a := Iff.rfl

@[simp] theorem conforms_fail (e : ε) :
    (.fail e : Program S ε α).Conforms A post phase := trivial

theorem Conforms.bind {p : Program S ε α} {f : α → Program S ε β}
    (hp : p.Conforms A post phase)
    (hf : ∀ later a, post later a → (f a).Conforms A post' later) :
    (p >>= f).Conforms A post' phase := by
  induction p generalizing phase with
  | done a => exact hf phase a hp
  | fail e => trivial
  | act a k ih => exact ⟨hp.1, fun r hr => ih r (hp.2 r hr)⟩

theorem Conforms.imp {weak : Φ → α → Prop} {p : Program S ε α} (hp : p.Conforms A post phase)
    (weaker : ∀ later a, post later a → weak later a) : p.Conforms A weak phase := by
  induction p generalizing phase with
  | done a => exact weaker phase a hp
  | fail e => trivial
  | act a k ih => exact ⟨hp.1, fun r hr => ih r (hp.2 r hr)⟩

theorem Conforms.attempt {ε' : Type} {p : Program S ε α} (hp : p.Conforms A post phase) :
    (p.attempt : Program S ε' (Except ε α)).Conforms A (fun later => Attempted (post later))
      phase := by
  induction p generalizing phase with
  | done a => exact hp
  | fail e => trivial
  | act a k ih => exact ⟨hp.1, fun r hr => ih r (hp.2 r hr)⟩

/-- A program whose actions are all allowed in the phase and leave it. -/
theorem Upholds.conforms {p : Program S ε α} {result : α → Prop}
    (hp : p.Upholds (A.expects phase)
      (fun a => A.allows phase a ∧ ∀ r, A.after phase a r = phase) result) :
    p.Conforms A (fun later a => later = phase ∧ result a) phase := by
  induction p with
  | done a => exact ⟨rfl, hp⟩
  | fail e => trivial
  | act a k ih =>
      refine ⟨hp.1.1, fun r expected => ?_⟩
      rw [hp.1.2 r]
      exact ih r (hp.2 r expected)

/-- Such a program may fail without the phase being lost. -/
theorem Upholds.conforms_attempt {ε' : Type} {p : Program S ε α} {result : α → Prop}
    (hp : p.Upholds (fun _ _ => True)
      (fun a => A.allows phase a ∧ ∀ r, A.after phase a r = phase) result) :
    (p.attempt : Program S ε' (Except ε α)).Conforms A (fun later _ => later = phase) phase := by
  have tried : (p.attempt : Program S ε' (Except ε α)).Upholds _ _ _ := hp.attempt
  exact (tried.mono (fun _ _ _ => trivial) (fun _ h => h) fun _ h => h).conforms.imp
    fun _ _ known => known.1

end Program

/-- A run in a changing environment passes from phase to phase, if one action
does and the environment does not touch what the phases mean. -/
theorem Machine.runAmid_conforms {S : Signature} {σ Φ ξ ε α : Type} (M : Machine S σ)
    (change : ξ → σ → σ) (xs : List ξ) {A : Protocol S Φ} {R : Φ → σ → Prop} {p : Program S ε α}
    {phase : Φ} {post : Φ → α → Prop} {s : σ} (conforms : p.Conforms A post phase)
    (changed : ∀ x φ s, R φ s → R φ (change x s))
    (step : ∀ φ a s, A.allows φ a → R φ s →
      A.expects φ a (M.exec a s).1 ∧ R (A.after φ a (M.exec a s).1) (M.exec a s).2)
    (start : R phase s) :
    ∃ later, R later (M.runAmid change p xs s).2 ∧
      ∀ a, (M.runAmid change p xs s).1 = some (.ok a) → post later a := by
  induction p generalizing phase xs s with
  | done a =>
      refine ⟨phase, start, fun b same => ?_⟩
      cases same
      exact conforms
  | fail e =>
      refine ⟨phase, start, fun b same => ?_⟩
      cases same
  | act a k ih =>
      cases xs with
      | nil =>
          refine ⟨phase, start, fun b same => ?_⟩
          cases same
      | cons x xs =>
          obtain ⟨expected, suits⟩ := step phase a _ conforms.1 (changed x phase s start)
          exact ih _ xs (conforms.2 _ expected) suits

end Interaction
