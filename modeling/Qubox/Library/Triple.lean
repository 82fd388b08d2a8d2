import Qubox.Library.Protocol

/-!
# Hoare triples under interference

Before every action of a program its environment may change the state. `Meets`
says what the program leads to whatever changes of a given kind are made: it
never mentions a run, and since a program is a finite tree it is about every
run to its end. With `False` for failures it is total correctness, with `True`
it is partial correctness.

`Machine.runUnder` is one such run, the changes being given as a sequence.
-/

namespace Interaction

variable {S : Signature} {σ ε α β ξ : Type}

/-- Run a program to its end, with the next change made before each action. -/
def Machine.runUnder (M : Machine S σ) (change : ξ → σ → σ) :
    Program S ε α → (Nat → ξ) → σ → Except ε α × σ
  | .done a, _, s => (.ok a, s)
  | .fail e, _, s => (.error e, s)
  | .act a k, xs, s =>
      M.runUnder change (k (M.exec a (change (xs 0) s)).1) (fun n => xs (n + 1))
        (M.exec a (change (xs 0) s)).2

namespace Program

variable {M : Machine S σ} {fair : σ → σ → Prop} {failed : ε → σ → Prop} {post : α → σ → Prop}
  {post' : β → σ → Prop} {s : σ}

/-- From this state the program ends as stated, whatever fair changes are made. -/
def Meets (M : Machine S σ) (fair : σ → σ → Prop) (failed : ε → σ → Prop) (post : α → σ → Prop) :
    Program S ε α → σ → Prop
  | .done a, s => post a s
  | .fail e, s => failed e s
  | .act a k, s => ∀ s', fair s s' →
      (k (M.exec a s').1).Meets M fair failed post (M.exec a s').2

theorem Meets.bind {p : Program S ε α} {f : α → Program S ε β}
    (hp : p.Meets M fair failed post s)
    (hf : ∀ a s', post a s' → (f a).Meets M fair failed post' s') :
    (p >>= f).Meets M fair failed post' s := by
  induction p generalizing s with
  | done a => exact hf a s hp
  | fail e => exact hp
  | act a k ih => exact fun s' changed => ih _ (hp s' changed)

theorem Meets.imp {failed' : ε → σ → Prop} {weak : α → σ → Prop} {p : Program S ε α}
    (hp : p.Meets M fair failed post s) (failure : ∀ e s, failed e s → failed' e s)
    (result : ∀ a s, post a s → weak a s) : p.Meets M fair failed' weak s := by
  induction p generalizing s with
  | done a => exact result a s hp
  | fail e => exact failure e s hp
  | act a k ih => exact fun s' changed => ih _ (hp s' changed)

/-- A run under fair changes ends as stated. -/
theorem Meets.runUnder {p : Program S ε α} (hp : p.Meets M fair failed post s)
    (change : ξ → σ → σ) (xs : Nat → ξ) (fairly : ∀ n s, fair s (change (xs n) s)) :
    (∃ a s', M.runUnder change p xs s = (.ok a, s') ∧ post a s') ∨
      ∃ e s', M.runUnder change p xs s = (.error e, s') ∧ failed e s' := by
  induction p generalizing s xs with
  | done a => exact .inl ⟨a, s, rfl, hp⟩
  | fail e => exact .inr ⟨e, s, rfl, hp⟩
  | act a k ih => exact ih _ (hp _ (fairly 0 s)) _ fun n => fairly (n + 1)

end Program

end Interaction
