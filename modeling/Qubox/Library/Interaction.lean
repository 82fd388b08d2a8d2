import Mathlib.Logic.Basic
import Mathlib.Tactic.Common

/-!
# Programs that share a state through atomic actions

A `Program` is a tree of atomic actions over a signature: it returns, fails, or
performs an action and continues with its answer. A `Machine` supplies the meaning
of each action on a state. `Machine.run` performs all actions without interruption,
while a pool of threads (see `Interaction.Pool`) lets other programs act between any
two of them.

`Upholds assume ensure post p` is the contract used for both executions. It asks
`ensure` of every action that `p` can perform and `post` of what it returns,
along the paths whose answers satisfy `assume`. It never mentions a state, so
one contract serves a run and an interleaving alike.
-/

namespace Interaction

/-- Names of the atomic actions together with the type of answer of each. -/
structure Signature where
  Action : Type
  Answer : Action → Type

/-- A performed action with its answer. -/
structure Event (S : Signature) where
  action : S.Action
  answer : S.Answer action

/-- A program over `S` that may fail with `ε` or return an `α`. -/
inductive Program (S : Signature) (ε α : Type) where
  | done (value : α)
  | fail (error : ε)
  | act (action : S.Action) (next : S.Answer action → Program S ε α)

namespace Program

variable {S : Signature} {ε ε' α β γ : Type}

/-- Sequential composition; a failure of the first program ends the whole. -/
def bind : Program S ε α → (α → Program S ε β) → Program S ε β
  | .done a, f => f a
  | .fail e, _ => .fail e
  | .act a k, f => .act a (fun r => (k r).bind f)

instance : Monad (Program S ε) where
  pure := .done
  bind := bind

/-- Perform a single action and return its answer. -/
def perform (a : S.Action) : Program S ε (S.Answer a) := .act a .done

/-- Turn a failure into an ordinary result, as discarding a `Result` does. -/
def attempt : Program S ε α → Program S ε' (Except ε α)
  | .done a => .done (.ok a)
  | .fail e => .done (.error e)
  | .act a k => .act a (fun r => (k r).attempt)

/-- Forget the result and rename the error. -/
def settle (wrap : ε → ε') : Program S ε α → Program S ε' Unit
  | .done _ => .done ()
  | .fail e => .fail (wrap e)
  | .act a k => .act a (fun r => (k r).settle wrap)

@[simp] theorem pure_eq (a : α) : (pure a : Program S ε α) = .done a := rfl

@[simp] theorem done_bind (a : α) (f : α → Program S ε β) : (.done a >>= f) = f a := rfl

@[simp] theorem fail_bind (e : ε) (f : α → Program S ε β) :
    ((.fail e : Program S ε α) >>= f) = .fail e := rfl

@[simp] theorem act_bind (a : S.Action) (k : S.Answer a → Program S ε α)
    (f : α → Program S ε β) : (.act a k >>= f) = .act a (fun r => k r >>= f) := rfl

@[simp] theorem perform_bind (a : S.Action) (f : S.Answer a → Program S ε β) :
    (perform a >>= f) = .act a f := rfl

@[simp] theorem attempt_done (a : α) :
    ((.done a : Program S ε α).attempt : Program S ε' (Except ε α)) = .done (.ok a) := rfl

@[simp] theorem attempt_fail (e : ε) :
    ((.fail e : Program S ε α).attempt : Program S ε' (Except ε α)) = .done (.error e) := rfl

@[simp] theorem attempt_act (a : S.Action) (k : S.Answer a → Program S ε α) :
    ((Program.act a k).attempt : Program S ε' (Except ε α)) =
      .act a (fun r => (k r).attempt) := rfl

/-- The result of a program that has returned or failed. -/
def outcome? : Program S ε α → Option (Except ε α)
  | .done a => some (.ok a)
  | .fail e => some (.error e)
  | .act _ _ => none

@[simp] theorem outcome?_done (a : α) :
    (.done a : Program S ε α).outcome? = some (.ok a) := rfl

@[simp] theorem outcome?_fail (e : ε) :
    (.fail e : Program S ε α).outcome? = some (.error e) := rfl

@[simp] theorem outcome?_act (a : S.Action) (k : S.Answer a → Program S ε α) :
    (Program.act a k).outcome? = none := rfl

/-- The program has neither returned nor failed yet. -/
def InProgress (p : Program S ε α) : Prop := p.outcome? = none

theorem InProgress.exists_act {p : Program S ε α} (h : p.InProgress) :
    ∃ a k, p = .act a k := by
  cases p with
  | done a | fail e => cases h
  | act a k => exact ⟨a, k, rfl⟩

theorem eq_done_of_outcome {p : Program S ε α} {a : α} (h : p.outcome? = some (.ok a)) :
    p = .done a := by
  cases p with
  | done b => simpa using h
  | fail e | act b k => cases h

/-! ## Contracts on the actions of a program -/

/-- Every action of the program satisfies `ensure` and every result `post`, on
all paths along which the answers satisfy `assume`. -/
def Upholds (assume : (a : S.Action) → S.Answer a → Prop) (ensure : S.Action → Prop)
    (post : α → Prop) : Program S ε α → Prop
  | .done a => post a
  | .fail _ => True
  | .act a k => ensure a ∧ ∀ r, assume a r → (k r).Upholds assume ensure post

section Upholds

variable {assume : (a : S.Action) → S.Answer a → Prop} {ensure : S.Action → Prop}
  {post : α → Prop} {post' : β → Prop}

@[simp] theorem upholds_done (a : α) :
    (.done a : Program S ε α).Upholds assume ensure post ↔ post a := Iff.rfl

@[simp] theorem upholds_fail (e : ε) :
    (.fail e : Program S ε α).Upholds assume ensure post := trivial

@[simp] theorem upholds_act (a : S.Action) (k : S.Answer a → Program S ε α) :
    (Program.act a k).Upholds assume ensure post ↔
      ensure a ∧ ∀ r, assume a r → (k r).Upholds assume ensure post := Iff.rfl

@[simp] theorem upholds_perform (a : S.Action) {post : S.Answer a → Prop} :
    (perform a : Program S ε (S.Answer a)).Upholds assume ensure post ↔
      ensure a ∧ ∀ r, assume a r → post r := Iff.rfl

theorem Upholds.bind {p : Program S ε α} {f : α → Program S ε β}
    (hp : p.Upholds assume ensure post)
    (hf : ∀ a, post a → (f a).Upholds assume ensure post') :
    (p >>= f).Upholds assume ensure post' := by
  induction p with
  | done a => exact hf a hp
  | fail e => trivial
  | act a k ih => exact ⟨hp.1, fun r hr => ih r (hp.2 r hr)⟩

/-- What `attempt` may return: the promised result, or any error. -/
def Attempted (post : α → Prop) : Except ε α → Prop
  | .ok a => post a
  | .error _ => True

theorem Upholds.attempt {p : Program S ε α} (hp : p.Upholds assume ensure post) :
    (p.attempt : Program S ε' (Except ε α)).Upholds assume ensure (Attempted post) := by
  induction p with
  | done a => exact hp
  | fail e => trivial
  | act a k ih => exact ⟨hp.1, fun r hr => ih r (hp.2 r hr)⟩

theorem Upholds.settle {p : Program S ε α} (wrap : ε → ε') (hp : p.Upholds assume ensure post) :
    (p.settle wrap).Upholds assume ensure (fun _ => True) := by
  induction p with
  | done a | fail e => trivial
  | act a k ih => exact ⟨hp.1, fun r hr => ih r (hp.2 r hr)⟩

/-- A contract may assume more about the answers and promise less. -/
theorem Upholds.mono {assume' : (a : S.Action) → S.Answer a → Prop} {ensure' : S.Action → Prop}
    {weak : α → Prop} {p : Program S ε α} (hp : p.Upholds assume ensure post)
    (stronger : ∀ a r, assume' a r → assume a r) (weaker : ∀ a, ensure a → ensure' a)
    (result : ∀ a, post a → weak a) : p.Upholds assume' ensure' weak := by
  induction p with
  | done a => exact result a hp
  | fail e => trivial
  | act a k ih => exact ⟨weaker a hp.1, fun r hr => ih r (hp.2 r (stronger a r hr))⟩

end Upholds

/-! ## Actions that need a reason -/

/-- Each action has a cause in what the program has done before, and so has
each result. The list holds the events so far, oldest first. -/
def Justified (cause : List (Event S) → S.Action → Prop) (post : List (Event S) → α → Prop) :
    List (Event S) → Program S ε α → Prop
  | past, .done a => post past a
  | _, .fail _ => True
  | past, .act a k => cause past a ∧ ∀ r, (k r).Justified cause post (past ++ [⟨a, r⟩])

section Justified

variable {cause : List (Event S) → S.Action → Prop} {post : List (Event S) → α → Prop}
  {post' : List (Event S) → β → Prop} {past : List (Event S)}

theorem Justified.bind {p : Program S ε α} {f : α → Program S ε β}
    (hp : p.Justified cause post past)
    (hf : ∀ later a, post later a → (f a).Justified cause post' later) :
    (p >>= f).Justified cause post' past := by
  induction p generalizing past with
  | done a => exact hf past a hp
  | fail e => trivial
  | act a k ih => exact ⟨hp.1, fun r => ih r (hp.2 r)⟩

theorem Justified.imp {weak : List (Event S) → α → Prop} {p : Program S ε α}
    (hp : p.Justified cause post past) (weaker : ∀ later a, post later a → weak later a) :
    p.Justified cause weak past := by
  induction p generalizing past with
  | done a => exact weaker past a hp
  | fail e => trivial
  | act a k ih => exact ⟨hp.1, fun r => ih r (hp.2 r)⟩

/-- Dropping what is known about the result. -/
theorem Justified.forget {p : Program S ε α} (hp : p.Justified cause post past) :
    p.Justified cause (fun _ _ => True) past :=
  hp.imp fun _ _ _ => trivial

/-- The past of a result goes on from the past of the program. -/
theorem Justified.grows {p : Program S ε α} (hp : p.Justified cause post past) :
    p.Justified cause (fun later a => past ⊆ later ∧ post later a) past := by
  suffices ∀ now, past ⊆ now → p.Justified cause post now →
      p.Justified cause (fun later a => past ⊆ later ∧ post later a) now from
    this past (List.Subset.refl _) hp
  clear hp
  induction p with
  | done a => exact fun now more hp => ⟨more, hp⟩
  | fail e => exact fun _ _ _ => trivial
  | act a k ih =>
      intro now more hp
      exact ⟨hp.1, fun r => ih r _ (fun e old => List.mem_append_left _ (more old)) (hp.2 r)⟩

theorem Justified.attempt {p : Program S ε α} (hp : p.Justified cause post past) :
    (p.attempt : Program S ε' (Except ε α)).Justified cause
      (fun later => Attempted (post later)) past := by
  induction p generalizing past with
  | done a => exact hp
  | fail e => trivial
  | act a k ih => exact ⟨hp.1, fun r => ih r (hp.2 r)⟩

theorem Justified.settle {p : Program S ε α} {wrap : ε → ε'}
    (hp : p.Justified cause (fun _ _ => True) past) :
    (p.settle wrap).Justified cause (fun _ _ => True) past := by
  induction p generalizing past with
  | done a | fail e => trivial
  | act a k ih => exact ⟨hp.1, fun r => ih r (hp.2 r)⟩

/-- A longer history justifies at least as much. -/
theorem Justified.mono {p : Program S ε α} {later : List (Event S)}
    (hp : p.Justified cause post past) (more : past ⊆ later)
    (causes : ∀ a past later, past ⊆ later → cause past a → cause later a)
    (results : ∀ a past later, past ⊆ later → post past a → post later a) :
    p.Justified cause post later := by
  induction p generalizing past later with
  | done a => exact results a past later more hp
  | fail e => trivial
  | act a k ih =>
      refine ⟨causes a past later more hp.1, fun r => ih r (hp.2 r) ?_⟩
      exact List.append_subset.mpr
        ⟨fun e old => List.mem_append_left _ (more old), List.subset_append_right _ _⟩

/-- A contract on single actions justifies them whatever the past is. -/
theorem Upholds.justified {ensure : S.Action → Prop} {result : α → Prop} {p : Program S ε α}
    (hp : p.Upholds (fun _ _ => True) ensure result)
    (causes : ∀ later a, past ⊆ later → ensure a → cause later a) :
    p.Justified cause (fun later a => past ⊆ later ∧ result a) past := by
  suffices ∀ now, past ⊆ now → p.Justified cause (fun later a => past ⊆ later ∧ result a) now from
    this past (List.Subset.refl _)
  induction p with
  | done a => exact fun now more => ⟨more, hp⟩
  | fail e => exact fun _ _ => trivial
  | act a k ih =>
      intro now more
      refine ⟨causes now a more hp.1, fun r => ih r (hp.2 r trivial) _ ?_⟩
      exact fun e old => List.mem_append_left _ (more old)

/-- A contract that holds for every choice of what has been seen, with causes
that rest on what has been seen, justifies the actions by the past. -/
theorem justified_of_upholds {cause : (Event S → Prop) → S.Action → Prop} {p : Program S ε α}
    (h : ∀ seen : Event S → Prop, (∀ e ∈ past, seen e) →
      p.Upholds (fun a r => seen ⟨a, r⟩) (cause seen) (fun _ => True)) :
    p.Justified (fun past a => cause (fun e => e ∈ past) a) (fun _ _ => True) past := by
  induction p generalizing past with
  | done a | fail e => trivial
  | act a k ih =>
      refine ⟨(h (fun e => e ∈ past) fun _ member => member).1, fun r => ih r fun seen known => ?_⟩
      refine (h seen fun e member => known e (List.mem_append_left _ member)).2 r ?_
      exact known _ (List.mem_append_right _ (List.mem_singleton.mpr rfl))

/-- A contract that holds for every choice of what has been seen says of a result
what it says of the events of the past. -/
theorem justified_of_seen {ensure : S.Action → Prop} {result : (Event S → Prop) → α → Prop}
    {p : Program S ε α}
    (h : ∀ seen : Event S → Prop, (∀ e ∈ past, seen e) →
      p.Upholds (fun a r => seen ⟨a, r⟩) ensure (result seen))
    (causes : ∀ later a, ensure a → cause later a) :
    p.Justified cause (fun later a => result (fun e => e ∈ later) a) past := by
  induction p generalizing past with
  | done a => exact h (fun e => e ∈ past) fun _ member => member
  | fail e => trivial
  | act a k ih =>
      refine ⟨causes past a (h (fun e => e ∈ past) fun _ member => member).1, fun r => ?_⟩
      refine ih r fun seen known => ?_
      refine (h seen fun e member => known e (List.mem_append_left _ member)).2 r ?_
      exact known _ (List.mem_append_right _ (List.mem_singleton.mpr rfl))

end Justified

/-! ## Errors of a program -/

/-- Every error the program can fail with is allowed, whatever the answers. -/
def FailsWith (allowed : ε → Prop) : Program S ε α → Prop
  | .done _ => True
  | .fail e => allowed e
  | .act _ k => ∀ r, (k r).FailsWith allowed

theorem FailsWith.bind {allowed : ε → Prop} {p : Program S ε α} {f : α → Program S ε β}
    (hp : p.FailsWith allowed) (hf : ∀ a, (f a).FailsWith allowed) :
    (p >>= f).FailsWith allowed := by
  induction p with
  | done a => exact hf a
  | fail e => exact hp
  | act a k ih => exact fun r => ih r (hp r)

/-- A discarded `Result` fails with nothing. -/
theorem attempt_failsWith {allowed : ε' → Prop} (p : Program S ε α) :
    (p.attempt : Program S ε' (Except ε α)).FailsWith allowed := by
  induction p with
  | done a | fail e => trivial
  | act a k ih => exact fun r => ih r

/-- The error that `attempt` returns is one the program may fail with. -/
theorem Upholds.attempt_failing {assume : (a : S.Action) → S.Answer a → Prop}
    {ensure : S.Action → Prop} {post : α → Prop} {allowed : ε → Prop} {p : Program S ε α}
    (hp : p.Upholds assume ensure post) (fails : p.FailsWith allowed) :
    (p.attempt : Program S ε' (Except ε α)).Upholds assume ensure
      (fun r => Attempted post r ∧ ∀ e, r = .error e → allowed e) := by
  induction p with
  | done a => exact ⟨hp, nofun⟩
  | fail e =>
      refine ⟨trivial, ?_⟩
      rintro _ ⟨⟩
      exact fails
  | act a k ih => exact ⟨hp.1, fun r hr => ih r (hp.2 r hr) (fails r)⟩

/-! ## Unavoidable actions -/

/-- A marked event happens before the program returns, and what is left after
the first one satisfies `after`. A program that fails owes nothing. -/
def Passes (mark : Event S → Prop) (after : Program S ε α → Prop) : Program S ε α → Prop
  | .done _ => False
  | .fail _ => True
  | .act a k => ∀ r, (mark ⟨a, r⟩ → after (k r)) ∧ (¬ mark ⟨a, r⟩ → (k r).Passes mark after)

section Passes

variable {mark : Event S → Prop} {after : Program S ε β → Prop}

@[simp] theorem passes_fail (e : ε) :
    (.fail e : Program S ε β).Passes mark after := trivial

theorem passes_marked {a : S.Action} {k : S.Answer a → Program S ε β}
    (marked : ∀ r, mark ⟨a, r⟩) (h : ∀ r, after (k r)) : (Program.act a k).Passes mark after :=
  fun r => ⟨fun _ => h r, fun unmarked => absurd (marked r) unmarked⟩

/-- An unmarked first part leaves the obligation to the rest. -/
theorem Passes.bind {p : Program S ε α} {f : α → Program S ε β} {post : α → Prop}
    (unmarked : p.Upholds (fun _ _ => True) (fun a => ∀ r, ¬ mark ⟨a, r⟩) post)
    (rest : ∀ a, post a → (f a).Passes mark after) : (p >>= f).Passes mark after := by
  induction p with
  | done a => exact rest a unmarked
  | fail e => trivial
  | act a k ih =>
      exact fun r => ⟨fun marked => absurd marked (unmarked.1 r),
        fun _ => ih r (unmarked.2 r trivial)⟩

/-- The marked event is one of the first part; the rest comes along. -/
theorem Passes.bind_left {p : Program S ε α} {f : α → Program S ε β}
    (h : p.Passes mark (fun rest => after (rest >>= f))) : (p >>= f).Passes mark after := by
  induction p with
  | done a => exact h.elim
  | fail e => trivial
  | act a k ih => exact fun r => ⟨(h r).1, fun unmarked => ih r ((h r).2 unmarked)⟩

theorem Passes.mono {mark' : Event S → Prop} {weak : Program S ε β → Prop} {p : Program S ε β}
    (h : p.Passes mark after) (same : ∀ e, mark e ↔ mark' e) (weaker : ∀ q, after q → weak q) :
    p.Passes mark' weak := by
  induction p with
  | done a => exact h.elim
  | fail e => trivial
  | act a k ih =>
      exact fun r => ⟨fun marked => weaker _ ((h r).1 ((same _).mpr marked)),
        fun unmarked => ih r ((h r).2 (mt (same _).mp unmarked))⟩

theorem Passes.settle {wrap : ε → ε'} {after : Program S ε' Unit → Prop} {p : Program S ε α}
    (h : p.Passes mark (fun rest => after (rest.settle wrap))) :
    (p.settle wrap).Passes mark after := by
  induction p with
  | done a => exact h.elim
  | fail e => trivial
  | act a k ih => exact fun r => ⟨(h r).1, fun unmarked => ih r ((h r).2 unmarked)⟩

end Passes

end Program

/-! ## Uninterrupted execution -/

/-- The meaning of every action on a state type `σ`. -/
structure Machine (S : Signature) (σ : Type) where
  exec : (a : S.Action) → σ → S.Answer a × σ

namespace Machine

variable {S : Signature} {σ ε ε' α β : Type} (M : Machine S σ)

/-- Perform all actions of a program with nothing happening in between. -/
def run : Program S ε α → σ → Except ε α × σ
  | .done a, s => (.ok a, s)
  | .fail e, s => (.error e, s)
  | .act a k, s => run (k (M.exec a s).1) (M.exec a s).2

@[simp] theorem run_done (a : α) (s : σ) :
    M.run (.done a : Program S ε α) s = (.ok a, s) := rfl

@[simp] theorem run_fail (e : ε) (s : σ) :
    M.run (.fail e : Program S ε α) s = (.error e, s) := rfl

@[simp] theorem run_act (a : S.Action) (k : S.Answer a → Program S ε α) (s : σ) :
    M.run (.act a k) s = M.run (k (M.exec a s).1) (M.exec a s).2 := rfl

/-- Continue a finished run with the rest of a program. -/
def resume (f : α → Program S ε β) : Except ε α × σ → Except ε β × σ
  | (.ok a, s) => M.run (f a) s
  | (.error e, s) => (.error e, s)

@[simp] theorem resume_ok (f : α → Program S ε β) (a : α) (s : σ) :
    M.resume f (.ok a, s) = M.run (f a) s := rfl

@[simp] theorem resume_error (f : α → Program S ε β) (e : ε) (s : σ) :
    M.resume f (.error e, s) = (.error e, s) := rfl

theorem run_bind (p : Program S ε α) (f : α → Program S ε β) (s : σ) :
    M.run (p >>= f) s = M.resume f (M.run p s) := by
  induction p generalizing s with
  | done a | fail e => rfl
  | act a k ih => exact ih _ _

/-- Peel off the first part of a run that returns. -/
theorem run_bind_ok {p : Program S ε α} {f : α → Program S ε β} {s s' : σ} {b : β}
    (h : M.run (p >>= f) s = (.ok b, s')) :
    ∃ a s₁, M.run p s = (.ok a, s₁) ∧ M.run (f a) s₁ = (.ok b, s') := by
  rw [run_bind] at h
  rcases first : M.run p s with ⟨_ | a, s₁⟩
  · rw [first] at h
    cases h
  · rw [first] at h
    exact ⟨a, s₁, rfl, h⟩

/-- A run that fails does so in its first part or after it. -/
theorem run_bind_error {p : Program S ε α} {f : α → Program S ε β} {s s' : σ} {e : ε}
    (h : M.run (p >>= f) s = (.error e, s')) :
    M.run p s = (.error e, s') ∨
      ∃ a s₁, M.run p s = (.ok a, s₁) ∧ M.run (f a) s₁ = (.error e, s') := by
  rw [run_bind] at h
  rcases first : M.run p s with ⟨_ | a, s₁⟩
  · rw [first] at h
    cases h
    exact .inl rfl
  · rw [first] at h
    exact .inr ⟨a, s₁, rfl, h⟩

theorem run_attempt (p : Program S ε α) (s : σ) :
    M.run (p.attempt : Program S ε' (Except ε α)) s = (.ok (M.run p s).1, (M.run p s).2) := by
  induction p generalizing s with
  | done a | fail e => rfl
  | act a k ih => exact ih _ _

/-- Run a program that has no error to fail with. -/
def eval : Program S Empty α → σ → α × σ
  | .done a, s => (a, s)
  | .fail e, _ => nomatch e
  | .act a k, s => eval (k (M.exec a s).1) (M.exec a s).2

@[simp] theorem eval_done (a : α) (s : σ) : M.eval (.done a) s = (a, s) := rfl

@[simp] theorem eval_act (a : S.Action) (k : S.Answer a → Program S Empty α) (s : σ) :
    M.eval (.act a k) s = M.eval (k (M.exec a s).1) (M.exec a s).2 := rfl

theorem run_eq_eval (p : Program S Empty α) (s : σ) :
    M.run p s = (.ok (M.eval p s).1, (M.eval p s).2) := by
  induction p generalizing s with
  | done a => rfl
  | fail e => exact nomatch e
  | act a k ih => exact ih _ _

@[simp] theorem eval_bind (p : Program S Empty α) (f : α → Program S Empty β) (s : σ) :
    M.eval (p >>= f) s = M.eval (f (M.eval p s).1) (M.eval p s).2 := by
  induction p generalizing s with
  | done a => rfl
  | fail e => exact nomatch e
  | act a k ih => exact ih _ _

@[simp] theorem eval_attempt (p : Program S ε α) (s : σ) : M.eval p.attempt s = M.run p s := by
  induction p generalizing s with
  | done a | fail e => rfl
  | act a k ih => exact ih _ _

theorem run_settle (wrap : ε → ε') (p : Program S ε α) (s : σ) :
    M.run (p.settle wrap) s =
      (match (M.run p s).1 with
        | .ok _ => .ok ()
        | .error e => .error (wrap e), (M.run p s).2) := by
  induction p generalizing s with
  | done a | fail e => rfl
  | act a k ih => exact ih _ _

theorem run_settle_snd (wrap : ε → ε') (p : Program S ε α) (s : σ) :
    (M.run (p.settle wrap) s).2 = (M.run p s).2 := by
  rw [run_settle]

theorem run_settle_ok (wrap : ε → ε') (p : Program S ε α) (s : σ) :
    (M.run (p.settle wrap) s).1 = .ok () ↔ ∃ a, (M.run p s).1 = .ok a := by
  rw [run_settle]
  cases (M.run p s).1 <;> simp

/-- A run that finds the state changed before each of its actions, as the list
says. It is cut off when the list is used up. -/
def runAmid {ξ : Type} (change : ξ → σ → σ) :
    Program S ε α → List ξ → σ → Option (Except ε α) × σ
  | .done a, _, s => (some (.ok a), s)
  | .fail e, _, s => (some (.error e), s)
  | .act _ _, [], s => (none, s)
  | .act a k, x :: xs, s =>
      runAmid change (k (M.exec a (change x s)).1) xs (M.exec a (change x s)).2

/-- The events of a run, oldest first. -/
def events : Program S ε α → σ → List (Event S)
  | .done _, _ => []
  | .fail _, _ => []
  | .act a k, s => ⟨a, (M.exec a s).1⟩ :: events (k (M.exec a s).1) (M.exec a s).2

theorem events_attempt (p : Program S ε α) (s : σ) :
    M.events (p.attempt : Program S ε' (Except ε α)) s = M.events p s := by
  induction p generalizing s with
  | done a | fail e => rfl
  | act a k ih => exact congrArg _ (ih _ _)

theorem events_bind_ok {p : Program S ε α} {f : α → Program S ε β} {s s₁ : σ} {a : α}
    (ran : M.run p s = (.ok a, s₁)) :
    M.events (p >>= f) s = M.events p s ++ M.events (f a) s₁ := by
  induction p generalizing s with
  | done b =>
      cases ran
      rfl
  | fail e => cases ran
  | act b k ih => exact congrArg _ (ih _ ran)

theorem mem_events_bind {p : Program S ε α} {f : α → Program S ε β} {s s₁ : σ} {a : α}
    {e : Event S} (ran : M.run p s = (.ok a, s₁)) (later : e ∈ M.events (f a) s₁) :
    e ∈ M.events (p >>= f) s := by
  rw [M.events_bind_ok ran]
  exact List.mem_append_right _ later

theorem events_attempt_bind (p : Program S ε α) (f : Except ε α → Program S ε' β) (s : σ) :
    M.events (p.attempt >>= f) s =
      M.events p s ++ M.events (f (M.run p s).1) (M.run p s).2 := by
  rw [M.events_bind_ok (M.run_attempt p s), events_attempt]

theorem events_bind_error {p : Program S ε α} {f : α → Program S ε β} {s s₁ : σ} {e : ε}
    (ran : M.run p s = (.error e, s₁)) : M.events (p >>= f) s = M.events p s := by
  induction p generalizing s with
  | done b => cases ran
  | fail e => rfl
  | act b k ih => exact congrArg _ (ih _ ran)

section Rules

variable {assume : (a : S.Action) → S.Answer a → Prop} {ensure : S.Action → Prop}
  {post : α → Prop} {I : σ → Prop} {p : Program S ε α} {s : σ}

/-- Invariant rule: a contract whose actions keep `I`, and whose assumptions
hold for the answers given in `I`-states, keeps `I` over a whole run. -/
theorem run_invariant (contract : p.Upholds assume ensure post)
    (step : ∀ a s, ensure a → I s → assume a (M.exec a s).1 ∧ I (M.exec a s).2)
    (start : I s) : I (M.run p s).2 ∧ ∀ a, (M.run p s).1 = .ok a → post a := by
  induction p generalizing s with
  | done a =>
      refine ⟨start, fun b hb => ?_⟩
      cases hb
      exact contract
  | fail e => exact ⟨start, fun b hb => nomatch hb⟩
  | act a k ih =>
      obtain ⟨answered, kept⟩ := step a s contract.1 start
      exact ih _ (contract.2 _ answered) kept

/-- A run fails only with what the program can fail with. -/
theorem run_failsWith {allowed : ε → Prop} {s' : σ} {e : ε} (hp : p.FailsWith allowed)
    (failed : M.run p s = (.error e, s')) : allowed e := by
  induction p generalizing s with
  | done a => cases failed
  | fail e =>
      cases failed
      exact hp
  | act a k ih => exact ih _ (hp _) failed

/-- Whether two parts in a row return: the first returns a value with which the
second does. -/
theorem run_bind_returns {f : α → Program S ε β} {found : Option α} (test : α → Bool)
    (first : (M.run p s).1.toOption = found)
    (rest : ∀ a s', M.run p s = (.ok a, s') → (M.run (f a) s').1.toOption.isSome = test a) :
    (M.run (p >>= f) s).1.toOption.isSome = found.any test := by
  subst first
  rw [run_bind]
  rcases ran : M.run p s with ⟨e | a, s'⟩
  · rfl
  · exact rest a s' ran

/-- One step of a run in a changing environment, unless it is cut off. -/
theorem runAmid_act {ξ : Type} {change : ξ → σ → σ} {Q : Option (Except ε α) × σ → Prop}
    {a : S.Action} {k : S.Answer a → Program S ε α} {xs : List ξ} (cut : Q (none, s))
    (next : ∀ x rest r s', xs = x :: rest → (M.exec a (change x s)).1 = r →
      (M.exec a (change x s)).2 = s' → Q (M.runAmid change (k r) rest s')) :
    Q (M.runAmid change (.act a k) xs s) := by
  cases xs with
  | nil => exact cut
  | cons x xs => exact next x xs _ _ rfl rfl rfl

/-- The invariant rule for a run in a changing environment. -/
theorem runAmid_invariant {ξ : Type} (change : ξ → σ → σ) (xs : List ξ)
    (contract : p.Upholds (fun _ _ => True) ensure post)
    (step : ∀ x a s, ensure a → I s → I (M.exec a (change x s)).2) (start : I s) :
    I (M.runAmid change p xs s).2 ∧
      ∀ a, (M.runAmid change p xs s).1 = some (.ok a) → post a := by
  induction p generalizing xs s with
  | done a =>
      refine ⟨start, fun b same => ?_⟩
      cases same
      exact contract
  | fail e =>
      refine ⟨start, fun b same => ?_⟩
      cases same
  | act a k ih =>
      cases xs with
      | nil =>
          refine ⟨start, fun b same => ?_⟩
          cases same
      | cons x xs => exact ih _ xs (contract.2 _ trivial) (step x a s contract.1 start)

/-- A contract on single actions covers every event of a run. -/
theorem events_forall (contract : p.Upholds (fun _ _ => True) ensure post) :
    ∀ e ∈ M.events p s, ensure e.action := by
  induction p generalizing s with
  | done a => exact fun e member => absurd member List.not_mem_nil
  | fail e => exact fun e member => absurd member List.not_mem_nil
  | act a k ih =>
      intro e member
      rcases List.mem_cons.mp member with rfl | later
      · exact contract.1
      · exact ih _ (contract.2 _ trivial) e later

/-- Frame rule: an observation that no performed action changes is unchanged. -/
theorem run_frame {τ : Type} (view : σ → τ)
    (quiet : p.Upholds (fun _ _ => True) (fun a => ∀ s, view (M.exec a s).2 = view s)
      (fun _ => True)) (s : σ) :
    view (M.run p s).2 = view s :=
  (M.run_invariant (I := fun t => view t = view s) quiet
    (fun _ t keeps ht => ⟨trivial, (keeps t).trans ht⟩) rfl).1

end Rules

end Machine

end Interaction
