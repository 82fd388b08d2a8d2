import Qubox.Library.Pool

/-!
# Programs that endure interference

Between two actions of a program other threads act on the state. A `Regime` is what threads
that share a state agree on: an invariant, with what the phase of a thread means for it; the
changes of others that a thread may rely on; and what a thread owes before it acts. A phase is
a function of the events of its thread, and the state may have auxiliary parts that no action
reads. An action may be permitted in some states only; that is a promise of the schedule, not
of the thread.

`Now` is the condition on a program at a point of time, with any interference after each of
its actions. It is used twice: for the threads of a pool, and for a program that runs alone.
-/

namespace Interaction

/-- What the threads that share a state agree on. -/
structure Regime {S : Signature} {σ : Type} (M : Machine S σ) (τ Φ γ : Type) where
  /-- The state without its auxiliary parts. -/
  view : τ → σ
  exec : Φ → S.Action → τ → τ
  view_exec : ∀ φ a t, view (exec φ a t) = (M.exec a (view t)).2
  after : Φ → Event S → Φ
  /-- What a thread has to itself in a phase. -/
  claim : Φ → Option γ
  inv : Φ → τ → Prop
  rely : τ → τ → Prop
  rely_refl : ∀ t, rely t t
  rely_trans : ∀ {t u v}, rely t u → rely u v → rely t v
  permits : Φ → S.Action → τ → Prop
  owes : Φ → S.Action → τ → Prop
  keeps : ∀ {φ a t}, inv φ t → permits φ a t → owes φ a t →
    inv (after φ ⟨a, (M.exec a (view t)).1⟩) (exec φ a t) ∧ rely t (exec φ a t)

/-- A program as the body of a thread, which ends with what the program returns or fails with. -/
def Program.conclude {S : Signature} {ε α : Type} : Program S ε α → Program S (Except ε α) Unit
  | .done a => .fail (.ok a)
  | .fail e => .fail (.error e)
  | .act a k => .act a fun r => (k r).conclude

namespace Regime

variable {S : Signature} {σ τ Φ γ ε ε' α β : Type} {M : Machine S σ} (R : Regime M τ Φ γ)

def answer (a : S.Action) (t : τ) : S.Answer a := (M.exec a (R.view t)).1

/-- The phase of a thread after its next action. -/
def next (φ : Φ) (a : S.Action) (t : τ) : Φ := R.after φ ⟨a, R.answer a t⟩

/-- A state that a thread may find later, when it has not acted since. -/
structure Later (φ : Φ) (t t' : τ) : Prop where
  inv : R.inv φ t'
  rely : R.rely t t'

/-- The program may act in this state, and whatever others do after each of its actions, it
keeps to the regime and ends as promised. -/
def Now (post : Except ε α → Φ → τ → Prop) : Program S ε α → Φ → τ → Prop
  | .done a, φ, t => post (.ok a) φ t
  | .fail e, φ, t => post (.error e) φ t
  | .act a k, φ, t => R.permits φ a t → R.owes φ a t ∧
      ∀ t', R.Later (R.next φ a t) (R.exec φ a t) t' →
        Now post (k (R.answer a t)) (R.next φ a t) t'

/-- The program may act whenever it is scheduled next. -/
def Endures (post : Except ε α → Φ → τ → Prop) (p : Program S ε α) (φ : Φ) (t : τ) : Prop :=
  ∀ t', R.Later φ t t' → R.Now post p φ t'

section Now

variable {R} {φ : Φ} {t u : τ} {post : Except ε α → Φ → τ → Prop}

theorem Later.of_inv (inv : R.inv φ t) : R.Later φ t t := ⟨inv, R.rely_refl t⟩

theorem Endures.later {p : Program S ε α} (h : R.Endures post p φ t) (rely : R.rely t u) :
    R.Endures post p φ u :=
  fun t' later => h t' ⟨later.inv, R.rely_trans rely later.rely⟩

theorem Now.imp {weak : Except ε α → Φ → τ → Prop} {p : Program S ε α} (h : R.Now post p φ t)
    (weaker : ∀ r φ t, post r φ t → weak r φ t) : R.Now weak p φ t := by
  induction p generalizing φ t with
  | done a | fail e => exact weaker _ _ _ h
  | act a k ih =>
      intro permitted
      obtain ⟨owed, rest⟩ := h permitted
      exact ⟨owed, fun t' later => ih _ (rest t' later)⟩

theorem Now.bind {post' : Except ε β → Φ → τ → Prop} {p : Program S ε α}
    {f : α → Program S ε β} (h : R.Now post p φ t)
    (rest : ∀ a φ t, post (.ok a) φ t → R.Now post' (f a) φ t)
    (fails : ∀ e φ t, post (.error e) φ t → post' (.error e) φ t) :
    R.Now post' (p >>= f) φ t := by
  induction p generalizing φ t with
  | done a => exact rest a φ t h
  | fail e => exact fails e φ t h
  | act a k ih =>
      intro permitted
      obtain ⟨owed, next⟩ := h permitted
      exact ⟨owed, fun t' later => ih _ (next t' later)⟩

/-- What the others leave to a program is left to it over all of its actions. -/
theorem Now.later {p : Program S ε α} (h : R.Now post p φ t) (inv : R.inv φ t) :
    R.Now (fun r φ' t' => post r φ' t' ∧ R.Later φ' t t') p φ t := by
  suffices ∀ u, R.rely t u → R.inv φ u → R.Now post p φ u →
      R.Now (fun r φ' t' => post r φ' t' ∧ R.Later φ' t t') p φ u from
    this t (R.rely_refl t) inv h
  clear h inv
  induction p generalizing φ with
  | done a | fail e => exact fun u rely inv h => ⟨h, inv, rely⟩
  | act a k ih =>
      intro u rely inv h permitted
      obtain ⟨owed, next⟩ := h permitted
      refine ⟨owed, fun t' later => ih _ t' ?_ later.inv (next t' later)⟩
      exact R.rely_trans rely (R.rely_trans (R.keeps inv permitted owed).2 later.rely)

theorem Now.attempt {post : Except ε' (Except ε α) → Φ → τ → Prop} {p : Program S ε α}
    (h : R.Now (fun r => post (.ok r)) p φ t) :
    R.Now post (p.attempt : Program S ε' (Except ε α)) φ t := by
  induction p generalizing φ t with
  | done a | fail e => exact h
  | act a k ih =>
      intro permitted
      obtain ⟨owed, next⟩ := h permitted
      exact ⟨owed, fun t' later => ih _ (next t' later)⟩

theorem Now.conclude {post : Except (Except ε α) Unit → Φ → τ → Prop} {p : Program S ε α}
    (h : R.Now (fun r => post (.error r)) p φ t) : R.Now post p.conclude φ t := by
  induction p generalizing φ t with
  | done a | fail e => exact h
  | act a k ih =>
      intro permitted
      obtain ⟨owed, next⟩ := h permitted
      exact ⟨owed, fun t' later => ih _ (next t' later)⟩

/-- A program that runs alone, where nothing is forbidden. -/
theorem Now.run {p : Program S ε α} (h : R.Now post p φ t) (inv : R.inv φ t)
    (free : ∀ φ a t, R.permits φ a t) :
    ∃ φ' t', R.view t' = (M.run p (R.view t)).2 ∧ R.inv φ' t' ∧
      post (M.run p (R.view t)).1 φ' t' := by
  induction p generalizing φ t with
  | done a | fail e => exact ⟨φ, t, rfl, inv, h⟩
  | act a k ih =>
      obtain ⟨owed, next⟩ := h (free φ a t)
      have kept := (R.keeps inv (free φ a t) owed).1
      have found := ih (R.answer a t) (next _ (.of_inv kept)) kept
      rw [R.view_exec] at found
      exact found

end Now

/-! ## Pools -/

/-- An action leaves the other threads what they have, and takes nothing of theirs. -/
def Considerate : Prop :=
  ∀ φ a t ψ, R.inv φ t → R.permits φ a t → R.owes φ a t → R.inv ψ t →
    (∀ g, R.claim φ = some g → R.claim ψ ≠ some g) →
      R.inv ψ (R.exec φ a t) ∧ ∀ g, R.claim (R.next φ a t) = some g → R.claim ψ ≠ some g

/-- The phase that a thread has come to. -/
def phase (φ : Φ) (past : List (Event S)) : Φ := past.foldl R.after φ

theorem phase_append (φ : Φ) (past : List (Event S)) (e : Event S) :
    R.phase φ (past ++ [e]) = R.after (R.phase φ past) e :=
  List.foldl_append

end Regime

/-- A regime for the threads of a system: the phase that a call begins in, what its thread ends
with, and what a disturbance does to the auxiliary parts of a state. -/
structure Governance {S : Signature} {σ ε κ ξ : Type} (Y : System S σ ε κ ξ) (τ Φ γ : Type)
    extends Regime Y.toMachine τ Φ γ where
  considerate : toRegime.Considerate
  begin : κ → Φ
  begin_claim : ∀ c, claim (begin c) = none
  result : κ → Except ε Unit → Φ → τ → Prop
  body_now : ∀ c t, inv (begin c) t → toRegime.Now (result c) (Y.body c) (begin c) t
  alter : ξ → τ → τ
  view_alter : ∀ x t, view (alter x t) = Y.change x (view t)
  inv_alter : ∀ x φ t, inv φ t → inv φ (alter x t)
  rely_alter : ∀ x t, rely t (alter x t)

namespace Governance

variable {S : Signature} {σ ε κ ξ τ Φ γ : Type} {Y : System S σ ε κ ξ} (G : Governance Y τ Φ γ)

/-- The phase of the thread of a call, by the events of the thread. -/
def phaseOf (c : κ) (past : List (Event S)) : Φ := G.toRegime.phase (G.begin c) past

/-- The state with its auxiliary parts after a move. -/
def track (past : Nat → List (Event S)) (P : Pool S σ ε κ) (t : τ) : Move κ ξ → τ
  | .call _ => t
  | .disturb x => G.alter x t
  | .step i =>
      match P.threads[i]? with
      | some ⟨c, .act a _⟩ => G.exec (G.phaseOf c (past i)) a t
      | _ => t

/-- Every thread is in order in the present state, and no two make one claim. -/
structure Governed (past : Nat → List (Event S)) (t : τ) (P : Pool S σ ε κ) : Prop where
  shared : G.view t = P.shared
  idle : ∀ c, G.inv (G.begin c) t
  threads : ∀ i u, P.threads[i]? = some u → G.inv (G.phaseOf u.call (past i)) t ∧
    G.Endures (G.result u.call) u.rest (G.phaseOf u.call (past i)) t
  apart : ∀ (i j : Nat) u v g, P.threads[i]? = some u → P.threads[j]? = some v →
    G.claim (G.phaseOf u.call (past i)) = some g →
    G.claim (G.phaseOf v.call (past j)) = some g → i = j
  uncalled : ∀ i, P.threads.length ≤ i → past i = []

/-- The move performs a permitted action, or none. -/
def Permitted (past : Nat → List (Event S)) (t : τ) (P : Pool S σ ε κ) (m : Move κ ξ) : Prop :=
  ∀ i c a k, m = .step i → P.threads[i]? = some ⟨c, .act a k⟩ →
    G.permits (G.phaseOf c (past i)) a t

variable {G} {past : Nat → List (Event S)} {t : τ} {P : Pool S σ ε κ}

theorem Governed.call (h : G.Governed past t P) (c : κ) :
    G.Governed past t (Y.move P (.call c)) := by
  have fresh : G.phaseOf c (past P.threads.length) = G.begin c := by
    rw [h.uncalled _ (Nat.le_refl _)]
    rfl
  refine ⟨h.shared, h.idle, fun i u found => ?_, fun i j u v g ui vj ug vg => ?_,
    fun i late => h.uncalled i ?_⟩
  · rcases System.thread_of_append found with ⟨rfl, rfl⟩ | old
    · rw [fresh]
      exact ⟨h.idle c, fun t' later => G.body_now c t' later.inv⟩
    · exact h.threads i u old
  · rcases System.thread_of_append ui with ⟨rfl, rfl⟩ | ui
    · rw [fresh, G.begin_claim] at ug
      cases ug
    · rcases System.thread_of_append vj with ⟨rfl, rfl⟩ | vj
      · rw [fresh, G.begin_claim] at vg
        cases vg
      · exact h.apart i j u v g ui vj ug vg
  · exact Nat.le_trans (List.sublist_append_left _ _).length_le late

theorem Governed.disturb (h : G.Governed past t P) (x : ξ) :
    G.Governed past (G.alter x t) (Y.move P (.disturb x)) := by
  refine ⟨?_, fun c => G.inv_alter x _ t (h.idle c), fun i u found => ?_, h.apart, h.uncalled⟩
  · rw [G.view_alter, h.shared]
    rfl
  · obtain ⟨inv, endures⟩ := h.threads i u found
    exact ⟨G.inv_alter x _ t inv, endures.later (G.rely_alter x t)⟩

/-- The step of a thread: its own phase changes, and the others endure it. -/
theorem Governed.act (h : G.Governed past t P) {i : Nat} {c : κ} {a : S.Action}
    {k : S.Answer a → Program S ε Unit} (found : P.threads[i]? = some ⟨c, .act a k⟩)
    (permitted : G.permits (G.phaseOf c (past i)) a t) :
    G.Governed (fun j => past j ++ Y.performedBy j P (.step i : Move κ ξ))
      (G.exec (G.phaseOf c (past i)) a t) (Y.move P (.step i)) := by
  obtain ⟨inv, endures⟩ := h.threads i _ found
  obtain ⟨owed, rest⟩ := endures t (.of_inv inv) permitted
  obtain ⟨kept, relied⟩ := G.keeps inv permitted owed
  have own : past i ++ Y.performedBy i P (.step i : Move κ ξ) =
      past i ++ [⟨a, (Y.exec a P.shared).1⟩] := by
    rw [System.performedBy, if_pos rfl, Y.performed_act found]
  have others {j : Nat} (different : j ≠ i) :
      past j ++ Y.performedBy j P (.step i : Move κ ξ) = past j := by
    rw [System.performedBy, if_neg (Ne.symm different), List.append_nil]
  have reached : G.phaseOf c (past i ++ [⟨a, (Y.exec a P.shared).1⟩]) =
      G.next (G.phaseOf c (past i)) a t := by
    rw [phaseOf, G.phase_append, ← h.shared]
    rfl
  have spared {ψ : Φ} (inv' : G.inv ψ t)
      (apart : ∀ g, G.claim (G.phaseOf c (past i)) = some g → G.claim ψ ≠ some g) :=
    G.considerate _ a t ψ inv permitted owed inv' apart
  have apart {j : Nat} {v : Thread S ε κ} (different : j ≠ i) (vj : P.threads[j]? = some v) (g : γ)
      (ug : G.claim (G.phaseOf c (past i)) = some g) :
      G.claim (G.phaseOf v.call (past j)) ≠ some g :=
    fun vg => different (h.apart j i v _ g vj found vg ug)
  change G.Governed _ _ (Y.advance P i)
  rw [Y.advance_act found]
  refine ⟨?_, fun c' => (spared (h.idle c') ?_).1, fun j v vj => ?_, fun j j' u v g uj vj ug vg => ?_,
    fun j late => ?_⟩
  · rw [G.view_exec, h.shared]
  · exact fun g _ => by simp [G.begin_claim]
  · rcases System.thread_of_set vj with ⟨rfl, rfl⟩ | ⟨different, before⟩
    · rw [own, reached, ← h.shared]
      exact ⟨kept, fun t' later => rest t' later⟩
    · rw [others different]
      obtain ⟨inv', endures'⟩ := h.threads j v before
      exact ⟨(spared inv' (apart different before)).1, endures'.later relied⟩
  · have clash {j : Nat} {v : Thread S ε κ} (different : j ≠ i) (vj : P.threads[j]? = some v)
        (ug : G.claim (G.phaseOf c (past i ++ Y.performedBy i P (.step i : Move κ ξ))) = some g)
        (vg : G.claim (G.phaseOf v.call (past j ++ Y.performedBy j P (.step i : Move κ ξ))) =
          some g) : False := by
      rw [own, reached] at ug
      rw [others different] at vg
      exact (spared (h.threads j v vj).1 (apart different vj)).2 g ug vg
    rcases System.thread_of_set uj with ⟨rfl, rfl⟩ | ⟨different, before⟩
    · rcases System.thread_of_set vj with ⟨rfl, rfl⟩ | ⟨different', before'⟩
      · rfl
      · exact (clash different' before' ug vg).elim
    · rcases System.thread_of_set vj with ⟨rfl, rfl⟩ | ⟨different', before'⟩
      · exact (clash different before vg ug).elim
      · rw [others different] at ug
        rw [others different'] at vg
        exact h.apart j j' u v g before before' ug vg
  · rw [List.length_set] at late
    have present := (List.getElem?_eq_some_iff.mp found).1
    rw [others (by omega), h.uncalled j late]

/-- A permitted move keeps every thread in order. -/
theorem Governed.move (h : G.Governed past t P) {m : Move κ ξ} (permitted : G.Permitted past t P m) :
    G.Governed (fun i => past i ++ Y.performedBy i P m) (G.track past P t m) (Y.move P m) := by
  cases m with
  | call c =>
      simp only [System.performedBy, List.append_nil]
      exact h.call c
  | disturb x =>
      simp only [System.performedBy, List.append_nil]
      exact h.disturb x
  | step i =>
      by_cases acts : ∃ c a k, P.threads[i]? = some ⟨c, .act a k⟩
      case neg =>
        have idle : G.track past P t (.step i) = t := by
          simp only [track]
          split
          case h_1 c a k found => exact absurd ⟨c, a, k, found⟩ acts
          case h_2 => rfl
        obtain ⟨same, nothing⟩ := (Y.step_cases P i).resolve_right acts
        simp only [System.move, same, System.performedBy, nothing, ite_self, List.append_nil, idle]
        exact h
      case pos =>
        obtain ⟨c, a, k, found⟩ := acts
        have tracked : G.track past P t (.step i) = G.exec (G.phaseOf c (past i)) a t := by
          simp only [track, found]
        rw [tracked]
        exact h.act found (permitted i c a k rfl found)

end Governance

end Interaction
