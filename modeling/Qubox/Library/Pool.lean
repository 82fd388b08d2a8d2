import Mathlib.Logic.Function.Basic
import Qubox.Library.Interaction

/-!
# Pools of interleaved threads

A pool is a shared state with a list of threads, each the rest of some call's
program. A `Move` starts a call, performs the next action of one thread, or lets
the environment change the state. Every list of moves is a schedule, so a statement
about all schedules is one about all interleavings of any number of calls. A thread
that has returned or failed stays in the list.

`Along` restricts a schedule move by move, each against the pool it is made in.
The invariant rules below need one fact about an action and one about a call;
the induction over schedules is done here once.
-/

namespace Interaction

/-- A call together with what is left of its program. -/
structure Thread (S : Signature) (ε κ : Type) where
  call : κ
  rest : Program S ε Unit

/-- A shared state and the threads acting on it, in the order of their calls. -/
structure Pool (S : Signature) (σ ε κ : Type) where
  shared : σ
  threads : List (Thread S ε κ)

/-- What may happen next: a new call, one action of a thread, or a change made
by the environment. -/
inductive Move (κ ξ : Type) where
  | call (c : κ)
  | step (index : Nat)
  | disturb (x : ξ)

/-- A machine, the program of each call, and the effect of each disturbance. -/
structure System (S : Signature) (σ ε κ ξ : Type) extends Machine S σ where
  body : κ → Program S ε Unit
  change : ξ → σ → σ

namespace Thread

variable {S : Signature} {ε κ : Type}

/-- The action a thread performs when it is scheduled next. -/
def next? (t : Thread S ε κ) : Option S.Action :=
  match t.rest with
  | .act a _ => some a
  | _ => none

@[simp] theorem next?_act (c : κ) (a : S.Action) (k : S.Answer a → Program S ε Unit) :
    (Thread.mk c (.act a k)).next? = some a := rfl

@[simp] theorem next?_done (c : κ) (u : Unit) :
    (Thread.mk c (.done u) : Thread S ε κ).next? = none := rfl

@[simp] theorem next?_fail (c : κ) (e : ε) :
    (Thread.mk c (.fail e) : Thread S ε κ).next? = none := rfl

/-- The call of a thread and its outcome so far. -/
def status (t : Thread S ε κ) : κ × Option (Except ε Unit) := (t.call, t.rest.outcome?)

end Thread

/-- The action a move performs, if it performs one. -/
def Pool.next? {S : Signature} {σ ε κ ξ : Type} (P : Pool S σ ε κ) : Move κ ξ → Option S.Action
  | .step index => P.threads[index]?.bind Thread.next?
  | _ => none

theorem Pool.next?_step {S : Signature} {σ ε κ ξ : Type} {P : Pool S σ ε κ} {index : Nat} {c : κ}
    {a : S.Action} {k : S.Answer a → Program S ε Unit}
    (h : P.threads[index]? = some ⟨c, .act a k⟩) :
    P.next? (.step index : Move κ ξ) = some a := by
  simp [Pool.next?, h]

namespace System

variable {S : Signature} {σ ε κ ξ : Type} (Y : System S σ ε κ ξ)

/-- Perform the next action of the thread at `index`, if it has one. -/
def advance (P : Pool S σ ε κ) (index : Nat) : Pool S σ ε κ :=
  match P.threads[index]? with
  | some ⟨c, .act a k⟩ =>
      { shared := (Y.exec a P.shared).2
        threads := P.threads.set index ⟨c, k (Y.exec a P.shared).1⟩ }
  | _ => P

def move (P : Pool S σ ε κ) : Move κ ξ → Pool S σ ε κ
  | .call c => { P with threads := P.threads ++ [⟨c, Y.body c⟩] }
  | .step index => Y.advance P index
  | .disturb x => { P with shared := Y.change x P.shared }

/-- Carry out a schedule. -/
def schedule (P : Pool S σ ε κ) (moves : List (Move κ ξ)) : Pool S σ ε κ :=
  moves.foldl Y.move P

@[simp] theorem schedule_nil (P : Pool S σ ε κ) : Y.schedule P [] = P := rfl

@[simp] theorem schedule_cons (P : Pool S σ ε κ) (m : Move κ ξ) (ms : List (Move κ ξ)) :
    Y.schedule P (m :: ms) = Y.schedule (Y.move P m) ms := rfl

theorem schedule_append (P : Pool S σ ε κ) (first second : List (Move κ ξ)) :
    Y.schedule P (first ++ second) = Y.schedule (Y.schedule P first) second :=
  List.foldl_append

theorem advance_act {P : Pool S σ ε κ} {index : Nat} {c : κ} {a : S.Action}
    {k : S.Answer a → Program S ε Unit} (h : P.threads[index]? = some ⟨c, .act a k⟩) :
    Y.advance P index =
      { shared := (Y.exec a P.shared).2
        threads := P.threads.set index ⟨c, k (Y.exec a P.shared).1⟩ } := by
  simp only [advance, h]

/-- Everything a scheduled step can do: nothing, or exactly one action. -/
theorem advance_cases (P : Pool S σ ε κ) (index : Nat) :
    Y.advance P index = P ∨
      ∃ c a k, P.threads[index]? = some ⟨c, .act a k⟩ ∧
        Y.advance P index =
          { shared := (Y.exec a P.shared).2
            threads := P.threads.set index ⟨c, k (Y.exec a P.shared).1⟩ } := by
  rcases h : P.threads[index]? with _ | ⟨c, rest⟩
  · exact .inl (by simp only [advance, h])
  · cases rest with
    | done u | fail e => exact .inl (by simp only [advance, h])
    | act a k => exact .inr ⟨c, a, k, rfl, Y.advance_act h⟩

/-- A thread of the pool after a step is the one that acted or an old one. -/
theorem thread_of_set {threads : List (Thread S ε κ)} {i j : Nat} {t u : Thread S ε κ}
    (found : (threads.set i t)[j]? = some u) : j = i ∧ u = t ∨ j ≠ i ∧ threads[j]? = some u := by
  rw [List.getElem?_set] at found
  split at found
  case isTrue same =>
    split at found
    case isTrue => exact .inl ⟨same.symm, (Option.some.inj found).symm⟩
    case isFalse => cases found
  case isFalse different => exact .inr ⟨Ne.symm different, found⟩

/-- A thread of the pool after a call is the new one or an old one. -/
theorem thread_of_append {threads : List (Thread S ε κ)} {j : Nat} {t u : Thread S ε κ}
    (found : (threads ++ [t])[j]? = some u) :
    u = t ∧ j = threads.length ∨ threads[j]? = some u := by
  rw [List.getElem?_append] at found
  split at found
  case isTrue => exact .inr found
  case isFalse late =>
    rw [List.getElem?_singleton] at found
    split at found
    case isTrue last => exact .inl ⟨(Option.some.inj found).symm, by omega⟩
    case isFalse => cases found

/-- A thread other than the one that acts is still there after the step. -/
theorem mem_set_of_mem_eraseIdx {threads : List (Thread S ε κ)} {i : Nat} {t u : Thread S ε κ}
    (other : u ∈ threads.eraseIdx i) : u ∈ threads.set i t := by
  obtain ⟨j, different, found⟩ := List.mem_eraseIdx_iff_getElem?.mp other
  exact List.mem_of_getElem? ((List.getElem?_set_ne (Ne.symm different)).trans found)

/-- Each move of the schedule satisfies `ok` in the pool it is made in. -/
def Along (ok : Pool S σ ε κ → Move κ ξ → Prop) : Pool S σ ε κ → List (Move κ ξ) → Prop
  | _, [] => True
  | P, m :: ms => ok P m ∧ Along ok (Y.move P m) ms

instance decidableAlong (ok : Pool S σ ε κ → Move κ ξ → Prop) [∀ P m, Decidable (ok P m)] :
    ∀ P moves, Decidable (Y.Along ok P moves)
  | _, [] => isTrue trivial
  | P, m :: ms =>
      haveI := decidableAlong ok (Y.move P m) ms
      inferInstanceAs (Decidable (ok P m ∧ Y.Along ok (Y.move P m) ms))

theorem along_append {ok : Pool S σ ε κ → Move κ ξ → Prop} {P : Pool S σ ε κ}
    {first second : List (Move κ ξ)} :
    Y.Along ok P (first ++ second) ↔
      Y.Along ok P first ∧ Y.Along ok (Y.schedule P first) second := by
  induction first generalizing P with
  | nil => exact ⟨fun h => ⟨trivial, h⟩, fun h => h.2⟩
  | cons m ms ih =>
      constructor
      · rintro ⟨hm, rest⟩
        exact ⟨⟨hm, (ih.mp rest).1⟩, (ih.mp rest).2⟩
      · rintro ⟨⟨hm, before⟩, after⟩
        exact ⟨hm, ih.mpr ⟨before, after⟩⟩

theorem along_of_forall_mem {ok : Pool S σ ε κ → Move κ ξ → Prop} {moves : List (Move κ ξ)}
    (all : ∀ P, ∀ m ∈ moves, ok P m) (P : Pool S σ ε κ) : Y.Along ok P moves := by
  induction moves generalizing P with
  | nil => trivial
  | cons m ms ih =>
      exact ⟨all P m List.mem_cons_self, ih (fun P' m' later => all P' m' (.tail _ later)) _⟩

/-- The moves of a permitted schedule are permitted as moves of it. -/
theorem Along.of_mem {ok : Pool S σ ε κ → Move κ ξ → Prop} {P : Pool S σ ε κ}
    {moves : List (Move κ ξ)} (permitted : Y.Along ok P moves) :
    Y.Along (fun P m => m ∈ moves ∧ ok P m) P moves := by
  suffices ∀ rest P, rest ⊆ moves → Y.Along ok P rest →
      Y.Along (fun P m => m ∈ moves ∧ ok P m) P rest from
    this moves P (List.Subset.refl _) permitted
  intro rest
  induction rest with
  | nil => exact fun _ _ _ => trivial
  | cons m ms ih =>
      intro P within permitted
      exact ⟨⟨within List.mem_cons_self, permitted.1⟩,
        ih _ (fun m' later => within (.tail _ later)) permitted.2⟩

/-- Induction over schedules: a property of pools kept by every permitted move
holds after every permitted schedule. -/
theorem schedule_invariant {ok : Pool S σ ε κ → Move κ ξ → Prop} {I : Pool S σ ε κ → Prop}
    (step : ∀ P m, ok P m → I P → I (Y.move P m)) {P : Pool S σ ε κ} (start : I P)
    {moves : List (Move κ ξ)} (permitted : Y.Along ok P moves) :
    I (Y.schedule P moves) := by
  induction moves generalizing P with
  | nil => exact start
  | cons m ms ih => exact ih (step P m permitted.1 start) permitted.2

/-- A schedule is permitted in a second sense when each of its moves is, given
an invariant of the schedule. -/
theorem Along.imp {ok ok' : Pool S σ ε κ → Move κ ξ → Prop} {I : Pool S σ ε κ → Prop}
    (step : ∀ P m, ok P m → I P → I (Y.move P m)) (weaker : ∀ P m, ok P m → I P → ok' P m)
    {P : Pool S σ ε κ} (start : I P) {moves : List (Move κ ξ)} (permitted : Y.Along ok P moves) :
    Y.Along ok' P moves := by
  induction moves generalizing P with
  | nil => trivial
  | cons m ms ih =>
      exact ⟨weaker P m permitted.1 start, ih (step P m permitted.1 start) permitted.2⟩

/-! ## Histories -/

/-- The action a move performs, with the answer it gets; at most one. -/
def performed (P : Pool S σ ε κ) : Move κ ξ → List (Event S)
  | .step index =>
      match P.threads[index]? with
      | some ⟨_, .act a _⟩ => [⟨a, (Y.exec a P.shared).1⟩]
      | _ => []
  | _ => []

/-- All actions performed by a schedule, oldest first. -/
def trace : Pool S σ ε κ → List (Move κ ξ) → List (Event S)
  | _, [] => []
  | P, m :: ms => Y.performed P m ++ trace (Y.move P m) ms

theorem trace_append (P : Pool S σ ε κ) (first second : List (Move κ ξ)) :
    Y.trace P (first ++ second) = Y.trace P first ++ Y.trace (Y.schedule P first) second := by
  induction first generalizing P with
  | nil => rfl
  | cons m ms ih => simp [trace, ih]

theorem performed_act {P : Pool S σ ε κ} {index : Nat} {c : κ} {a : S.Action}
    {k : S.Answer a → Program S ε Unit} (h : P.threads[index]? = some ⟨c, .act a k⟩) :
    Y.performed P (.step index : Move κ ξ) = [⟨a, (Y.exec a P.shared).1⟩] := by
  simp only [performed, h]

/-- A scheduled step performs the next action of its thread, or nothing happens. -/
theorem step_cases (P : Pool S σ ε κ) (index : Nat) :
    (Y.advance P index = P ∧ Y.performed P (.step index : Move κ ξ) = []) ∨
      ∃ c a k, P.threads[index]? = some ⟨c, .act a k⟩ := by
  rcases h : P.threads[index]? with _ | ⟨c, rest⟩
  · exact .inl (by simp only [advance, performed, h, and_self])
  · cases rest with
    | done u | fail e => exact .inl (by simp only [advance, performed, h, and_self])
    | act a k => exact .inr ⟨c, a, k, rfl⟩

theorem exists_of_mem_performed {P : Pool S σ ε κ} {m : Move κ ξ} {e : Event S}
    (member : e ∈ Y.performed P m) :
    ∃ i c k, m = .step i ∧ P.threads[i]? = some ⟨c, .act e.action k⟩ := by
  cases m with
  | call c | disturb x => cases member
  | step i =>
      rcases found : P.threads[i]? with _ | ⟨c, rest⟩
      · simp [performed, found] at member
      · cases rest with
        | done u | fail e' => simp [performed, found] at member
        | act a k =>
            rw [Y.performed_act found] at member
            obtain rfl := List.mem_singleton.mp member
            exact ⟨i, c, k, rfl, found⟩

/-- Induction over schedules for a property that speaks of the history. -/
theorem trace_invariant {I : List (Event S) → Pool S σ ε κ → Prop}
    (step : ∀ past P m, I past P → I (past ++ Y.performed P m) (Y.move P m))
    {P : Pool S σ ε κ} {past : List (Event S)} (start : I past P) (moves : List (Move κ ξ)) :
    I (past ++ Y.trace P moves) (Y.schedule P moves) := by
  induction moves generalizing P past with
  | nil => simpa [trace] using start
  | cons m ms ih => simpa [trace] using ih (step past P m start)

/-- Every event of a permitted schedule satisfies what an invariant implies for
the next one. -/
theorem trace_forall {ok : Pool S σ ε κ → Move κ ξ → Prop} {I : Pool S σ ε κ → Prop}
    {Q : Event S → Prop} (step : ∀ P m, ok P m → I P → I (Y.move P m))
    (event : ∀ P m, I P → ∀ e ∈ Y.performed P m, Q e) {P : Pool S σ ε κ} (start : I P)
    {moves : List (Move κ ξ)} (permitted : Y.Along ok P moves) : ∀ e ∈ Y.trace P moves, Q e := by
  induction moves generalizing P with
  | nil => exact fun e member => absurd member List.not_mem_nil
  | cons m ms ih =>
      intro e member
      rcases List.mem_append.mp member with now | later
      · exact event P m start e now
      · exact ih (step P m permitted.1 start) permitted.2 e later

/-- Every thread stays justified by the history, when its call starts justified
and a longer history justifies no less. -/
theorem justified_move (cause : κ → List (Event S) → S.Action → Prop)
    (mono : ∀ c a past later, past ⊆ later → cause c past a → cause c later a)
    (bodies : ∀ c, (Y.body c).Justified (cause c) (fun _ _ => True) [])
    {past : List (Event S)} {P : Pool S σ ε κ} (m : Move κ ξ)
    (h : ∀ t ∈ P.threads, t.rest.Justified (cause t.call) (fun _ _ => True) past) :
    ∀ t ∈ (Y.move P m).threads,
      t.rest.Justified (cause t.call) (fun _ _ => True) (past ++ Y.performed P m) := by
  have longer (t : Thread S ε κ) (later : List (Event S))
      (justified : t.rest.Justified (cause t.call) (fun _ _ => True) past)
      (more : past ⊆ later) : t.rest.Justified (cause t.call) (fun _ _ => True) later :=
    justified.mono more (fun a => mono t.call a) fun _ _ _ _ _ => trivial
  intro t member
  cases m with
  | call c =>
      rcases List.mem_append.mp member with old | new
      · exact longer t _ (h t old) (List.subset_append_left _ _)
      · obtain rfl := List.mem_singleton.mp new
        exact (bodies c).mono (List.nil_subset _) (fun a => mono c a) fun _ _ _ _ _ => trivial
  | disturb x => exact longer t _ (h t member) (List.subset_append_left _ _)
  | step i =>
      rcases Y.advance_cases P i with same | ⟨c, a, k, found, moved⟩
      · simp only [move, same] at member
        exact longer t _ (h t member) (List.subset_append_left _ _)
      · simp only [move, moved] at member
        rcases List.mem_or_eq_of_mem_set member with old | rfl
        · exact longer t _ (h t old) (List.subset_append_left _ _)
        · rw [Y.performed_act found]
          exact (h _ (List.mem_of_getElem? found)).2 _

/-- A state invariant together with a property of the rest of every thread. -/
structure Holds (I : σ → Prop) (J : Thread S ε κ → Prop) (P : Pool S σ ε κ) : Prop where
  shared : I P.shared
  threads : ∀ t ∈ P.threads, J t

/-- Rely-guarantee rule. It suffices that new calls satisfy `J`, that permitted
disturbances keep `I`, and that one permitted action of a `J`-thread in an
`I`-state keeps both; the other threads of the pool are untouched by it. -/
theorem Holds.move {I : σ → Prop} {J : Thread S ε κ → Prop} {P : Pool S σ ε κ} {m : Move κ ξ}
    (h : Holds I J P)
    (calls : ∀ c, m = .call c → J ⟨c, Y.body c⟩)
    (disturbed : ∀ x, m = .disturb x → I (Y.change x P.shared))
    (acted : ∀ i c a k, m = .step i → P.threads[i]? = some ⟨c, .act a k⟩ →
      I (Y.exec a P.shared).2 ∧ J ⟨c, k (Y.exec a P.shared).1⟩) :
    Holds I J (Y.move P m) := by
  cases m with
  | call c =>
      refine ⟨h.shared, fun t member => ?_⟩
      rcases List.mem_append.mp member with old | new
      · exact h.threads t old
      · rw [List.mem_singleton.mp new]
        exact calls c rfl
  | disturb x => exact ⟨disturbed x rfl, h.threads⟩
  | step i =>
      rcases Y.advance_cases P i with same | ⟨c, a, k, found, moved⟩
      · change Holds I J (Y.advance P i)
        rw [same]
        exact h
      · obtain ⟨state, thread⟩ := acted i c a k rfl found
        change Holds I J (Y.advance P i)
        rw [moved]
        refine ⟨state, fun t member => ?_⟩
        rcases List.mem_or_eq_of_mem_set member with old | rfl
        · exact h.threads t old
        · exact thread

/-- A state invariant, a phase of each thread with what it means for the state, and
a claim that no two threads make at the same time. -/
structure HoldsApart {Φ γ : Type} (I : σ → Prop) (J : σ → Φ → Thread S ε κ → Prop)
    (claim : Φ → Thread S ε κ → Option γ) (P : Pool S σ ε κ) : Prop where
  shared : I P.shared
  phased : ∃ phase : Nat → Φ,
    (∀ i t, P.threads[i]? = some t → J P.shared (phase i) t) ∧
    ∀ (i j : Nat) t u g, P.threads[i]? = some t → P.threads[j]? = some u →
      claim (phase i) t = some g → claim (phase j) u = some g → i = j

theorem HoldsApart.of_mem {Φ γ : Type} {I : σ → Prop} {J : σ → Φ → Thread S ε κ → Prop}
    {claim : Φ → Thread S ε κ → Option γ} {P : Pool S σ ε κ} (h : HoldsApart I J claim P)
    {t : Thread S ε κ} (member : t ∈ P.threads) : ∃ φ, J P.shared φ t := by
  obtain ⟨phase, threads, -⟩ := h.phased
  obtain ⟨i, found⟩ := List.getElem?_of_mem member
  exact ⟨phase i, threads i t found⟩

/-- What the threads other than the acting one keep may rest on their not making
its claim, and they must not make its new one. -/
theorem HoldsApart.move {Φ γ : Type} {I : σ → Prop} {J : σ → Φ → Thread S ε κ → Prop}
    {claim : Φ → Thread S ε κ → Option γ} {P : Pool S σ ε κ} {m : Move κ ξ}
    (h : HoldsApart I J claim P)
    (calls : ∀ c, m = .call c →
      ∃ φ, J P.shared φ ⟨c, Y.body c⟩ ∧ claim φ ⟨c, Y.body c⟩ = none)
    (disturbed : ∀ x, m = .disturb x →
      I (Y.change x P.shared) ∧ ∀ φ t, J P.shared φ t → J (Y.change x P.shared) φ t)
    (acted : ∀ i c a k φ, m = .step i → P.threads[i]? = some ⟨c, .act a k⟩ →
      J P.shared φ ⟨c, .act a k⟩ →
        I (Y.exec a P.shared).2 ∧ ∃ φ', J (Y.exec a P.shared).2 φ' ⟨c, k (Y.exec a P.shared).1⟩ ∧
          ∀ ψ, ∀ u ∈ P.threads.eraseIdx i, J P.shared ψ u →
            (∀ g, claim φ ⟨c, .act a k⟩ = some g → claim ψ u ≠ some g) →
            J (Y.exec a P.shared).2 ψ u ∧
              ∀ g, claim φ' ⟨c, k (Y.exec a P.shared).1⟩ = some g → claim ψ u ≠ some g) :
    HoldsApart I J claim (Y.move P m) := by
  obtain ⟨phase, threads, apart⟩ := h.phased
  cases m with
  | call c =>
      obtain ⟨φ, fits, unclaimed⟩ := calls c rfl
      have fresh {i : Nat} {t : Thread S ε κ} (old : P.threads[i]? = some t) :
          Function.update phase P.threads.length φ i = phase i :=
        Function.update_of_ne (Nat.ne_of_lt (List.getElem?_eq_some_iff.mp old).1) _ _
      refine ⟨h.shared, Function.update phase P.threads.length φ, fun i t found => ?_,
        fun i j t u g ti uj tg ug => ?_⟩
      · rcases thread_of_append found with ⟨rfl, rfl⟩ | old
        · rw [Function.update_self]
          exact fits
        · rw [fresh old]
          exact threads i t old
      · rcases thread_of_append ti with ⟨rfl, rfl⟩ | ti
        · rw [Function.update_self, unclaimed] at tg
          cases tg
        · rcases thread_of_append uj with ⟨rfl, rfl⟩ | uj
          · rw [Function.update_self, unclaimed] at ug
            cases ug
          · rw [fresh ti] at tg
            rw [fresh uj] at ug
            exact apart i j t u g ti uj tg ug
  | disturb x =>
      obtain ⟨state, kept⟩ := disturbed x rfl
      exact ⟨state, phase, fun i t found => kept _ t (threads i t found), apart⟩
  | step i =>
      change HoldsApart I J claim (Y.advance P i)
      rcases Y.advance_cases P i with same | ⟨c, a, k, found, moved⟩
      · rw [same]
        exact h
      · obtain ⟨state, φ', thread, others⟩ := acted i c a k (phase i) rfl found (threads i _ found)
        have other (j : Nat) (u : Thread S ε κ) (different : j ≠ i)
            (uj : P.threads[j]? = some u) : J (Y.exec a P.shared).2 (phase j) u ∧
              ∀ g, claim φ' ⟨c, k (Y.exec a P.shared).1⟩ = some g →
                claim (phase j) u ≠ some g :=
          others (phase j) u (List.mem_eraseIdx_iff_getElem?.mpr ⟨j, different, uj⟩)
            (threads j u uj) fun g tg ug => different (apart j i u _ g uj found ug tg)
        rw [moved]
        refine ⟨state, Function.update phase i φ', fun j t tj => ?_,
          fun j j' t u g tj uj tg ug => ?_⟩
        · rcases thread_of_set tj with ⟨rfl, rfl⟩ | ⟨different, before⟩
          · rw [Function.update_self]
            exact thread
          · rw [Function.update_of_ne different]
            exact (other j t different before).1
        · rcases thread_of_set tj with ⟨rfl, rfl⟩ | ⟨different, before⟩
          · rw [Function.update_self] at tg
            rcases thread_of_set uj with ⟨rfl, rfl⟩ | ⟨different, before⟩
            · rfl
            · rw [Function.update_of_ne different] at ug
              exact absurd ug ((other j' u different before).2 g tg)
          · rw [Function.update_of_ne different] at tg
            rcases thread_of_set uj with ⟨rfl, rfl⟩ | ⟨different', also⟩
            · rw [Function.update_self] at ug
              exact absurd tg ((other j t different before).2 g ug)
            · rw [Function.update_of_ne different'] at ug
              exact apart j j' t u g before also tg ug

/-! ## Calls one after the other

A thread that makes no further step once a later call is there has ended or was
cut off. -/

/-- A state invariant together with what the latest thread has of the state. -/
structure HoldsLatest (I : σ → Prop) (J : σ → Thread S ε κ → Prop) (P : Pool S σ ε κ) : Prop where
  shared : I P.shared
  latest : ∀ t, P.threads.getLast? = some t → J P.shared t

theorem HoldsLatest.move {I : σ → Prop} {J : σ → Thread S ε κ → Prop} {P : Pool S σ ε κ}
    {m : Move κ ξ} (h : HoldsLatest I J P)
    (calls : ∀ c, m = .call c → J P.shared ⟨c, Y.body c⟩)
    (disturbed : ∀ x, m = .disturb x →
      I (Y.change x P.shared) ∧ ∀ t, J P.shared t → J (Y.change x P.shared) t)
    (turn : ∀ i, m = .step i → i + 1 = P.threads.length)
    (acted : ∀ i c a k, m = .step i → P.threads[i]? = some ⟨c, .act a k⟩ →
      J P.shared ⟨c, .act a k⟩ →
        I (Y.exec a P.shared).2 ∧ J (Y.exec a P.shared).2 ⟨c, k (Y.exec a P.shared).1⟩) :
    HoldsLatest I J (Y.move P m) := by
  cases m with
  | call c =>
      refine ⟨h.shared, fun t last => ?_⟩
      obtain rfl : ⟨c, Y.body c⟩ = t := by simpa [System.move] using last
      exact calls c rfl
  | disturb x =>
      obtain ⟨state, kept⟩ := disturbed x rfl
      exact ⟨state, fun t last => kept t (h.latest t last)⟩
  | step i =>
      change HoldsLatest I J (Y.advance P i)
      rcases Y.advance_cases P i with same | ⟨c, a, k, found, moved⟩
      · rw [same]
        exact h
      · have final : i = P.threads.length - 1 := by
          have := turn i rfl
          omega
        have last : P.threads.getLast? = some ⟨c, .act a k⟩ := by
          rw [List.getLast?_eq_getElem?, ← final, found]
        obtain ⟨state, thread⟩ := acted i c a k rfl found (h.latest _ last)
        rw [moved]
        refine ⟨state, fun t later => ?_⟩
        have present := (List.getElem?_eq_some_iff.mp found).1
        rw [List.getLast?_eq_getElem?, List.length_set, ← final,
          List.getElem?_set_self present] at later
        obtain rfl := Option.some.inj later
        exact thread

/-! ## The history of one thread -/

/-- The event of a move, if it is one of the thread at `i`. -/
def performedBy (i : Nat) (P : Pool S σ ε κ) : Move κ ξ → List (Event S)
  | .step j => if j = i then Y.performed P (.step j : Move κ ξ) else []
  | _ => []

/-- The events of the thread at `i`, oldest first. -/
def ownTrace (i : Nat) : Pool S σ ε κ → List (Move κ ξ) → List (Event S)
  | _, [] => []
  | P, m :: ms => Y.performedBy i P m ++ ownTrace i (Y.move P m) ms

theorem performedBy_step {i : Nat} {P : Pool S σ ε κ} {c : κ} {a : S.Action}
    {k : S.Answer a → Program S ε Unit} (h : P.threads[i]? = some ⟨c, .act a k⟩) (j : Nat) :
    Y.performedBy j P (.step i : Move κ ξ) = if i = j then [⟨a, (Y.exec a P.shared).1⟩] else [] := by
  rw [performedBy, Y.performed_act h]

/-- The events of one thread are events of the schedule. -/
theorem ownTrace_subset (i : Nat) (P : Pool S σ ε κ) (moves : List (Move κ ξ)) :
    Y.ownTrace i P moves ⊆ Y.trace P moves := by
  induction moves generalizing P with
  | nil => exact List.Subset.refl _
  | cons m ms ih =>
      refine List.append_subset.mpr ⟨?_, List.subset_append_of_subset_right _ (ih _)⟩
      refine List.subset_append_of_subset_left _ ?_
      cases m with
      | call c | disturb x => exact List.nil_subset _
      | step j =>
          rw [performedBy]
          split
          · exact List.Subset.refl _
          · exact List.nil_subset _

/-- A state invariant together with a property of the rest of every thread that
speaks of the thread's own events. A thread not yet called has none. -/
structure HoldsSince (I : σ → Prop) (J : List (Event S) → Thread S ε κ → Prop)
    (past : Nat → List (Event S)) (P : Pool S σ ε κ) : Prop where
  shared : I P.shared
  threads : ∀ i t, P.threads[i]? = some t → J (past i) t
  uncalled : ∀ i, P.threads.length ≤ i → past i = []

/-- The rely-guarantee rule for threads that know their own events. -/
theorem HoldsSince.move {I : σ → Prop} {J : List (Event S) → Thread S ε κ → Prop}
    {past : Nat → List (Event S)} {P : Pool S σ ε κ} {m : Move κ ξ} (h : HoldsSince I J past P)
    (calls : ∀ c, m = .call c → J [] ⟨c, Y.body c⟩)
    (disturbed : ∀ x, m = .disturb x → I (Y.change x P.shared))
    (acted : ∀ i c a k, m = .step i → P.threads[i]? = some ⟨c, .act a k⟩ →
      I (Y.exec a P.shared).2 ∧
        J (past i ++ [⟨a, (Y.exec a P.shared).1⟩]) ⟨c, k (Y.exec a P.shared).1⟩) :
    HoldsSince I J (fun i => past i ++ Y.performedBy i P m) (Y.move P m) := by
  cases m with
  | call c =>
      simp only [performedBy, List.append_nil]
      refine ⟨h.shared, fun i t found => ?_, fun i late => h.uncalled i ?_⟩
      · rcases thread_of_append found with ⟨rfl, rfl⟩ | old
        · rw [h.uncalled _ (Nat.le_refl _)]
          exact calls c rfl
        · exact h.threads i t old
      · exact Nat.le_trans (List.sublist_append_left _ _).length_le late
  | disturb x =>
      simp only [performedBy, List.append_nil]
      exact ⟨disturbed x rfl, h.threads, h.uncalled⟩
  | step i =>
      rcases Y.step_cases P i with ⟨same, nothing⟩ | ⟨c, a, k, found⟩
      · simp only [System.move, same, performedBy, nothing, ite_self, List.append_nil]
        exact h
      · obtain ⟨state, thread⟩ := acted i c a k rfl found
        simp only [System.move, Y.advance_act found, performedBy, Y.performed_act found]
        refine ⟨state, fun j t old => ?_, fun j late => ?_⟩
        · rcases thread_of_set old with ⟨rfl, rfl⟩ | ⟨other, old⟩
          · rw [if_pos rfl]
            exact thread
          · rw [if_neg (Ne.symm other), List.append_nil]
            exact h.threads j t old
        · rw [List.length_set] at late
          have present := (List.getElem?_eq_some_iff.mp found).1
          rw [if_neg (by omega), List.append_nil, h.uncalled j late]

/-- Induction over schedules: each thread keeps what it has to say of its events. -/
theorem HoldsSince.schedule {ok : Pool S σ ε κ → Move κ ξ → Prop} {I : σ → Prop}
    {J : List (Event S) → Thread S ε κ → Prop}
    (step : ∀ past P m, ok P m → HoldsSince I J past P →
      HoldsSince I J (fun i => past i ++ Y.performedBy i P m) (Y.move P m))
    {past : Nat → List (Event S)} {P : Pool S σ ε κ} (start : HoldsSince I J past P)
    {moves : List (Move κ ξ)} (permitted : Y.Along ok P moves) :
    HoldsSince I J (fun i => past i ++ Y.ownTrace i P moves) (Y.schedule P moves) := by
  induction moves generalizing P past with
  | nil => simpa [ownTrace] using start
  | cons m ms ih => simpa [ownTrace] using ih (step past P m permitted.1 start) permitted.2

/-- Each move of the schedule satisfies `ok`, given the events before it and the
pool it is made in. -/
def AlongTrace (ok : List (Event S) → Pool S σ ε κ → Move κ ξ → Prop) :
    List (Event S) → Pool S σ ε κ → List (Move κ ξ) → Prop
  | _, _, [] => True
  | past, P, m :: ms => ok past P m ∧ AlongTrace ok (past ++ Y.performed P m) (Y.move P m) ms

instance decidableAlongTrace (ok : List (Event S) → Pool S σ ε κ → Move κ ξ → Prop)
    [∀ past P m, Decidable (ok past P m)] :
    ∀ past P moves, Decidable (Y.AlongTrace ok past P moves)
  | _, _, [] => isTrue trivial
  | past, P, m :: ms =>
      haveI := decidableAlongTrace ok (past ++ Y.performed P m) (Y.move P m) ms
      inferInstanceAs (Decidable (ok past P m ∧ Y.AlongTrace ok _ (Y.move P m) ms))

/-- Induction over schedules for a property that speaks of all events and of
those of each thread. -/
theorem AlongTrace.invariant {ok : List (Event S) → Pool S σ ε κ → Move κ ξ → Prop}
    {I : List (Event S) → (Nat → List (Event S)) → Pool S σ ε κ → Prop}
    (step : ∀ past own P m, ok past P m → I past own P →
      I (past ++ Y.performed P m) (fun i => own i ++ Y.performedBy i P m) (Y.move P m))
    {past : List (Event S)} {own : Nat → List (Event S)} {P : Pool S σ ε κ}
    (start : I past own P) {moves : List (Move κ ξ)} (along : Y.AlongTrace ok past P moves) :
    I (past ++ Y.trace P moves) (fun i => own i ++ Y.ownTrace i P moves) (Y.schedule P moves) := by
  induction moves generalizing past own P with
  | nil => simpa [trace, ownTrace] using start
  | cons m ms ih => simpa [trace, ownTrace] using ih (step past own P m along.1 start) along.2

/-- A contract shared by all calls of a schedule holds for every thread at every
move, and for the action the move performs. -/
theorem along_upholds {ensure : S.Action → Prop} {P : Pool S σ ε κ} {moves : List (Move κ ξ)}
    (bodies : ∀ c, .call c ∈ moves →
      (Y.body c).Upholds (fun _ _ => True) ensure (fun _ => True)) (start : P.threads = []) :
    Y.Along (fun P m => (m ∈ moves ∧
      ∀ t ∈ P.threads, t.rest.Upholds (fun _ _ => True) ensure (fun _ => True)) ∧
      ∀ a, P.next? m = some a → ensure a) P moves := by
  have each : Y.Along (fun _ m => m ∈ moves) P moves :=
    Y.along_of_forall_mem (fun _ _ member => member) P
  refine Along.imp Y (I := Holds (fun _ => True)
      (fun t => t.rest.Upholds (fun _ _ => True) ensure (fun _ => True)))
    (fun P m member holds => ?_) (fun P m member holds => ⟨⟨member, holds.threads⟩, ?_⟩)
    ⟨trivial, by simp [start]⟩ each
  · refine Holds.move Y holds ?_ (fun _ _ => trivial) fun i c a k _ found => ?_
    · rintro c rfl
      exact bodies c member
    · exact ⟨trivial, (holds.threads _ (List.mem_of_getElem? found)).2 _ trivial⟩
  · intro a next
    cases m with
    | call c | disturb x => cases next
    | step i =>
        obtain ⟨⟨c, rest⟩, found, next⟩ := Option.bind_eq_some_iff.mp next
        cases rest with
        | done u | fail e => cases next
        | act b k =>
            obtain rfl : b = a := Option.some.inj next
            exact (holds.threads _ (List.mem_of_getElem? found)).1

end System

end Interaction
