import Qubox.Host.Handler
import Qubox.Library.RateLimit
import Qubox.Library.Table

/-!
# Toasts and their rate limit

The limiter behind the toast gate keeps a queue of attempts and the end of a block for every
peer. Seen from one peer it is a sliding window with blocks, in which the other peers do not
show.

The end of a block is computed with the queues locked, by an addition that panics when the
sum is no instant any more. The queues are poisoned then, for all peers.
-/

namespace Qubox.Host

open RateLimit SlidingWindow

/-- Instants and durations are counted in nanoseconds. -/
structure ToastRateLimiter where
  window : Nat
  threshold : Nat
  blockDuration : Nat
  seen : AList fun _ : String => List Nat
  blockedUntil : AList fun _ : String => Nat
  /-- The mutex of `seen` is poisoned. -/
  poisoned : Bool

structure ToastAttempt where
  peerId : String
  time : Nat
  deriving DecidableEq

namespace ToastRateLimiter

def new (window threshold blockDuration : Nat) : ToastRateLimiter where
  window := window
  threshold := threshold
  blockDuration := blockDuration
  seen := ∅
  blockedUntil := ∅
  poisoned := false

variable (l : ToastRateLimiter)

def isBlockedAt (peerId : String) (now : Nat) : Bool :=
  ((l.blockedUntil.lookup peerId).map fun release => decide (now < release)).getD false

/-- The queue of a peer with an attempt more, without what is outside the window. -/
def bucket (peerId : String) (now : Nat) : List Nat :=
  prune l.window now ((l.seen.lookup peerId).getD [] ++ [now])

/-- The answer to an attempt, which is missing when the call panics. `last` is the last
instant of the platform. -/
def recordAttempt (last : Nat) (peerId : String) (now : Nat) :
    Option ToastDecision × ToastRateLimiter :=
  if l.isBlockedAt peerId now then (some .block, l)
  else if l.poisoned then (none, l)
  else
    let seen := l.seen.insert peerId (l.bucket peerId now)
    if l.threshold < (l.bucket peerId now).length then
      -- `now + self.block_duration`, before the guard of `seen` is dropped
      if last < now + l.blockDuration then (none, { l with seen, poisoned := true })
      else
        (some .block, { l with
          seen
          blockedUntil := l.blockedUntil.insert peerId (now + l.blockDuration) })
    else (some .show, { l with seen })

/-- The attempts of a run, each with its answer. -/
def decisions (last : Nat) (l : ToastRateLimiter) :
    List ToastAttempt → List (ToastAttempt × Option ToastDecision)
  | [] => []
  | attempt :: later =>
    let (decision, l') := l.recordAttempt last attempt.peerId attempt.time
    (attempt, decision) :: decisions last l' later

/-! ## Blocks that end -/

/-- If the attempt begins a block, the block ends at an instant. -/
def EndsInTime (last : Nat) (attempt : ToastAttempt) : Prop :=
  l.isBlockedAt attempt.peerId attempt.time = false →
    l.threshold < (l.bucket attempt.peerId attempt.time).length →
      attempt.time + l.blockDuration ≤ last

/-- So it is with every attempt of a run. -/
def AllEndInTime (last : Nat) (l : ToastRateLimiter) : List ToastAttempt → Prop
  | [] => True
  | attempt :: later => l.EndsInTime last attempt ∧
      AllEndInTime last (l.recordAttempt last attempt.peerId attempt.time).2 later

/-! ## One peer -/

def limit : Limit := ⟨l.window, l.threshold, l.blockDuration⟩

def gauge (peerId : String) : Gauge :=
  ⟨(l.seen.lookup peerId).getD [], l.blockedUntil.lookup peerId⟩

def ruling (entry : ToastAttempt × Option ToastDecision) : Ruling :=
  ⟨entry.1.time, entry.2 = some .show⟩

variable {l} {l' : ToastRateLimiter} {last : Nat} {peerId other : String} {now : Nat}
  {attempt : ToastAttempt} {history : List ToastAttempt}

theorem isBlockedAt_iff : l.isBlockedAt peerId now = true ↔ (l.gauge peerId).Blocked now := by
  rw [isBlockedAt, Gauge.Blocked, gauge]
  cases l.blockedUntil.lookup peerId <;> simp

/-- An attempt begins a block that ends, or begins none, according to the limit and what is
known of its peer. -/
theorem endsInTime_iff : l.EndsInTime last attempt ↔
    (¬ (l.gauge attempt.peerId).Blocked attempt.time →
      l.limit.threshold < (l.limit.counted (l.gauge attempt.peerId) attempt.time).length →
        attempt.time + l.limit.block ≤ last) := by
  rw [EndsInTime, ← isBlockedAt_iff, Bool.not_eq_true]
  rfl

theorem limit_recordAttempt : (l.recordAttempt last peerId now).2.limit = l.limit := by
  unfold recordAttempt
  split
  · rfl
  · split
    · rfl
    · dsimp only
      split
      · split <;> rfl
      · rfl

/-- What an attempt does when nothing panics. -/
theorem recordAttempt_of_endsInTime (sane : l.poisoned = false)
    (ends : l.EndsInTime last attempt) :
    (l.recordAttempt last attempt.peerId attempt.time).1 =
        some (if l.limit.Admits (l.gauge attempt.peerId) attempt.time then .show else .block) ∧
      (l.recordAttempt last attempt.peerId attempt.time).2.gauge attempt.peerId =
        l.limit.next (l.gauge attempt.peerId) attempt.time ∧
      (l.recordAttempt last attempt.peerId attempt.time).2.poisoned = false := by
  unfold recordAttempt Limit.next
  by_cases standing : (l.gauge attempt.peerId).Blocked attempt.time
  · have refused : ¬ l.limit.Admits (l.gauge attempt.peerId) attempt.time :=
      fun admits => admits.1 standing
    rw [if_pos (isBlockedAt_iff.mpr standing), if_neg refused, if_pos standing]
    exact ⟨rfl, rfl, sane⟩
  · rw [if_neg (mt isBlockedAt_iff.mp standing), if_neg (Bool.eq_false_iff.mp sane),
      if_neg standing]
    by_cases many : l.threshold < (l.bucket attempt.peerId attempt.time).length
    · have refused : ¬ l.limit.Admits (l.gauge attempt.peerId) attempt.time :=
        fun admits => Nat.not_lt.mpr admits.2 many
      have many' : l.limit.threshold <
          (l.limit.counted (l.gauge attempt.peerId) attempt.time).length := many
      have inTime : attempt.time + l.blockDuration ≤ last := endsInTime_iff.mp ends standing many'
      dsimp only
      rw [if_pos many, if_pos many', if_neg (Nat.not_lt.mpr inTime), if_neg refused]
      refine ⟨rfl, ?_, sane⟩
      simp [gauge, limit, Limit.counted, bucket]
    · have admits : l.limit.Admits (l.gauge attempt.peerId) attempt.time :=
        ⟨standing, Nat.not_lt.mp many⟩
      have few : ¬ l.limit.threshold <
          (l.limit.counted (l.gauge attempt.peerId) attempt.time).length := many
      dsimp only
      rw [if_neg many, if_neg few, if_pos admits]
      refine ⟨rfl, ?_, sane⟩
      simp [gauge, limit, Limit.counted, bucket]

/-- An attempt that begins a block without an end is not answered. -/
theorem recordAttempt_of_overflow (overflows : ¬ l.EndsInTime last attempt) :
    (l.recordAttempt last attempt.peerId attempt.time).1 = none := by
  unfold EndsInTime at overflows
  push Not at overflows
  obtain ⟨free, many, late⟩ := overflows
  rw [recordAttempt, if_neg (Bool.eq_false_iff.mp free), if_pos many, if_pos late]
  split
  · rfl
  · rfl

/-- An attempt leaves what is known of every other peer. -/
theorem gauge_recordAttempt_of_ne (ne : other ≠ peerId) :
    (l.recordAttempt last peerId now).2.gauge other = l.gauge other := by
  unfold recordAttempt
  split
  · rfl
  · split
    · rfl
    · dsimp only
      split
      · split <;> simp [gauge, AList.lookup_insert_ne ne]
      · simp [gauge, AList.lookup_insert_ne ne]

/-! ## Runs -/

theorem decisions_cons (attempt : ToastAttempt) (later : List ToastAttempt) :
    l.decisions last (attempt :: later) =
      (attempt, (l.recordAttempt last attempt.peerId attempt.time).1) ::
        (l.recordAttempt last attempt.peerId attempt.time).2.decisions last later := rfl

theorem answered (sane : l.poisoned = false) (ends : AllEndInTime last l history) :
    ∀ entry ∈ l.decisions last history, entry.2 = some .show ∨ entry.2 = some .block := by
  induction history generalizing l with
  | nil => exact fun entry member => absurd member List.not_mem_nil
  | cons attempt later ih =>
      obtain ⟨decided, -, still⟩ := recordAttempt_of_endsInTime sane ends.1
      rw [decisions_cons, List.forall_mem_cons, decided]
      exact ⟨(ite_eq_or_eq _ _ _).imp (congrArg some) (congrArg some), ih still ends.2⟩

/-- If every attempt is answered, every block has an end. -/
theorem allEndInTime_of_answered (sane : l.poisoned = false)
    (answered : ∀ entry ∈ l.decisions last history,
      entry.2 = some .show ∨ entry.2 = some .block) : AllEndInTime last l history := by
  induction history generalizing l with
  | nil => trivial
  | cons attempt later ih =>
      rw [decisions_cons, List.forall_mem_cons] at answered
      by_cases ends : l.EndsInTime last attempt
      · obtain ⟨-, -, still⟩ := recordAttempt_of_endsInTime sane ends
        exact ⟨ends, ih still answered.2⟩
      · have silent := recordAttempt_of_overflow ends
        rw [silent] at answered
        simp at answered

/-- The decisions about a peer are those of a run in which only this peer makes attempts. -/
theorem filter_decisions (same : l.limit = l'.limit) (known : l.gauge peerId = l'.gauge peerId)
    (sane : l.poisoned = false) (sane' : l'.poisoned = false)
    (ends : AllEndInTime last l history) :
    (l.decisions last history).filter (fun entry => entry.1.peerId = peerId) =
        l'.decisions last (history.filter fun attempt => attempt.peerId = peerId) ∧
      AllEndInTime last l' (history.filter fun attempt => attempt.peerId = peerId) := by
  induction history generalizing l l' with
  | nil => exact ⟨rfl, trivial⟩
  | cons attempt later ih =>
      obtain ⟨decided, gauged, still⟩ := recordAttempt_of_endsInTime sane ends.1
      rw [decisions_cons]
      by_cases own : attempt.peerId = peerId
      · subst own
        have ends' : l'.EndsInTime last attempt := by
          rw [endsInTime_iff, ← same, ← known]
          exact endsInTime_iff.mp ends.1
        obtain ⟨decided', gauged', still'⟩ := recordAttempt_of_endsInTime sane' ends'
        have limits : (l.recordAttempt last attempt.peerId attempt.time).2.limit =
            (l'.recordAttempt last attempt.peerId attempt.time).2.limit := by
          rw [limit_recordAttempt, limit_recordAttempt, same]
        have gauges : (l.recordAttempt last attempt.peerId attempt.time).2.gauge attempt.peerId =
            (l'.recordAttempt last attempt.peerId attempt.time).2.gauge attempt.peerId := by
          rw [gauged, gauged', same, known]
        obtain ⟨rest, restEnds⟩ := ih limits gauges still still' ends.2
        rw [List.filter_cons_of_pos (by simp), List.filter_cons_of_pos (by simp), decisions_cons,
          decided, decided', same, known, rest]
        exact ⟨rfl, ends', restEnds⟩
      · have limits : (l.recordAttempt last attempt.peerId attempt.time).2.limit = l'.limit := by
          rw [limit_recordAttempt, same]
        have gauges : (l.recordAttempt last attempt.peerId attempt.time).2.gauge peerId =
            l'.gauge peerId := by
          rw [gauge_recordAttempt_of_ne fun eq => own eq.symm, known]
        rw [List.filter_cons_of_neg (by simpa using own),
          List.filter_cons_of_neg (by simpa using own)]
        exact ih limits gauges still sane' ends.2

theorem map_ruling_decisions (sane : l.poisoned = false) (ends : AllEndInTime last l history)
    (only : ∀ attempt ∈ history, attempt.peerId = peerId) :
    (l.decisions last history).map ruling =
      l.limit.rulings (l.gauge peerId) (history.map ToastAttempt.time) := by
  induction history generalizing l with
  | nil => rfl
  | cons attempt later ih =>
      have own : attempt.peerId = peerId := only attempt List.mem_cons_self
      obtain ⟨decided, gauged, still⟩ := recordAttempt_of_endsInTime sane ends.1
      rw [own] at decided gauged still
      rw [decisions_cons, List.map_cons, List.map_cons, Limit.rulings, own,
        ih still (own ▸ ends.2) fun attempt member => only attempt (List.mem_cons_of_mem _ member),
        limit_recordAttempt, gauged, ruling, decided]
      congr 2
      by_cases admits : l.limit.Admits (l.gauge peerId) attempt.time <;> simp [admits]

/-- Every attempt is answered with a toast or with a block, each peer is answered as if no
other peer had come, and its attempts are ruled by a sliding window with blocks. -/
structure RulesLawfully (last window threshold blockDuration : Nat)
    (history : List ToastAttempt) : Prop where
  answered : ∀ entry ∈ (new window threshold blockDuration).decisions last history,
    entry.2 = some .show ∨ entry.2 = some .block
  alone : ∀ peerId : String,
    ((new window threshold blockDuration).decisions last history).filter
        (fun entry => entry.1.peerId = peerId) =
      (new window threshold blockDuration).decisions last
        (history.filter fun attempt => attempt.peerId = peerId)
  lawful : ∀ peerId : String, Limit.Lawful ⟨window, threshold, blockDuration⟩
    ((((new window threshold blockDuration).decisions last history).filter
      fun entry => entry.1.peerId = peerId).map ruling)

/-- The limiter keeps its law exactly if every block that an attempt begins ends at an
instant of the platform. -/
theorem rulesLawfully_iff (last window threshold blockDuration : Nat)
    {history : List ToastAttempt}
    (ordered : history.Pairwise fun first second => first.time ≤ second.time) :
    RulesLawfully last window threshold blockDuration history ↔
      AllEndInTime last (new window threshold blockDuration) history := by
  constructor
  · intro lawful
    exact allEndInTime_of_answered rfl lawful.answered
  · intro ends
    have own (peerId : String) :=
      let start := new window threshold blockDuration
      filter_decisions rfl (rfl : start.gauge peerId = start.gauge peerId) rfl rfl ends
    refine ⟨answered rfl ends, fun peerId => (own peerId).1, fun peerId => ?_⟩
    have only : ∀ attempt ∈ history.filter (fun attempt => attempt.peerId = peerId),
        attempt.peerId = peerId := by
      intro attempt member
      simpa using (List.mem_filter.mp member).2
    rw [(own peerId).1, map_ruling_decisions rfl (own peerId).2 only]
    exact Limit.lawful_rulings (List.pairwise_map.mpr (ordered.filter _))

namespace Sample

/-- Two attempts of a peer within a minute, and one of another. -/
def attempts : List ToastAttempt :=
  [⟨"p", 0⟩, ⟨"q", 10⟩, ⟨"p", 20⟩, ⟨"p", 90⟩, ⟨"q", 130⟩]

/-- The last instant where seconds are `i64`. -/
def lastInstant : Nat := (2 ^ 63 - 1) * 10 ^ 9 + 999999999

/-- `Duration::MAX` -/
def durationMax : Nat := (2 ^ 64 - 1) * 10 ^ 9 + 999999999

end Sample

/-- A second attempt within the window begins a block, which does not outlast its duration. -/
theorem rulesLawfully_second :
    ((new 60 1 100).decisions Sample.lastInstant Sample.attempts).map Prod.snd =
        [some .show, some .show, some .block, some .block, some .show] ∧
      RulesLawfully Sample.lastInstant 60 1 100 Sample.attempts := by
  refine ⟨by decide, (rulesLawfully_iff _ 60 1 100 (by decide)).mpr ?_⟩
  refine ⟨?_, ?_, ?_, ?_, ?_, trivial⟩ <;> exact fun _ _ => by decide

/-- A block without end is never begun: the attempt panics, and so do those of the other
peer. -/
theorem endlessBlock_panics :
    ((new 60 1 Sample.durationMax).decisions Sample.lastInstant Sample.attempts).map Prod.snd =
        [some .show, some .show, none, none, none] ∧
      ¬ ∀ (window threshold blockDuration : Nat) (history : List ToastAttempt),
        history.Pairwise (fun first second => first.time ≤ second.time) →
          RulesLawfully Sample.lastInstant window threshold blockDuration history := by
  have panics : ((new 60 1 Sample.durationMax).decisions Sample.lastInstant
      Sample.attempts).map Prod.snd = [some .show, some .show, none, none, none] := by decide
  refine ⟨panics, fun lawful => ?_⟩
  have answered := (lawful 60 1 Sample.durationMax Sample.attempts (by decide)).answered
  have none_mem : none ∈ ((new 60 1 Sample.durationMax).decisions Sample.lastInstant
      Sample.attempts).map Prod.snd := by
    rw [panics]
    simp
  obtain ⟨entry, member, silent⟩ := List.mem_map.mp none_mem
  have answer := answered entry member
  rw [silent] at answer
  simp at answer

end ToastRateLimiter

end Qubox.Host
