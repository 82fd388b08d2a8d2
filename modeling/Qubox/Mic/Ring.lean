import Mathlib.Algebra.Group.Nat.Defs
import Mathlib.Data.List.Infix
import Mathlib.Data.Nat.Log
import Qubox.Library.Cyclic
import Qubox.Library.Stepping

/-!
# The sample ring

One thread pushes samples into the ring, one takes them out, and anybody may ask for its length.
Every load and store of a cursor or of a slot is a step of its own, so a schedule may interleave
them in any way. A push into a full ring overwrites the slot of the oldest sample before it moves
the read cursor, which the consumer stores as well, from what it has loaded. As long as the
consumer is idle during such a push, the ring is a queue that drops its oldest sample.
-/

namespace Qubox.Mic

open Cyclic

universe u

/-! ## The ring and its threads -/

structure SpscRing (α : Type u) where
  /-- The bits of a `usize`. -/
  width : Nat
  buf : Nat → α
  mask : Nat
  writeTotal : Nat
  readTotal : Nat

/-- The capacity that a ring is created with: the next power of two. -/
def capacityOf (capacity : Nat) : Nat := 2 ^ Nat.clog 2 (max capacity 2)

namespace SpscRing

variable {α : Type u}

/-- Every slot has a zero at first. -/
def new (zero : α) (width capacity : Nat) : SpscRing α where
  width := width
  buf _ := zero
  mask := capacityOf capacity - 1
  writeTotal := 0
  readTotal := 0

variable (ring : SpscRing α)

def capacity : Nat := ring.mask + 1

def words : Nat := 2 ^ ring.width

/-- How far the write cursor is ahead. -/
def lead : Nat := wrappingSub ring.words ring.writeTotal ring.readTotal

end SpscRing

/-- Where the producer is in a `push`. -/
inductive Producer (α : Type u) where
  | idle
  | loaded (sample : α) (w : Nat)
  /-- The sample is in its slot. -/
  | wrote (w : Nat)
  | stored (newW : Nat)
  /-- More samples than slots were found. -/
  | overfull (newR : Nat)

/-- Where the consumer is in a `pop_into` or a `drain`. -/
inductive Consumer (α : Type u) where
  | idle
  | popping (length : Nat) (r : Nat)
  | copying (r n : Nat) (out : List α)
  | draining (r : Nat)
  | drained (w discarded : Nat)
deriving DecidableEq

/-- Where a caller of `len` is. -/
inductive Observer where
  | idle
  | loaded (w : Nat)
deriving DecidableEq

/-- What leaves the ring. What a `drain` or an overflow makes of the samples in it is not seen by
anybody; it is noted which they were. -/
inductive Departure (α : Type u) where
  | popped (out : List α)
  | drained (discarded : Nat) (gone : List α)
  | overwritten (gone : List α)

namespace Departure

variable {α : Type u}

def samples : Departure α → List α
  | .popped out => out
  | .drained _ gone => gone
  | .overwritten gone => gone

def returned : Departure α → List α
  | .popped out => out
  | .drained _ _ => []
  | .overwritten _ => []

end Departure

structure RingState (α : Type u) where
  ring : SpscRing α
  producer : Producer α
  consumer : Consumer α
  observer : Observer
  /-- The samples that `push` was called with. -/
  pushed : List α
  departures : List (Departure α)
  /-- What `len` has returned. -/
  lengths : List Nat

inductive RingStep (α : Type u) where
  | push (sample : α)
  | produce
  | popInto (length : Nat)
  | drain
  | consume
  | len
  | observe

namespace RingState

variable {α : Type u} (s : RingState α)

def start (zero : α) (width capacity : Nat) : RingState α where
  ring := .new zero width capacity
  producer := .idle
  consumer := .idle
  observer := .idle
  pushed := []
  departures := []
  lengths := []

/-- What has left the ring. -/
def taken : List α := s.departures.flatMap Departure.samples

/-- What the consumer was given. -/
def returned : List α := s.departures.flatMap Departure.returned

/-- The next samples to leave, up to a cursor. -/
def leaving (cursor : Nat) : List α :=
  (s.pushed.drop s.taken.length).take (wrappingSub s.ring.words cursor s.ring.readTotal)

def setReadTotal (readTotal : Nat) (departure : Departure α) : RingState α :=
  { s with
    ring := { s.ring with readTotal }
    departures := s.departures ++ [departure] }

/-- The next load or store of a `push`. -/
def produce : Option (RingState α) :=
  match s.producer with
  | .idle => none
  | .loaded sample w => some { s with
      ring := { s.ring with buf := Function.update s.ring.buf (w &&& s.ring.mask) sample }
      producer := .wrote w }
  | .wrote w => some { s with
      ring := { s.ring with writeTotal := (w + 1) % s.ring.words }
      producer := .stored ((w + 1) % s.ring.words) }
  | .stored newW => some { s with
      producer :=
        if s.ring.capacity < wrappingSub s.ring.words newW s.ring.readTotal then
          .overfull (wrappingSub s.ring.words newW s.ring.capacity)
        else .idle }
  | .overfull newR => some
      { s.setReadTotal newR (.overwritten (s.leaving newR)) with producer := .idle }

/-- The next load or store of a `pop_into` or a `drain`. -/
def consume : Option (RingState α) :=
  match s.consumer with
  | .idle => none
  | .popping length r => some { s with
      consumer := .copying r (min (s.ring.writeTotal - r) length) [] }
  | .copying r n out => some <|
      if out.length < n then { s with
        consumer := .copying r n
          (out ++ [s.ring.buf ((r + out.length) % s.ring.words &&& s.ring.mask)]) }
      else { s.setReadTotal ((r + n) % s.ring.words) (.popped out) with consumer := .idle }
  | .draining r => some { s with
      consumer := .drained s.ring.writeTotal (s.ring.writeTotal - r) }
  | .drained w discarded => some
      { s.setReadTotal w (.drained discarded (s.leaving w)) with consumer := .idle }

def step (s : RingState α) : RingStep α → Option (RingState α)
  | .push sample =>
      match s.producer with
      | .idle => some { s with
          producer := .loaded sample s.ring.writeTotal
          pushed := s.pushed ++ [sample] }
      | _ => none
  | .produce => s.produce
  | .popInto length =>
      match s.consumer with
      | .idle => some { s with consumer := .popping length s.ring.readTotal }
      | _ => none
  | .drain =>
      match s.consumer with
      | .idle => some { s with consumer := .draining s.ring.readTotal }
      | _ => none
  | .consume => s.consume
  | .len =>
      match s.observer with
      | .idle => some { s with observer := .loaded s.ring.writeTotal }
      | _ => none
  | .observe =>
      match s.observer with
      | .idle => none
      | .loaded w => some { s with
          observer := .idle
          lengths := s.lengths ++ [w - s.ring.readTotal] }

/-! ## What the ring owes -/

/-- No sample was dropped by an overflow. -/
def Spared : Prop := ∀ gone, .overwritten gone ∉ s.departures

/-- The consumer gets the samples in their order and none twice, no length exceeds the capacity,
and without an overflow the samples leave in their order and none is left out. -/
structure DropsOldest : Prop where
  inOrder : s.returned.Sublist s.pushed
  bounded : ∀ length ∈ s.lengths, length ≤ s.ring.capacity
  unskipped : s.Spared → s.taken <+: s.pushed

/-! ## Pushes into a full ring -/

/-- A push is at work that overflows, or is about to. -/
def Overflowing : Prop :=
  match s.producer with
  | .idle => False
  | .loaded _ _ => False
  | .wrote _ => s.ring.capacity ≤ s.ring.lead
  | .stored _ => s.ring.capacity < s.ring.lead
  | .overfull _ => True

/-- The read cursor does not wrap in the middle of a `len`. -/
def KeepsAhead (readTotal : Nat) : Prop := s.observer = .idle ∨ s.ring.readTotal ≤ readTotal

/-- A sample goes into a full ring only while the consumer is idle, and the consumer stays idle
until that push is over. `len` starts only while no more samples than slots are counted, and the
read cursor does not wrap before it ends. -/
def Orderly (s : RingState α) : RingStep α → Prop
  | .push _ => True
  | .produce =>
      match s.producer with
      | .loaded _ _ => s.ring.capacity ≤ s.ring.lead → s.consumer = .idle
      | .overfull newR => s.KeepsAhead newR
      | _ => True
  | .popInto _ => ¬ s.Overflowing
  | .drain => ¬ s.Overflowing
  | .consume =>
      match s.consumer with
      | .copying r n out => n ≤ out.length → s.KeepsAhead ((r + n) % s.ring.words)
      | .drained w _ => s.KeepsAhead w
      | _ => True
  | .len => s.ring.lead ≤ s.ring.capacity
  | .observe => True

instance : Decidable s.Overflowing := by
  unfold Overflowing
  cases s.producer <;> infer_instance

instance (readTotal : Nat) : Decidable (s.KeepsAhead readTotal) :=
  inferInstanceAs (Decidable (_ ∨ _))

instance [DecidableEq α] : ∀ (s : RingState α) a, Decidable (s.Orderly a)
  | _, .push _ => .isTrue trivial
  | s, .produce => by
      unfold Orderly
      cases s.producer <;> infer_instance
  | s, .popInto _ => inferInstanceAs (Decidable (¬ s.Overflowing))
  | s, .drain => inferInstanceAs (Decidable (¬ s.Overflowing))
  | s, .consume => by
      unfold Orderly
      cases s.consumer <;> infer_instance
  | s, .len => inferInstanceAs (Decidable (s.ring.lead ≤ s.ring.capacity))
  | _, .observe => .isTrue trivial

/-! ## The invariant -/

end RingState

variable {α : Type u}

/-- The sample that is not in a slot yet. -/
def Producer.begun : Producer α → List α
  | .loaded sample _ => [sample]
  | _ => []

/-- How many samples are in a slot but not counted. -/
def Producer.uncounted : Producer α → Nat
  | .wrote _ => 1
  | _ => 0

namespace RingState

/-- The producer has loaded the write cursor, and finds one sample too many only where there is
one. -/
def ProducerKnows (s : RingState α) (held : List α) : Prop :=
  match s.producer with
  | .idle => held.length ≤ s.ring.capacity
  | .loaded _ w => w = s.ring.writeTotal ∧ held.length ≤ s.ring.capacity
  | .wrote w => w = s.ring.writeTotal
  | .stored newW => newW = s.ring.writeTotal
  | .overfull newR => held.length = s.ring.capacity + 1 ∧
      newR = (s.taken.length + 1) % s.ring.words

/-- The consumer has loaded the read cursor, and what it copies or drains is there. -/
def ConsumerKnows (s : RingState α) (held : List α) : Prop :=
  match s.consumer with
  | .idle => True
  | .popping _ r => r = s.ring.readTotal
  | .copying r n out => r = s.ring.readTotal ∧ n + s.producer.uncounted ≤ held.length ∧
      out <+: held ∧ out.length ≤ n
  | .draining r => r = s.ring.readTotal
  | .drained w _ => ∃ k, k + s.producer.uncounted ≤ held.length ∧
      w = (s.taken.length + k) % s.ring.words

def ObserverKnows (s : RingState α) : Prop :=
  match s.observer with
  | .idle => True
  | .loaded w => w ≤ s.ring.readTotal + s.ring.capacity

/-- The ring is a queue: these samples are in its slots and have not left. There is one more than
the capacity only while the consumer is idle. -/
structure Holds (s : RingState α) (held : List α) : Prop where
  sized : ∃ bits, 0 < bits ∧ bits < s.ring.width ∧ s.ring.capacity = 2 ^ bits
  pushed : s.pushed = s.taken ++ held ++ s.producer.begun
  read : s.ring.readTotal = s.taken.length % s.ring.words
  write : s.ring.writeTotal =
    (s.taken.length + (held.length - s.producer.uncounted)) % s.ring.words
  counted : s.producer.uncounted ≤ held.length
  room : held.length ≤ s.ring.capacity + 1
  slots : Shows s.ring.buf s.ring.capacity
    (s.taken.length + (held.length - s.ring.capacity)) (held.drop (held.length - s.ring.capacity))
  alone : s.ring.capacity < held.length → s.consumer = .idle
  producer : s.ProducerKnows held
  consumer : s.ConsumerKnows held
  observer : s.ObserverKnows
  lengths : ∀ length ∈ s.lengths, length ≤ s.ring.capacity

variable {s : RingState α} {held : List α} {sample : α}

namespace Holds

theorem capacity_lt (holds : s.Holds held) : s.ring.capacity + 1 < s.ring.words := by
  obtain ⟨bits, positive, small, capacity⟩ := holds.sized
  have twice : 2 ^ bits * 2 ≤ 2 ^ s.ring.width := by
    rw [← Nat.pow_succ]
    exact Nat.pow_le_pow_right (by decide) small
  have two : 2 ≤ 2 ^ bits := Nat.le_self_pow (Nat.pos_iff_ne_zero.mp positive) 2
  rw [capacity, SpscRing.words]
  omega

theorem capacity_dvd (holds : s.Holds held) : s.ring.capacity ∣ s.ring.words := by
  obtain ⟨bits, -, small, capacity⟩ := holds.sized
  rw [capacity]
  exact Nat.pow_dvd_pow 2 (Nat.le_of_lt small)

/-- A cursor addresses a slot. -/
theorem and_mask (holds : s.Holds held) (count : Nat) :
    count % s.ring.words &&& s.ring.mask = count % s.ring.capacity := by
  have divides := holds.capacity_dvd
  obtain ⟨bits, -, -, capacity⟩ := holds.sized
  have mask : s.ring.mask = 2 ^ bits - 1 := by
    rw [← capacity]
    rfl
  rw [mask, Nat.and_two_pow_sub_one_eq_mod, ← capacity, Nat.mod_mod_of_dvd _ divides]

theorem lead (holds : s.Holds held) :
    s.ring.lead = held.length - s.producer.uncounted := by
  have small := holds.capacity_lt
  have room := holds.room
  rw [SpscRing.lead, holds.write, holds.read, wrappingSub_mod (Nat.le_add_right _ _) (by omega)]
  omega

/-- Where the write cursor has wrapped and the read cursor has not, nothing seems to be there. -/
theorem available_le (holds : s.Holds held) :
    s.ring.writeTotal - s.ring.readTotal ≤ held.length - s.producer.uncounted := by
  have small := holds.capacity_lt
  have room := holds.room
  rw [holds.write, holds.read]
  refine Nat.le_trans (mod_sub_mod_le (Nat.le_add_right _ _) ?_) ?_ <;> omega

theorem overflowing_iff (holds : s.Holds held) :
    s.Overflowing ↔ s.ring.capacity < held.length := by
  have lead := holds.lead
  have counted := holds.counted
  have knows := holds.producer
  unfold Overflowing
  unfold ProducerKnows at knows
  cases phase : s.producer with
  | idle =>
      simp only [phase] at knows
      exact iff_of_false id (Nat.not_lt.mpr knows)
  | loaded sample w =>
      simp only [phase] at knows
      exact iff_of_false id (Nat.not_lt.mpr knows.2)
  | wrote w =>
      simp only [phase, Producer.uncounted] at lead counted ⊢
      omega
  | stored newW =>
      simp only [phase, Producer.uncounted] at lead ⊢
      omega
  | overfull newR =>
      simp only [phase] at knows
      exact iff_of_true trivial (by omega)

/-- While nothing overflows, the samples lie in the slots in one piece. -/
theorem slots_of_le (holds : s.Holds held) (fits : held.length ≤ s.ring.capacity) :
    Shows s.ring.buf s.ring.capacity s.taken.length held := by
  have slots := holds.slots
  rwa [Nat.sub_eq_zero_of_le fits, Nat.add_zero, List.drop_zero] at slots

/-- The samples from the next one on that leave. -/
theorem leaving_eq (holds : s.Holds held) {k : Nat} (k_le : k ≤ held.length) :
    s.leaving ((s.taken.length + k) % s.ring.words) = held.take k := by
  have small := holds.capacity_lt
  have room := holds.room
  rw [leaving, holds.pushed, List.append_assoc, List.drop_left, holds.read,
    wrappingSub_mod (Nat.le_add_right _ _) (by omega), Nat.add_sub_cancel_left,
    List.take_append_of_le_length k_le]

/-! ## Steps of the producer -/

theorem push (holds : s.Holds held) (idle : s.producer = .idle) :
    Holds { s with
      producer := .loaded sample s.ring.writeTotal
      pushed := s.pushed ++ [sample] } held where
  sized := holds.sized
  pushed := by
    have pushed : s.pushed = s.taken ++ held := by
      rw [holds.pushed, idle]
      exact List.append_nil _
    exact congrArg (· ++ [sample]) pushed
  read := holds.read
  write := by
    have write := holds.write
    rw [idle] at write
    exact write
  counted := Nat.zero_le _
  room := holds.room
  slots := holds.slots
  alone := holds.alone
  producer := by
    have knows := holds.producer
    unfold ProducerKnows at knows
    rw [idle] at knows
    exact ⟨rfl, knows⟩
  consumer := by
    have knows := holds.consumer
    unfold ConsumerKnows at knows ⊢
    rw [idle] at knows
    exact knows
  observer := holds.observer
  lengths := holds.lengths

/-- A sample goes into its slot. Where there is none left, it takes that of the oldest one. -/
theorem write_slot {w : Nat} (holds : s.Holds held) (loaded : s.producer = .loaded sample w)
    (orderly : s.ring.capacity ≤ s.ring.lead → s.consumer = .idle) :
    Holds { s with
      ring := { s.ring with buf := Function.update s.ring.buf (w &&& s.ring.mask) sample }
      producer := .wrote w } (held ++ [sample]) := by
  have lead := holds.lead
  have write := holds.write
  have pushed := holds.pushed
  have knows := holds.producer
  have consumer := holds.consumer
  unfold ProducerKnows at knows
  unfold ConsumerKnows at consumer
  rw [loaded] at lead write pushed knows consumer
  obtain ⟨rfl, fits⟩ := knows
  have place : s.ring.writeTotal &&& s.ring.mask =
      (s.taken.length + held.length) % s.ring.capacity := by
    rw [write]
    exact holds.and_mask _
  have slots := holds.slots_of_le fits
  refine
    { sized := holds.sized
      pushed := ?_
      read := holds.read
      write := ?_
      counted := ?_
      room := ?_
      slots := ?_
      alone := fun more => orderly ?_
      producer := rfl
      consumer := ?_
      observer := holds.observer
      lengths := holds.lengths }
  · change s.pushed = s.taken ++ (held ++ [sample]) ++ []
    rw [pushed, List.append_nil, List.append_assoc]
    rfl
  · rw [List.length_append]
    exact write
  · rw [List.length_append]
    exact Nat.le_add_left _ _
  · rw [List.length_append]
    exact Nat.succ_le_succ fits
  · dsimp only [SpscRing.capacity] at *
    rw [place, List.length_append, List.length_singleton]
    by_cases full : held.length = s.ring.mask + 1
    · have one : held.length + 1 - (s.ring.mask + 1) = 1 := by omega
      rw [one]
      exact slots.overwrite full (Nat.succ_pos _)
    · have none : held.length + 1 - (s.ring.mask + 1) = 0 := by omega
      rw [none]
      exact slots.append (by omega)
  · rw [List.length_append, List.length_singleton] at more
    rw [lead]
    exact Nat.le_of_lt_succ more
  · unfold ConsumerKnows
    cases phase : s.consumer with
    | idle => trivial
    | popping length r =>
        simp only [phase] at consumer ⊢
        exact consumer
    | copying r n out =>
        simp only [phase] at consumer ⊢
        obtain ⟨known, inside, front, short⟩ := consumer
        refine ⟨known, ?_, front.trans (List.prefix_append _ _), short⟩
        rw [List.length_append]
        exact Nat.add_le_add_right inside 1
    | draining r =>
        simp only [phase] at consumer ⊢
        exact consumer
    | drained w discarded =>
        simp only [phase] at consumer ⊢
        obtain ⟨k, inside, known⟩ := consumer
        refine ⟨k, ?_, known⟩
        rw [List.length_append]
        exact Nat.add_le_add_right inside 1

theorem store_write {w : Nat} (holds : s.Holds held) (wrote : s.producer = .wrote w) :
    Holds { s with
      ring := { s.ring with writeTotal := (w + 1) % s.ring.words }
      producer := .stored ((w + 1) % s.ring.words) } held := by
  have counted := holds.counted
  have write := holds.write
  have pushed := holds.pushed
  have knows := holds.producer
  have consumer := holds.consumer
  unfold ProducerKnows at knows
  unfold ConsumerKnows at consumer
  rw [wrote] at counted write pushed knows consumer
  dsimp only at knows
  dsimp only [Producer.uncounted] at counted write
  refine
    { sized := holds.sized
      pushed := pushed
      read := holds.read
      write := ?_
      counted := Nat.zero_le _
      room := holds.room
      slots := holds.slots
      alone := holds.alone
      producer := rfl
      consumer := ?_
      observer := holds.observer
      lengths := holds.lengths }
  · change (w + 1) % s.ring.words = (s.taken.length + (held.length - 0)) % s.ring.words
    rw [knows, write, Nat.mod_add_mod, Nat.add_assoc, Nat.sub_add_cancel counted]
    rfl
  · unfold ConsumerKnows
    cases phase : s.consumer with
    | idle => trivial
    | popping length r =>
        simp only [phase] at consumer ⊢
        exact consumer
    | copying r n out =>
        simp only [phase] at consumer ⊢
        obtain ⟨known, inside, front⟩ := consumer
        exact ⟨known, Nat.le_trans (Nat.le_add_right n 1) inside, front⟩
    | draining r =>
        simp only [phase] at consumer ⊢
        exact consumer
    | drained w' discarded =>
        simp only [phase] at consumer ⊢
        obtain ⟨k, inside, known⟩ := consumer
        exact ⟨k, Nat.le_trans (Nat.le_add_right k 1) inside, known⟩

/-- The producer finds one sample too many exactly where there is one. -/
theorem check {newW : Nat} (holds : s.Holds held) (stored : s.producer = .stored newW) :
    Holds { s with
      producer :=
        if s.ring.capacity < wrappingSub s.ring.words newW s.ring.readTotal then
          .overfull (wrappingSub s.ring.words newW s.ring.capacity)
        else .idle } held := by
  have lead := holds.lead
  have small := holds.capacity_lt
  have room := holds.room
  have write := holds.write
  have pushed := holds.pushed
  have knows := holds.producer
  have consumer := holds.consumer
  unfold ProducerKnows at knows
  unfold ConsumerKnows at consumer
  rw [stored] at lead write pushed knows consumer
  dsimp only at knows
  rw [SpscRing.lead, ← knows] at lead
  have lead : wrappingSub s.ring.words newW s.ring.readTotal = held.length := lead
  have moved : held.length = s.ring.capacity + 1 →
      wrappingSub s.ring.words newW s.ring.capacity =
        (s.taken.length + 1) % s.ring.words := by
    intro one
    have write : s.ring.writeTotal = (s.taken.length + held.length) % s.ring.words := write
    rw [knows, write, one, wrappingSub_const (by omega) (by omega)]
    congr 1
    omega
  have begun : (if s.ring.capacity < wrappingSub s.ring.words newW s.ring.readTotal then
      .overfull (wrappingSub s.ring.words newW s.ring.capacity)
    else .idle : Producer α).begun = [] := by
    split <;> rfl
  have uncounted : (if s.ring.capacity < wrappingSub s.ring.words newW s.ring.readTotal then
      .overfull (wrappingSub s.ring.words newW s.ring.capacity)
    else .idle : Producer α).uncounted = 0 := by
    split <;> rfl
  refine
    { sized := holds.sized
      pushed := ?_
      read := holds.read
      write := ?_
      counted := ?_
      room := holds.room
      slots := holds.slots
      alone := holds.alone
      producer := ?_
      consumer := ?_
      observer := holds.observer
      lengths := holds.lengths }
  · rw [begun]
    exact pushed
  · rw [uncounted]
    exact write
  · rw [uncounted]
    exact Nat.zero_le _
  · unfold ProducerKnows
    dsimp only
    rw [lead]
    by_cases overfull : s.ring.capacity < held.length
    · rw [if_pos overfull]
      have one : held.length = s.ring.capacity + 1 := by omega
      exact ⟨one, moved one⟩
    · rw [if_neg overfull]
      exact Nat.not_lt.mp overfull
  · unfold ConsumerKnows
    rw [uncounted]
    exact consumer

/-- What a departure of the next samples does to the cursor and the slots. -/
theorem departed {k : Nat} (holds : s.Holds held) (k_le : k ≤ held.length)
    (enough : held.length ≤ s.ring.capacity + k) {departure : Departure α}
    (samples : departure.samples = held.take k) (readTotal : Nat) :
    (s.setReadTotal readTotal departure).taken = s.taken ++ held.take k ∧
    s.taken ++ held = s.taken ++ held.take k ++ held.drop k ∧
    (s.taken ++ held.take k).length = s.taken.length + k ∧
    Shows s.ring.buf s.ring.capacity
      (s.taken.length + k + ((held.drop k).length - s.ring.capacity))
      ((held.drop k).drop ((held.drop k).length - s.ring.capacity)) := by
  have length : (held.take k).length = k := by rw [List.length_take, Nat.min_eq_left k_le]
  have fits : (held.drop k).length - s.ring.capacity = 0 := by
    rw [List.length_drop]
    omega
  refine ⟨?_, ?_, ?_, ?_⟩
  · rw [taken, setReadTotal, List.flatMap_append, List.flatMap_singleton, samples]
    rfl
  · rw [List.append_assoc, List.take_append_drop]
  · rw [List.length_append, length]
  · have slots := holds.slots.drop (k - (held.length - s.ring.capacity))
    rw [List.drop_drop] at slots
    have start : s.taken.length + (held.length - s.ring.capacity) +
        (k - (held.length - s.ring.capacity)) = s.taken.length + k := by omega
    have dropped : held.length - s.ring.capacity + (k - (held.length - s.ring.capacity)) = k := by
      omega
    rw [start, dropped] at slots
    rw [fits, Nat.add_zero, List.drop_zero]
    exact slots

/-- The next samples leave, and the consumer is idle then. -/
theorem depart {k readTotal : Nat} {departure : Departure α} {producer : Producer α}
    {consumer : Consumer α} (holds : s.Holds held)
    (inside : k + s.producer.uncounted ≤ held.length)
    (enough : held.length ≤ s.ring.capacity + k) (samples : departure.samples = held.take k)
    (moved : readTotal = (s.taken.length + k) % s.ring.words) (ahead : s.KeepsAhead readTotal)
    (begun : producer.begun = s.producer.begun)
    (uncounted : producer.uncounted = s.producer.uncounted)
    (knows : ProducerKnows { s.setReadTotal readTotal departure with producer, consumer }
      (held.drop k)) (idle : consumer = .idle) :
    Holds { s.setReadTotal readTotal departure with producer, consumer } (held.drop k) := by
  have k_le : k ≤ held.length := Nat.le_trans (Nat.le_add_right _ _) inside
  obtain ⟨taken, pushed, length, slots⟩ := holds.departed k_le enough samples readTotal
  have left : (held.drop k).length ≤ s.ring.capacity := by
    rw [List.length_drop]
    omega
  refine
    { sized := holds.sized
      pushed := ?_
      read := ?_
      write := ?_
      counted := ?_
      room := Nat.le_succ_of_le left
      slots := ?_
      alone := fun _ => idle
      producer := knows
      consumer := ?_
      observer := ?_
      lengths := holds.lengths }
  · change s.pushed = (s.setReadTotal readTotal departure).taken ++ held.drop k ++ producer.begun
    rw [taken, begun, ← pushed]
    exact holds.pushed
  · change readTotal = (s.setReadTotal readTotal departure).taken.length % s.ring.words
    rw [taken, length, moved]
  · change s.ring.writeTotal = ((s.setReadTotal readTotal departure).taken.length +
      ((held.drop k).length - producer.uncounted)) % s.ring.words
    rw [taken, length, uncounted, holds.write, List.length_drop]
    congr 1
    omega
  · rw [uncounted, List.length_drop]
    omega
  · change Shows s.ring.buf s.ring.capacity ((s.setReadTotal readTotal departure).taken.length +
      ((held.drop k).length - s.ring.capacity)) _
    rw [taken, length]
    exact slots
  · unfold ConsumerKnows
    rw [idle]
    trivial
  · have knew := holds.observer
    unfold ObserverKnows at knew ⊢
    cases phase : s.observer with
    | idle =>
        change match s.observer with
          | .idle => True
          | .loaded w => w ≤ readTotal + s.ring.capacity
        rw [phase]
        trivial
    | loaded w =>
        change match s.observer with
          | .idle => True
          | .loaded w => w ≤ readTotal + s.ring.capacity
        rw [phase] at knew ⊢
        obtain none | ahead := ahead
        · rw [phase] at none
          cases none
        · exact Nat.le_trans knew (Nat.add_le_add_right ahead _)

/-- An overflow drops the oldest sample. -/
theorem evict {newR : Nat} (holds : s.Holds held) (overfull : s.producer = .overfull newR)
    (ahead : s.KeepsAhead newR) :
    Holds { s.setReadTotal newR (.overwritten (s.leaving newR)) with producer := .idle }
      (held.drop 1) := by
  have knows := holds.producer
  unfold ProducerKnows at knows
  rw [overfull] at knows
  obtain ⟨one, moved⟩ := knows
  have some : 1 ≤ held.length := by omega
  have samples : s.leaving newR = held.take 1 := by
    rw [moved]
    exact holds.leaving_eq some
  have idle : s.consumer = .idle := holds.alone (by omega)
  refine holds.depart ?_ (Nat.le_of_eq one) samples moved ahead ?_ ?_ ?_
    idle
  · rw [overfull]
    exact some
  · rw [overfull]
    rfl
  · rw [overfull]
    rfl
  · change (held.drop 1).length ≤ s.ring.capacity
    rw [List.length_drop]
    omega

/-! ## Steps of the consumer -/

/-- While the consumer is at work, nothing overflows. -/
theorem fits_of_busy (holds : s.Holds held) (busy : s.consumer ≠ .idle) :
    held.length ≤ s.ring.capacity :=
  Nat.not_lt.mp fun more => busy (holds.alone more)

/-- The consumer only loads. -/
theorem loads {consumer : Consumer α} (holds : s.Holds held)
    (fits : held.length ≤ s.ring.capacity)
    (knows : ConsumerKnows { s with consumer } held) : Holds { s with consumer } held where
  sized := holds.sized
  pushed := holds.pushed
  read := holds.read
  write := holds.write
  counted := holds.counted
  room := holds.room
  slots := holds.slots
  alone more := absurd fits (Nat.not_le.mpr more)
  producer := holds.producer
  consumer := knows
  observer := holds.observer
  lengths := holds.lengths

theorem load_write {length r : Nat} (holds : s.Holds held)
    (popping : s.consumer = .popping length r) :
    Holds { s with consumer := .copying r (min (s.ring.writeTotal - r) length) [] } held := by
  have knows := holds.consumer
  unfold ConsumerKnows at knows
  rw [popping] at knows
  have fits := holds.fits_of_busy fun idle => by
    rw [popping] at idle
    cases idle
  obtain rfl : r = s.ring.readTotal := knows
  refine holds.loads fits ⟨rfl, ?_, List.nil_prefix, Nat.zero_le _⟩
  have available := Nat.le_trans (Nat.min_le_left _ length) holds.available_le
  exact Nat.add_le_of_le_sub holds.counted available

/-- One more sample is copied. -/
theorem copy {r n : Nat} {out : List α} (holds : s.Holds held)
    (copying : s.consumer = .copying r n out) (more : out.length < n) :
    Holds { s with
      consumer := .copying r n
        (out ++ [s.ring.buf ((r + out.length) % s.ring.words &&& s.ring.mask)]) } held := by
  have knows := holds.consumer
  unfold ConsumerKnows at knows
  rw [copying] at knows
  have fits := holds.fits_of_busy fun idle => by
    rw [copying] at idle
    cases idle
  obtain ⟨rfl, inside, front, short⟩ := knows
  have place : out.length < held.length := by omega
  have copied : s.ring.buf ((s.ring.readTotal + out.length) % s.ring.words &&& s.ring.mask) =
      held[out.length] := by
    rw [holds.read, Nat.mod_add_mod, holds.and_mask]
    exact holds.slots_of_le fits _ place
  refine holds.loads fits ⟨rfl, inside, ?_, ?_⟩
  · rw [copied]
    exact List.concat_get_prefix front place
  · rw [List.length_append]
    exact more

/-- Where the consumer stores the read cursor, the producer goes on as it was. -/
theorem depart_consumer {k readTotal : Nat} {departure : Departure α} (holds : s.Holds held)
    (busy : s.consumer ≠ .idle) (inside : k + s.producer.uncounted ≤ held.length)
    (samples : departure.samples = held.take k)
    (moved : readTotal = (s.taken.length + k) % s.ring.words) (ahead : s.KeepsAhead readTotal) :
    Holds { s.setReadTotal readTotal departure with consumer := .idle } (held.drop k) := by
  have fits := holds.fits_of_busy busy
  have knows := holds.producer
  refine holds.depart inside (Nat.le_add_right_of_le fits) samples moved
    ahead rfl rfl ?_ rfl
  have left : (held.drop k).length ≤ s.ring.capacity := by
    rw [List.length_drop]
    omega
  unfold ProducerKnows at knows ⊢
  dsimp only [setReadTotal]
  cases phase : s.producer with
  | idle => exact left
  | loaded sample w =>
      rw [phase] at knows
      exact ⟨knows.1, left⟩
  | wrote w | stored newW =>
      rw [phase] at knows
      exact knows
  | overfull newR =>
      rw [phase] at knows
      exact absurd fits (by rw [knows.1]; exact Nat.not_succ_le_self _)

theorem pop_ends {r n : Nat} {out : List α} (holds : s.Holds held)
    (copying : s.consumer = .copying r n out) (enough : n ≤ out.length)
    (ahead : s.KeepsAhead ((r + n) % s.ring.words)) :
    Holds { s.setReadTotal ((r + n) % s.ring.words) (.popped out) with consumer := .idle }
      (held.drop n) := by
  have knows := holds.consumer
  unfold ConsumerKnows at knows
  rw [copying] at knows
  obtain ⟨rfl, inside, front, short⟩ := knows
  obtain rfl : n = out.length := Nat.le_antisymm enough short
  refine holds.depart_consumer ?_ inside (List.prefix_iff_eq_take.mp front) ?_ ahead
  · rw [copying]
    intro idle
    cases idle
  · rw [holds.read, Nat.mod_add_mod]

theorem drain_loads {r : Nat} (holds : s.Holds held) (draining : s.consumer = .draining r) :
    Holds { s with
      consumer := .drained s.ring.writeTotal (s.ring.writeTotal - r) } held := by
  have fits := holds.fits_of_busy fun idle => by
    rw [draining] at idle
    cases idle
  refine holds.loads fits ⟨held.length - s.producer.uncounted, ?_, holds.write⟩
  exact Nat.le_of_eq (Nat.sub_add_cancel holds.counted)

theorem drain_ends {w discarded : Nat} (holds : s.Holds held)
    (drained : s.consumer = .drained w discarded) (ahead : s.KeepsAhead w) :
    ∃ k, Holds { s.setReadTotal w (.drained discarded (s.leaving w)) with consumer := .idle }
      (held.drop k) := by
  have knows := holds.consumer
  unfold ConsumerKnows at knows
  rw [drained] at knows
  obtain ⟨k, inside, moved⟩ := knows
  refine ⟨k, holds.depart_consumer ?_ inside ?_ moved ahead⟩
  · rw [drained]
    intro idle
    cases idle
  · rw [moved]
    exact holds.leaving_eq (Nat.le_trans (Nat.le_add_right _ _) inside)

/-! ## Steps of an observer -/

theorem len_loads (holds : s.Holds held) (counted : s.ring.lead ≤ s.ring.capacity) :
    Holds { s with observer := .loaded s.ring.writeTotal } held where
  sized := holds.sized
  pushed := holds.pushed
  read := holds.read
  write := holds.write
  counted := holds.counted
  room := holds.room
  slots := holds.slots
  alone := holds.alone
  producer := holds.producer
  consumer := holds.consumer
  observer := by
    have available := holds.available_le
    rw [← holds.lead] at available
    exact Nat.sub_le_iff_le_add'.mp (Nat.le_trans available counted)
  lengths := holds.lengths

theorem len_ends {w : Nat} (holds : s.Holds held) (loaded : s.observer = .loaded w) :
    Holds { s with
      observer := .idle
      lengths := s.lengths ++ [w - s.ring.readTotal] } held where
  sized := holds.sized
  pushed := holds.pushed
  read := holds.read
  write := holds.write
  counted := holds.counted
  room := holds.room
  slots := holds.slots
  alone := holds.alone
  producer := holds.producer
  consumer := holds.consumer
  observer := trivial
  lengths := by
    have knows := holds.observer
    unfold ObserverKnows at knows
    rw [loaded] at knows
    intro length member
    obtain member | new := List.mem_append.mp member
    · exact holds.lengths length member
    · rw [List.mem_singleton.mp new]
      exact Nat.sub_le_iff_le_add'.mpr knows

/-! ## Runs -/

theorem step {s t : RingState α} {a : RingStep α} (holds : ∃ held, s.Holds held)
    (orderly : s.Orderly a) (stepped : s.step a = some t) : ∃ held, t.Holds held := by
  obtain ⟨held, holds⟩ := holds
  cases a with
  | push sample =>
      dsimp only [RingState.step] at stepped
      split at stepped
      next idle =>
        obtain rfl := Option.some.inj stepped
        exact ⟨held, holds.push idle⟩
      · cases stepped
  | produce =>
      dsimp only [RingState.step, produce, Orderly] at stepped orderly
      cases phase : s.producer with
      | idle =>
          rw [phase] at stepped
          cases stepped
      | loaded sample w =>
          rw [phase] at stepped orderly
          obtain rfl := Option.some.inj stepped
          exact ⟨_, holds.write_slot phase orderly⟩
      | wrote w =>
          rw [phase] at stepped
          obtain rfl := Option.some.inj stepped
          exact ⟨held, holds.store_write phase⟩
      | stored newW =>
          rw [phase] at stepped
          obtain rfl := Option.some.inj stepped
          exact ⟨held, holds.check phase⟩
      | overfull newR =>
          rw [phase] at stepped orderly
          obtain rfl := Option.some.inj stepped
          exact ⟨_, holds.evict phase orderly⟩
  | popInto length | drain =>
      dsimp only [RingState.step] at stepped
      split at stepped
      · obtain rfl := Option.some.inj stepped
        have fits := Nat.not_lt.mp (mt holds.overflowing_iff.mpr orderly)
        exact ⟨held, holds.loads fits rfl⟩
      · cases stepped
  | consume =>
      dsimp only [RingState.step, consume, Orderly] at stepped orderly
      cases phase : s.consumer with
      | idle =>
          rw [phase] at stepped
          cases stepped
      | popping length r =>
          rw [phase] at stepped
          obtain rfl := Option.some.inj stepped
          exact ⟨held, holds.load_write phase⟩
      | copying r n out =>
          rw [phase] at stepped orderly
          have stepped := Option.some.inj stepped
          split at stepped
          next more =>
            obtain rfl := stepped
            exact ⟨held, holds.copy phase more⟩
          next done =>
            obtain rfl := stepped
            have enough := Nat.not_lt.mp done
            exact ⟨_, holds.pop_ends phase enough (orderly enough)⟩
      | draining r =>
          rw [phase] at stepped
          obtain rfl := Option.some.inj stepped
          exact ⟨held, holds.drain_loads phase⟩
      | drained w discarded =>
          rw [phase] at stepped orderly
          obtain rfl := Option.some.inj stepped
          obtain ⟨k, holds⟩ := holds.drain_ends phase orderly
          exact ⟨_, holds⟩
  | len =>
      dsimp only [RingState.step] at stepped
      split at stepped
      · obtain rfl := Option.some.inj stepped
        exact ⟨held, holds.len_loads orderly⟩
      · cases stepped
  | observe =>
      dsimp only [RingState.step] at stepped
      split at stepped
      · cases stepped
      next loaded =>
        obtain rfl := Option.some.inj stepped
        exact ⟨held, holds.len_ends loaded⟩

theorem start {zero : α} {width capacity : Nat} (fits : capacityOf capacity < 2 ^ width) :
    (RingState.start zero width capacity).Holds [] where
  sized := ⟨Nat.clog 2 (max capacity 2), Nat.clog_pos (by decide) (by omega),
    (Nat.pow_lt_pow_iff_right (by decide)).mp fits, Nat.sub_add_cancel (Nat.one_le_two_pow)⟩
  pushed := rfl
  read := (Nat.zero_mod _).symm
  write := (Nat.zero_mod _).symm
  counted := Nat.zero_le _
  room := Nat.zero_le _
  slots := by
    rw [List.drop_nil]
    exact shows_nil
  alone _ := rfl
  producer := Nat.zero_le _
  consumer := trivial
  observer := trivial
  lengths _ member := absurd member List.not_mem_nil

theorem dropsOldest (holds : s.Holds held) : s.DropsOldest where
  inOrder := by
    have taken : s.returned.Sublist s.taken := by
      unfold returned RingState.taken
      induction s.departures with
      | nil => exact List.Sublist.slnil
      | cons departure rest ih =>
          rw [List.flatMap_cons, List.flatMap_cons]
          refine List.Sublist.append ?_ ih
          cases departure with
          | popped out => exact List.Sublist.refl _
          | drained discarded gone | overwritten gone => exact List.nil_sublist _
    rw [holds.pushed, List.append_assoc]
    exact taken.trans (List.sublist_append_left _ _)
  bounded := holds.lengths
  unskipped _ := by
    rw [holds.pushed, List.append_assoc]
    exact List.prefix_append _ _

end Holds

theorem drops_oldest {zero : α} {width capacity : Nat} (fits : capacityOf capacity < 2 ^ width)
    {steps : List (RingStep α)} {last : RingState α}
    (orderly : Stepping.Meets RingState.step Orderly (start zero width capacity) steps)
    (ran : Stepping.run RingState.step (start zero width capacity) steps = some last) :
    last.DropsOldest := by
  obtain ⟨held, holds⟩ := orderly.invariant Holds.step ⟨[], Holds.start fits⟩ ran
  exact holds.dropsOldest

end RingState

namespace Sample

open RingStep

/-- A `push` that finds room for its sample. -/
def pushes (sample : Nat) : List (RingStep Nat) := [push sample, produce, produce, produce]

/-- A `push` that overflows. -/
def overflows (sample : Nat) : List (RingStep Nat) := pushes sample ++ [produce]

def pops (length : Nat) : List (RingStep Nat) :=
  [popInto length, consume] ++ List.replicate (length + 1) consume

def overflow : List (RingStep Nat) :=
  pushes 0 ++ pushes 1 ++ overflows 2 ++ [len, observe] ++ pops 2

theorem drops_oldest_overflow : ∃ last,
    Stepping.run RingState.step (.start 0 64 2) overflow = some last ∧ last.returned = [1, 2] ∧
      last.DropsOldest := by
  have ran : (Stepping.run RingState.step (.start 0 64 2) overflow).map RingState.returned =
      some [1, 2] := by decide
  have orderly : Stepping.Meets RingState.step RingState.Orderly (.start 0 64 2) overflow := by
    decide
  obtain ⟨last, ran, returned⟩ := Option.map_eq_some_iff.mp ran
  exact ⟨last, ran, returned, RingState.drops_oldest (by decide) orderly ran⟩

/-- The consumer has copied the oldest sample when two more drop it, and then sets the read cursor
back to a slot that is not the oldest one any more. -/
def staleCursor : List (RingStep Nat) :=
  pushes 0 ++ pushes 1 ++ [popInto 1, consume, consume] ++ overflows 2 ++ overflows 3 ++
    [consume] ++ pops 3

/-- Somebody asks between the two stores of an overflow. -/
def betweenStores : List (RingStep Nat) :=
  pushes 0 ++ pushes 1 ++ [push 2, produce, produce] ++ [len, observe]

theorem staleCursor_not_dropsOldest :
    (∃ last, Stepping.run RingState.step (.start 0 64 2) staleCursor = some last ∧
      ¬ last.returned.Sublist last.pushed) ∧
    ∃ last, Stepping.run RingState.step (.start 0 64 2) betweenStores = some last ∧
      ∃ length ∈ last.lengths, last.ring.capacity < length := by
  have popped : (Stepping.run RingState.step (.start 0 64 2) staleCursor).map
      (fun last => (last.pushed, last.returned)) = some ([0, 1, 2, 3], [0, 3, 2, 3]) := by
    decide
  have asked : (Stepping.run RingState.step (.start 0 64 2) betweenStores).map
      (fun last => (last.ring.capacity, last.lengths)) = some (2, [3]) := by
    decide
  obtain ⟨last, ran, popped⟩ := Option.map_eq_some_iff.mp popped
  obtain ⟨later, ran', asked⟩ := Option.map_eq_some_iff.mp asked
  obtain ⟨pushed, returned⟩ := Prod.mk.inj popped
  obtain ⟨capacity, lengths⟩ := Prod.mk.inj asked
  refine ⟨⟨last, ran, ?_⟩, later, ran', 3, ?_, ?_⟩
  · rw [pushed, returned]
    decide
  · rw [lengths]
    decide
  · rw [capacity]
    decide

end Sample

end Qubox.Mic
