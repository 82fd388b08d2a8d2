import Qubox.Host.DatagramLoop
import Qubox.Mic.Ring

/-!
# The microphone pipeline

The loop takes a frame of samples out of the capture ring, denoises it and gives it to the
encoder. It asks the ring for as many samples as make a frame and looks only afterwards how many
it got: what is less than a frame has left the ring by then, and is overwritten in the next
round. Samples get to the encoder in frames, and none is lost, as long as the loop never comes
upon a frame that is still being captured.
-/

namespace Qubox.Mic

universe u

/-- The processors of a frame. The encoder depends on the frames before, and may fail. -/
structure Processors (α : Type u) where
  denoise : List α → List α
  length_denoise : ∀ frame, (denoise frame).length = frame.length
  encode : List (List α) → List α → Option Bytes

structure EncodedMicFrame where
  bytes : Bytes
  sequence : UInt16
  deriving DecidableEq, Repr

/-- Where the loop is in an iteration. -/
inductive Loop where
  | checking
  | popping
  | stopped
  deriving DecidableEq, Repr

structure PipelineState (α : Type u) where
  ring : RingState α
  frameSamples : Nat
  loop : Loop
  captureBuf : List α
  /-- The frames that the encoder was given. -/
  encoded : List (List α)
  sequence : UInt16
  sent : List EncodedMicFrame
  shutdownFlag : Bool
  outClosed : Bool

inductive PipelineStep (α : Type u) where
  | push (sample : α)
  | produce
  | iterate
  | shutdown
  | closeOut

namespace PipelineState

variable {α : Type u} (processors : Processors α) (s : PipelineState α)

def start (zero : α) (width capacity frameSamples : Nat) : PipelineState α where
  ring := .start zero width capacity
  frameSamples := frameSamples
  loop := .checking
  captureBuf := List.replicate frameSamples zero
  encoded := []
  sequence := 0
  sent := []
  shutdownFlag := false
  outClosed := false

/-- The rest of an iteration that has got a frame. -/
def encodeFrame : PipelineState α :=
  let frame := processors.denoise s.captureBuf
  let s' := { s with captureBuf := frame, encoded := s.encoded ++ [frame] }
  match processors.encode s.encoded frame with
  | none => { s' with loop := .checking }
  | some [] => { s' with loop := .checking }
  | some payload =>
      let sequence := s.sequence + 1
      let bytes := Host.encodeMicDatagram sequence payload
      if s.outClosed then { s' with sequence, loop := .stopped }
      else { s' with sequence, sent := s.sent ++ [⟨bytes, sequence⟩], loop := .checking }

/-- The rest of an iteration, once `pop_into` has filled a part of the buffer. -/
def popped (out : List α) : PipelineState α :=
  let s' := { s with captureBuf := out ++ s.captureBuf.drop out.length }
  if out.length < s.frameSamples then { s' with loop := .checking }
  else s'.encodeFrame processors

/-- The next load or store of an iteration. -/
def iterate : Option (PipelineState α) :=
  match s.loop with
  | .checking =>
      if s.shutdownFlag then some { s with loop := .stopped }
      else (s.ring.step (.popInto s.frameSamples)).map fun ring =>
        { s with ring, loop := .popping }
  | .popping => s.ring.consume.map fun ring =>
      match s.ring.consumer with
      | .copying _ n out =>
          if out.length < n then { s with ring }
          else { s with ring }.popped processors out
      | _ => { s with ring }
  | .stopped => none

def step (s : PipelineState α) : PipelineStep α → Option (PipelineState α)
  | .push sample => (s.ring.step (.push sample)).map fun ring => { s with ring }
  | .produce => s.ring.produce.map fun ring => { s with ring }
  | .iterate => s.iterate processors
  | .shutdown => some { s with shutdownFlag := true }
  | .closeOut => some { s with outClosed := true }

/-! ## What the pipeline owes -/

/-- The samples are encoded in frames, which follow each other. Once the ring has less than a
frame, less than a frame is missing. -/
structure EncodesFrames (frames : List (List α)) : Prop where
  whole : ∀ frame ∈ frames, frame.length = s.frameSamples
  consecutive : frames.flatten <+: s.ring.pushed
  encoded : s.encoded = frames.map processors.denoise
  complete : s.ring.producer = .idle → s.ring.ring.lead < s.frameSamples →
    s.ring.pushed.length < frames.flatten.length + s.frameSamples

/-- A sample goes into a ring that has room for it. -/
def HasRoom : Prop :=
  match s.ring.producer with
  | .loaded _ _ => s.ring.ring.lead < s.ring.ring.capacity
  | _ => True

/-- The loop finds a whole frame, or nothing. -/
def FindsFrame : Prop :=
  match s.ring.consumer with
  | .popping _ r =>
      s.ring.ring.writeTotal - r = 0 ∨ s.frameSamples ≤ s.ring.ring.writeTotal - r
  | _ => True

def Unbroken (s : PipelineState α) : PipelineStep α → Prop
  | .produce => s.HasRoom
  | .iterate => s.FindsFrame
  | _ => True

instance : Decidable s.HasRoom := by
  unfold HasRoom
  cases s.ring.producer <;> infer_instance

instance : Decidable s.FindsFrame := by
  unfold FindsFrame
  cases s.ring.consumer <;> infer_instance

instance : ∀ (s : PipelineState α) a, Decidable (s.Unbroken a)
  | _, .push _ => .isTrue trivial
  | s, .produce => inferInstanceAs (Decidable s.HasRoom)
  | s, .iterate => inferInstanceAs (Decidable s.FindsFrame)
  | _, .shutdown => .isTrue trivial
  | _, .closeOut => .isTrue trivial

end PipelineState

namespace RingState.Holds

variable {α : Type u} {s t : RingState α} {held : List α}

/-- The producer goes on in a ring that has room. -/
theorem produce_fits (holds : s.Holds held) (fits : held.length ≤ s.ring.capacity)
    (room : ∀ sample w, s.producer = .loaded sample w → s.ring.lead < s.ring.capacity)
    (produced : s.produce = some t) :
    ∃ held', t.Holds held' ∧ held'.length ≤ t.ring.capacity ∧
      t.departures = s.departures ∧ t.consumer = s.consumer ∧ t.observer = s.observer := by
  dsimp only [produce] at produced
  cases phase : s.producer with
  | idle =>
      rw [phase] at produced
      cases produced
  | loaded sample w =>
      have room := room sample w phase
      rw [phase] at produced
      obtain rfl := Option.some.inj produced
      refine ⟨_, holds.write_slot phase (fun full => absurd full (Nat.not_le.mpr room)), ?_, rfl,
        rfl, rfl⟩
      rw [holds.lead, phase] at room
      rw [List.length_append]
      exact room
  | wrote w =>
      rw [phase] at produced
      obtain rfl := Option.some.inj produced
      exact ⟨held, holds.store_write phase, fits, rfl, rfl, rfl⟩
  | stored newW =>
      rw [phase] at produced
      obtain rfl := Option.some.inj produced
      exact ⟨held, holds.check phase, fits, rfl, rfl, rfl⟩
  | overfull newR =>
      have knows := holds.producer
      unfold ProducerKnows at knows
      rw [phase] at knows
      exact absurd fits (by rw [knows.1]; exact Nat.not_succ_le_self _)

end RingState.Holds

namespace PipelineState

variable {α : Type u} {processors : Processors α} {s t : PipelineState α}

/-! ## The rest of an iteration -/

theorem encodeFrame_eq (processors : Processors α) (s : PipelineState α) :
    ∃ loop sequence sent, loop ≠ .popping ∧
      s.encodeFrame processors = { s with
        captureBuf := processors.denoise s.captureBuf
        encoded := s.encoded ++ [processors.denoise s.captureBuf]
        loop, sequence, sent } := by
  unfold encodeFrame
  dsimp only
  split
  · exact ⟨_, _, _, Loop.noConfusion, rfl⟩
  · exact ⟨_, _, _, Loop.noConfusion, rfl⟩
  · split
    · exact ⟨_, _, _, Loop.noConfusion, rfl⟩
    · exact ⟨_, _, _, Loop.noConfusion, rfl⟩

/-! ## The invariant -/

/-- The consumer is at work during an iteration only. It looks for a whole frame, and has found
one or nothing. -/
def LoopKnows (s : PipelineState α) : Prop :=
  match s.ring.consumer with
  | .idle => s.loop ≠ .popping
  | .popping length _ => s.loop = .popping ∧ length = s.frameSamples
  | .copying _ n _ => s.loop = .popping ∧ (n = 0 ∨ n = s.frameSamples)
  | _ => False

/-- What has left the ring are the frames that were encoded. -/
structure Flows (processors : Processors α) (s : PipelineState α) (held : List α)
    (frames : List (List α)) : Prop where
  holds : s.ring.Holds held
  fits : held.length ≤ s.ring.ring.capacity
  unobserved : s.ring.observer = .idle
  whole : ∀ frame ∈ frames, frame.length = s.frameSamples
  taken : s.ring.taken = frames.flatten
  encoded : s.encoded = frames.map processors.denoise
  buffer : s.captureBuf.length = s.frameSamples
  knows : s.LoopKnows

variable {held : List α} {frames : List (List α)}

namespace Flows

theorem encodesFrames (flows : Flows processors s held frames) :
    s.EncodesFrames processors frames where
  whole := flows.whole
  consecutive := by
    rw [flows.holds.pushed, List.append_assoc, flows.taken]
    exact List.prefix_append _ _
  encoded := flows.encoded
  complete idle less := by
    have pushed := congrArg List.length flows.holds.pushed
    rw [flows.holds.lead, idle] at less
    rw [idle, flows.taken, List.length_append, List.length_append] at pushed
    rw [pushed]
    exact Nat.add_lt_add_left less _

/-- The ring goes on, and nothing leaves it. -/
theorem moves {held' : List α} {ring : RingState α} {loop : Loop}
    (flows : Flows processors s held frames) (holds : ring.Holds held')
    (fits : held'.length ≤ ring.ring.capacity) (departures : ring.departures = s.ring.departures)
    (unobserved : ring.observer = .idle) (knows : LoopKnows { s with ring, loop }) :
    Flows processors { s with ring, loop } held' frames where
  holds := holds
  fits := fits
  unobserved := unobserved
  whole := flows.whole
  taken := by
    rw [← flows.taken, RingState.taken, RingState.taken, departures]
  encoded := flows.encoded
  buffer := flows.buffer
  knows := knows

/-- The end of an iteration: a whole frame has left the ring and goes to the encoder, or nothing
has. -/
theorem pops {ring : RingState α} {held' out : List α} (flows : Flows processors s held frames)
    (holds : ring.Holds held') (fits : held'.length ≤ ring.ring.capacity)
    (unobserved : ring.observer = .idle) (idle : ring.consumer = .idle)
    (taken : ring.taken = s.ring.taken ++ out)
    (found : out.length = 0 ∨ out.length = s.frameSamples) :
    ∃ frames', Flows processors ({ s with ring }.popped processors out) held' frames' := by
  by_cases short : out.length < s.frameSamples
  · have nothing : out = [] := by
      obtain nothing | frame := found
      · exact List.eq_nil_of_length_eq_zero nothing
      · exact absurd short (Nat.not_lt.mpr frame.ge)
    subst nothing
    refine ⟨frames, ?_⟩
    rw [popped, if_pos short]
    refine
      { holds, fits, unobserved
        whole := flows.whole
        taken := by rw [taken, List.append_nil, flows.taken]
        encoded := flows.encoded
        buffer := flows.buffer
        knows := ?_ }
    unfold LoopKnows
    rw [idle]
    exact Loop.noConfusion
  · have frame : out.length = s.frameSamples := by omega
    have full : out ++ s.captureBuf.drop out.length = out := by
      rw [frame, ← flows.buffer, List.drop_length, List.append_nil]
    refine ⟨frames ++ [out], ?_⟩
    rw [popped, if_neg short]
    dsimp only
    rw [full]
    obtain ⟨loop, sequence, sent, resting, encodes⟩ :=
      encodeFrame_eq processors { s with ring, captureBuf := out }
    rw [encodes]
    refine
      { holds, fits, unobserved
        whole := ?_
        taken := ?_
        encoded := ?_
        buffer := ?_
        knows := ?_ }
    · intro frame' member
      obtain member | last := List.mem_append.mp member
      · exact flows.whole frame' member
      · rwa [List.mem_singleton.mp last]
    · rw [taken, flows.taken, List.flatten_concat]
    · rw [flows.encoded, List.map_append]
      rfl
    · rw [processors.length_denoise]
      exact frame
    · unfold LoopKnows
      rw [idle]
      exact resting

end Flows

namespace Flows

/-! ## Steps -/

theorem push {sample : α} (flows : Flows processors s held frames)
    (stepped : s.step processors (.push sample) = some t) :
    Flows processors t held frames := by
  obtain ⟨ring, pushed, rfl⟩ := Option.map_eq_some_iff.mp stepped
  dsimp only [RingState.step] at pushed
  split at pushed
  next idle =>
    obtain rfl := Option.some.inj pushed
    exact flows.moves (flows.holds.push idle) flows.fits rfl flows.unobserved
      flows.knows
  · cases pushed

theorem produce (flows : Flows processors s held frames) (room : s.HasRoom)
    (stepped : s.step processors .produce = some t) :
    ∃ held', Flows processors t held' frames := by
  obtain ⟨ring, produced, rfl⟩ := Option.map_eq_some_iff.mp stepped
  have free : ∀ sample w, s.ring.producer = .loaded sample w →
      s.ring.ring.lead < s.ring.ring.capacity := by
    intro sample w loaded
    unfold HasRoom at room
    rwa [loaded] at room
  obtain ⟨held', holds, fits, departures, consumer, observer⟩ :=
    flows.holds.produce_fits flows.fits free produced
  refine ⟨held', flows.moves holds fits departures
    (observer.trans flows.unobserved) ?_⟩
  have knows := flows.knows
  unfold LoopKnows at knows ⊢
  rwa [consumer]

/-- Between iterations the consumer is idle. -/
theorem idle (flows : Flows processors s held frames) (resting : s.loop ≠ .popping) :
    s.ring.consumer = .idle := by
  have knows := flows.knows
  unfold LoopKnows at knows
  split at knows
  next idle => exact idle
  · exact absurd knows.1 resting
  · exact absurd knows.1 resting
  · exact knows.elim

theorem check (flows : Flows processors s held frames) (checking : s.loop = .checking)
    (iterated : s.iterate processors = some t) : Flows processors t held frames := by
  have idle := flows.idle (by rw [checking]; exact Loop.noConfusion)
  unfold PipelineState.iterate at iterated
  rw [checking] at iterated
  dsimp only at iterated
  split at iterated
  · obtain rfl := Option.some.inj iterated
    refine flows.moves flows.holds flows.fits rfl flows.unobserved ?_
    unfold LoopKnows
    rw [idle]
    exact Loop.noConfusion
  · obtain ⟨ring, started, rfl⟩ := Option.map_eq_some_iff.mp iterated
    dsimp only [RingState.step] at started
    rw [idle] at started
    obtain rfl := Option.some.inj started
    exact flows.moves (flows.holds.loads flows.fits rfl) flows.fits rfl flows.unobserved
      ⟨rfl, rfl⟩

theorem pop (flows : Flows processors s held frames) (popping : s.loop = .popping)
    (finds : s.FindsFrame) (iterated : s.iterate processors = some t) :
    ∃ held' frames', Flows processors t held' frames' := by
  have holds := flows.holds
  have knows := flows.knows
  unfold LoopKnows at knows
  unfold FindsFrame at finds
  unfold PipelineState.iterate at iterated
  rw [popping] at iterated
  dsimp only [RingState.consume] at iterated
  cases phase : s.ring.consumer with
  | idle =>
      rw [phase] at knows
      exact absurd popping knows
  | popping length r =>
      rw [phase] at knows finds iterated
      obtain rfl := Option.some.inj iterated
      refine ⟨held, frames, flows.moves (holds.load_write phase) flows.fits rfl
        flows.unobserved ⟨rfl, ?_⟩⟩
      obtain ⟨-, rfl⟩ := knows
      obtain nothing | frame := finds
      · exact .inl (by rw [nothing, Nat.zero_min])
      · exact .inr (Nat.min_eq_right frame)
  | copying r n out =>
      rw [phase] at knows iterated
      dsimp only at iterated
      by_cases more : out.length < n
      · simp only [if_pos more] at iterated
        obtain rfl := Option.some.inj iterated
        exact ⟨held, frames, flows.moves (holds.copy phase more) flows.fits rfl flows.unobserved
          ⟨rfl, knows.2⟩⟩
      · simp only [if_neg more] at iterated
        obtain rfl := Option.some.inj iterated
        have copied := Nat.not_lt.mp more
        have least := holds.consumer
        unfold RingState.ConsumerKnows at least
        rw [phase] at least
        have length : out.length = n := Nat.le_antisymm least.2.2.2 copied
        have popped := holds.pop_ends phase copied (.inl flows.unobserved)
        refine ⟨held.drop n, flows.pops popped ?_ flows.unobserved rfl ?_ (length ▸ knows.2)⟩
        · rw [List.length_drop]
          exact Nat.le_trans (Nat.sub_le _ _) flows.fits
        · rw [RingState.taken, RingState.setReadTotal, List.flatMap_append,
            List.flatMap_singleton]
          rfl
  | draining r | drained w discarded =>
      rw [phase] at knows
      exact knows.elim

theorem step {a : PipelineStep α} (flows : ∃ held frames, Flows processors s held frames)
    (unbroken : s.Unbroken a) (stepped : s.step processors a = some t) :
    ∃ held frames, Flows processors t held frames := by
  obtain ⟨held, frames, flows⟩ := flows
  cases a with
  | push sample => exact ⟨held, frames, flows.push stepped⟩
  | produce =>
      obtain ⟨held', flows⟩ := flows.produce unbroken stepped
      exact ⟨held', frames, flows⟩
  | iterate =>
      have iterated : s.iterate processors = some t := stepped
      cases phase : s.loop with
      | checking => exact ⟨held, frames, flows.check phase iterated⟩
      | popping => exact flows.pop phase unbroken iterated
      | stopped =>
          unfold PipelineState.iterate at iterated
          rw [phase] at iterated
          cases iterated
  | shutdown | closeOut =>
      obtain rfl := Option.some.inj stepped
      exact ⟨held, frames, { flows with }⟩

theorem start {zero : α} {width capacity frameSamples : Nat}
    (fits : capacityOf capacity < 2 ^ width) :
    Flows processors (.start zero width capacity frameSamples) [] [] where
  holds := RingState.Holds.start fits
  fits := Nat.zero_le _
  unobserved := rfl
  whole _ member := absurd member List.not_mem_nil
  taken := rfl
  encoded := rfl
  buffer := List.length_replicate
  knows := Loop.noConfusion

end Flows

theorem encodes_frames {zero : α} {width capacity frameSamples : Nat}
    (fits : capacityOf capacity < 2 ^ width) {steps : List (PipelineStep α)}
    {last : PipelineState α}
    (unbroken : Stepping.Meets (PipelineState.step processors) Unbroken
      (start zero width capacity frameSamples) steps)
    (ran : Stepping.run (PipelineState.step processors)
      (start zero width capacity frameSamples) steps = some last) :
    ∃ frames, last.EncodesFrames processors frames := by
  obtain ⟨held, frames, flows⟩ :=
    unbroken.invariant Flows.step ⟨[], [], Flows.start fits⟩ ran
  exact ⟨frames, flows.encodesFrames⟩

end PipelineState

namespace Sample

open PipelineStep

/-- Neither denoises nor encodes. -/
def passing : Processors Nat where
  denoise frame := frame
  length_denoise _ := rfl
  encode _ frame := some (frame.map UInt8.ofNat)

def captures (sample : Nat) : List (PipelineStep Nat) := [push sample, produce, produce, produce]

/-- An iteration that copies this many samples. -/
def iteration (n : Nat) : List (PipelineStep Nat) := List.replicate (n + 3) iterate

def wholeFrames : List (PipelineStep Nat) :=
  iteration 0 ++ captures 0 ++ captures 1 ++ captures 2 ++ iteration 2 ++ captures 3 ++ iteration 2

theorem encodes_frames_wholeFrames : ∃ last,
    Stepping.run (PipelineState.step passing) (.start 0 64 4 2) wholeFrames = some last ∧
      last.encoded = [[0, 1], [2, 3]] ∧ ∃ frames, last.EncodesFrames passing frames := by
  have ran : (Stepping.run (PipelineState.step passing) (.start 0 64 4 2) wholeFrames).map
      PipelineState.encoded = some [[0, 1], [2, 3]] := by decide
  have unbroken : Stepping.Meets (PipelineState.step passing) PipelineState.Unbroken
      (.start 0 64 4 2) wholeFrames := by decide
  obtain ⟨last, ran, encoded⟩ := Option.map_eq_some_iff.mp ran
  exact ⟨last, ran, encoded, PipelineState.encodes_frames (by decide) unbroken ran⟩

/-- An iteration comes upon half a frame. -/
def halfFrame : List (PipelineStep Nat) :=
  captures 0 ++ iteration 1 ++ captures 1 ++ captures 2 ++ iteration 2

/-- The first sample is lost, and the frame that is encoded is not a frame of the stream. -/
theorem halfFrame_not_encodesFrames : ∃ last,
    Stepping.run (PipelineState.step passing) (.start 0 64 4 2) halfFrame = some last ∧
      last.encoded = [[1, 2]] ∧ ¬ ∃ frames, last.EncodesFrames passing frames := by
  have ran : (Stepping.run (PipelineState.step passing) (.start 0 64 4 2) halfFrame).map
      (fun last => (last.ring.pushed, last.encoded)) = some ([0, 1, 2], [[1, 2]]) := by
    decide
  obtain ⟨last, ran, found⟩ := Option.map_eq_some_iff.mp ran
  obtain ⟨pushed, encoded⟩ := Prod.mk.inj found
  refine ⟨last, ran, encoded, ?_⟩
  rintro ⟨frames, encodes⟩
  have same : frames = [[1, 2]] := by
    rw [← encoded, encodes.encoded]
    exact (List.map_id frames).symm
  have consecutive := encodes.consecutive
  rw [same, pushed] at consecutive
  exact absurd consecutive (by decide)

end Sample

end Qubox.Mic
