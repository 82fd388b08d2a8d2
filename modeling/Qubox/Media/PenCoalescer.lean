import Qubox.Library.Stepping
import Qubox.Library.Superseding
import Qubox.Media.Pen

/-!
# The pen coalescer

One thread takes pen events from a source and forwards them into a channel of limited depth. Of
the events that are there within a window only the last one is forwarded, of whichever device.
An event that finds the channel full is dropped, and that is the newest one. As long as a window
has events of one device only and the channel has room, every device gets its last event through.
-/

namespace Qubox.Media

structure CoalesceConfig where
  window : Nat
  channelDepth : Nat
  /-- A channel of depth 0 would hand over to a receiver that waits. -/
  deep : 0 < channelDepth

/-- Where the thread is in a round of its loop. -/
inductive CoalescePhase where
  | receiving
  /-- `recv`, after a buffered event was forwarded. -/
  | blocking
  | received (event : PenEvent)
  /-- Emptying the source, since this time. -/
  | draining (now : Nat)
  | returned
  deriving DecidableEq

structure PenCoalescer where
  cfg : CoalesceConfig
  latest : Option PenEvent
  windowStarted : Nat
  phase : CoalescePhase
  clock : Nat
  source : List PenEvent
  closed : Bool
  channel : List PenEvent
  sent : List PenEvent
  /-- What the receiver has taken out of the channel. -/
  delivered : List PenEvent
  /-- What found the channel full. -/
  refused : List PenEvent

inductive CoalesceStep where
  | send (event : PenEvent)
  | close
  | wait (time : Nat)
  | deliver
  | work

def CoalesceStep.isWork : CoalesceStep → Bool
  | work => true
  | _ => false

def PenEvent.tagged (event : PenEvent) : PenEvent :=
  { event with flags := event.flags ||| flagLastInBurst }

namespace PenCoalescer

variable (s : PenCoalescer)

def start (cfg : CoalesceConfig) : PenCoalescer where
  cfg := cfg
  latest := none
  windowStarted := 0
  phase := .receiving
  clock := 0
  source := []
  closed := false
  channel := []
  sent := []
  delivered := []
  refused := []

def forwardOrDrop (event : PenEvent) : PenCoalescer :=
  if s.channel.length < s.cfg.channelDepth then { s with channel := s.channel ++ [event] }
  else { s with refused := s.refused ++ [event] }

/-- The part of a round up to the next look at the source. `recv_deadline` may time out any number
of times without an effect. -/
def work : Option PenCoalescer :=
  match s.phase with
  | .receiving =>
      match s.latest, s.source with
      | some pending, _ =>
          some { s.forwardOrDrop pending with latest := none, phase := .blocking }
      | none, event :: source => some { s with source, phase := .received event }
      | none, [] => if s.closed then some { s with phase := .returned } else none
  | .blocking =>
      match s.source with
      | event :: source => some { s with source, phase := .received event }
      | [] => if s.closed then some { s with phase := .returned } else none
  | .received event =>
      if s.cfg.window ≤ s.clock - s.windowStarted then
        some { s.forwardOrDrop event with windowStarted := s.clock, phase := .receiving }
      else some { s with latest := some event, phase := .draining s.clock }
  | .draining now =>
      match s.source with
      | next :: source => some { s with source, latest := some next }
      | [] =>
          if s.closed then
            match s.latest with
            | some event => some { s.forwardOrDrop event with latest := none, phase := .returned }
            | none => some { s with phase := .returned }
          else
            match s.latest with
            | some event => some { s.forwardOrDrop event.tagged with
                latest := none
                windowStarted := now
                phase := .receiving }
            | none => some { s with windowStarted := now, phase := .receiving }
  | .returned => none

def step (s : PenCoalescer) : CoalesceStep → Option PenCoalescer
  | .send event =>
      if s.closed then none
      else some { s with source := s.source ++ [event], sent := s.sent ++ [event] }
  | .close => some { s with closed := true }
  | .wait time => some { s with clock := s.clock + time }
  | .deliver =>
      match s.channel with
      | [] => none
      | event :: channel => some { s with channel, delivered := s.delivered ++ [event] }
  | .work => s.work

/-! ## What the coalescer owes -/

/-- An event comes through as it was, or marked as the last one of a burst. -/
def ComesAs (event delivered : PenEvent) : Prop := delivered = event ∨ delivered = event.tagged

/-- The events of a device. -/
def ofDevice (device : UInt16) (events : List PenEvent) : List PenEvent :=
  events.filter fun event => event.deviceId = device

/-- What is delivered is a subsequence of what was sent, and once the source is closed and all is
taken out of the channel, the last event of every device is. The event at hand is always the
newest one, so a full channel never costs it. -/
structure KeepsNewest : Prop where
  subsequence : ∃ kept, kept.Sublist s.sent ∧ List.Forall₂ ComesAs kept s.delivered
  last : s.phase = .returned → s.channel = [] → ∀ device event,
    (ofDevice device s.sent).getLast? = some event → ∃ got ∈ s.delivered, ComesAs event got
  newest : s.refused = []

/-! ## When it does -/

/-- The channel has room. -/
def HasRoom : Prop := s.channel.length < s.cfg.channelDepth

/-- The channel has room for what is forwarded, and the event that takes the place of the latest
one is of the same device. -/
def Sound (s : PenCoalescer) : CoalesceStep → Prop
  | .work =>
      match s.phase, s.latest, s.source with
      | .receiving, some _, _ => s.HasRoom
      | .received _, _, _ => s.cfg.window ≤ s.clock - s.windowStarted → s.HasRoom
      | .draining _, some _, [] => s.HasRoom
      | .draining _, some latest, next :: _ => latest.deviceId = next.deviceId
      | _, _, _ => True
  | _ => True

instance : Decidable s.HasRoom := inferInstanceAs (Decidable (_ < _))

instance : ∀ (s : PenCoalescer) a, Decidable (s.Sound a)
  | s, .work => by
      unfold Sound
      cases s.phase <;> cases s.latest <;> cases s.source <;> infer_instance
  | _, .send _ => .isTrue trivial
  | _, .close => .isTrue trivial
  | _, .wait _ => .isTrue trivial
  | _, .deliver => .isTrue trivial

/-! ## The invariant -/

def SameDevice (event next : PenEvent) : Prop := event.deviceId = next.deviceId

/-- What the thread has in hand. -/
def held : List PenEvent :=
  match s.phase with
  | .received event => [event]
  | _ => s.latest.toList

/-- Only while it empties the source, the thread has a latest event. -/
def Settled : Prop :=
  match s.phase with
  | .draining _ => True
  | _ => s.latest = none

/-- What was taken from the source is forwarded or in hand, but for events that one of the same
device followed. -/
structure Flows (s : PenCoalescer) (taken kept : List PenEvent) : Prop where
  sent : s.sent = taken ++ s.source
  thinned : Superseding SameDevice taken (kept ++ s.held)
  forwarded : List.Forall₂ ComesAs kept (s.delivered ++ s.channel)
  refused : s.refused = []
  settled : s.Settled
  returned : s.phase = .returned → s.closed = true ∧ s.source = []

variable {s t : PenCoalescer} {taken kept : List PenEvent} {event : PenEvent}

theorem forwardOrDrop_eq (room : s.HasRoom) :
    s.forwardOrDrop event = { s with channel := s.channel ++ [event] } := if_pos room

namespace Flows

theorem start (cfg : CoalesceConfig) : Flows (.start cfg) [] [] where
  sent := rfl
  thinned := .nil
  forwarded := .nil
  refused := rfl
  settled := rfl
  returned returned := by cases returned

/-- The event in hand is forwarded, as it is or tagged. -/
theorem forward {sentOn : PenEvent} (flows : Flows s taken kept) (holds : s.held = [event])
    (comes : ComesAs event sentOn) :
    Superseding SameDevice taken (kept ++ [event] ++ []) ∧
      List.Forall₂ ComesAs (kept ++ [event]) (s.delivered ++ (s.channel ++ [sentOn])) := by
  have thinned := flows.thinned
  rw [holds] at thinned
  refine ⟨by rwa [List.append_nil], ?_⟩
  rw [← List.append_assoc]
  exact List.rel_append flows.forwarded (.cons comes .nil)

/-- The next event is taken out of the source into an empty hand. -/
theorem take {source : List PenEvent} (flows : Flows s taken kept)
    (waits : s.source = event :: source) (empty : s.held = []) (none : s.latest = none) :
    Flows { s with source, phase := .received event } (taken ++ [event]) kept where
  sent := by rw [flows.sent, waits, List.append_cons]
  thinned := by
    have thinned := flows.thinned
    rw [empty, List.append_nil] at thinned
    exact thinned.concat event
  forwarded := flows.forwarded
  refused := flows.refused
  settled := none
  returned returned := by cases returned

/-- With an empty hand the thread returns. -/
theorem returns (flows : Flows s taken kept) (empty : s.held = []) (none : s.latest = none)
    (closed : s.closed = true) (waits : s.source = []) :
    Flows { s with phase := .returned } taken kept where
  sent := flows.sent
  thinned := by
    have thinned := flows.thinned
    rw [empty] at thinned
    rwa [held, none]
  forwarded := flows.forwarded
  refused := flows.refused
  settled := none
  returned _ := ⟨closed, waits⟩

theorem receive (flows : Flows s taken kept) (receiving : s.phase = .receiving)
    (worked : s.work = some t) : ∃ taken kept, Flows t taken kept := by
  have settled := flows.settled
  unfold Settled at settled
  rw [receiving] at settled
  have none : s.latest = none := settled
  have empty : s.held = [] := by rw [held, receiving, none]; rfl
  unfold work at worked
  rw [receiving] at worked
  dsimp only at worked
  split at worked
  next found =>
    rw [none] at found
    cases found
  next event source _ waits =>
    obtain rfl := Option.some.inj worked
    exact ⟨_, _, flows.take waits empty none⟩
  next _ waits =>
    split at worked
    next closed =>
      obtain rfl := Option.some.inj worked
      exact ⟨taken, kept, flows.returns empty none closed waits⟩
    · cases worked

theorem block (flows : Flows s taken kept) (blocking : s.phase = .blocking)
    (worked : s.work = some t) : ∃ taken kept, Flows t taken kept := by
  have settled := flows.settled
  unfold Settled at settled
  rw [blocking] at settled
  have none : s.latest = none := settled
  have empty : s.held = [] := by rw [held, blocking, none]; rfl
  unfold work at worked
  rw [blocking] at worked
  dsimp only at worked
  split at worked
  next event source waits =>
    obtain rfl := Option.some.inj worked
    exact ⟨_, _, flows.take waits empty none⟩
  next waits =>
    split at worked
    next closed =>
      obtain rfl := Option.some.inj worked
      exact ⟨taken, kept, flows.returns empty none closed waits⟩
    · cases worked

theorem look {event : PenEvent} (flows : Flows s taken kept) (received : s.phase = .received event)
    (room : s.cfg.window ≤ s.clock - s.windowStarted → s.HasRoom) (worked : s.work = some t) :
    ∃ taken kept, Flows t taken kept := by
  have settled := flows.settled
  unfold Settled at settled
  rw [received] at settled
  have holds : s.held = [event] := by rw [held, received]
  unfold work at worked
  rw [received] at worked
  dsimp only at worked
  split at worked
  next elapsed =>
    obtain rfl := Option.some.inj worked
    obtain ⟨thinned, forwarded⟩ := flows.forward holds (.inl rfl)
    refine ⟨taken, kept ++ [event], ?_⟩
    rw [forwardOrDrop_eq (room elapsed)]
    refine ⟨flows.sent, ?_, forwarded, flows.refused, settled, ?_⟩
    · rw [held, settled]
      exact thinned
    · intro returned
      cases returned
  next within =>
    obtain rfl := Option.some.inj worked
    refine ⟨taken, kept, flows.sent, ?_, flows.forwarded, flows.refused, trivial, ?_⟩
    · have thinned := flows.thinned
      rw [holds] at thinned
      exact thinned
    · intro returned
      cases returned

/-- The hand is emptied into the channel, in a phase that goes on without it. -/
theorem empties {sentOn : PenEvent} {windowStarted : Nat} {phase : CoalescePhase}
    (flows : Flows s taken kept) (holds : s.held = [event]) (comes : ComesAs event sentOn)
    (free : phase = .receiving ∨ phase = .returned)
    (returned : phase = .returned → s.closed = true ∧ s.source = []) :
    Flows { s with channel := s.channel ++ [sentOn], latest := none, windowStarted, phase }
      taken (kept ++ [event]) := by
  obtain ⟨thinned, forwarded⟩ := flows.forward holds comes
  obtain rfl | rfl := free
  · exact ⟨flows.sent, thinned, forwarded, flows.refused, rfl, returned⟩
  · exact ⟨flows.sent, thinned, forwarded, flows.refused, rfl, returned⟩

theorem drain {now : Nat} (flows : Flows s taken kept) (draining : s.phase = .draining now)
    (sound : s.Sound .work) (worked : s.work = some t) : ∃ taken kept, Flows t taken kept := by
  unfold Sound at sound
  unfold work at worked
  rw [draining] at sound worked
  have holds : s.held = s.latest.toList := by rw [held, draining]
  dsimp only at worked
  split at worked
  next event source waits =>
    obtain rfl := Option.some.inj worked
    have sent := flows.sent
    rw [waits, List.append_cons] at sent
    have thinned := flows.thinned
    rw [holds] at thinned
    refine ⟨taken ++ [event], kept, sent, ?_, flows.forwarded, flows.refused, trivial, ?_⟩
    · change Superseding SameDevice (taken ++ [event]) (kept ++ [event])
      cases found : s.latest with
      | none =>
          rw [found, Option.toList_none, List.append_nil] at thinned
          exact thinned.concat event
      | some latest =>
          rw [found, waits] at sound
          rw [found] at thinned
          exact thinned.give_way sound
    · intro returned
      cases returned
  next waits =>
    rw [waits] at sound
    split at worked
    next closed =>
      split at worked
      next latest found =>
        obtain rfl := Option.some.inj worked
        rw [found] at sound holds
        rw [forwardOrDrop_eq sound]
        exact ⟨taken, _, flows.empties holds (.inl rfl) (.inr rfl) fun _ => ⟨closed, waits⟩⟩
      next found =>
        obtain rfl := Option.some.inj worked
        rw [found] at holds
        exact ⟨taken, kept, flows.returns holds found closed waits⟩
    · split at worked
      next latest found =>
        obtain rfl := Option.some.inj worked
        rw [found] at sound holds
        rw [forwardOrDrop_eq sound]
        refine ⟨taken, _, flows.empties holds (.inr rfl) (.inl rfl) fun returned => ?_⟩
        cases returned
      next found =>
        obtain rfl := Option.some.inj worked
        rw [found] at holds
        have thinned := flows.thinned
        rw [holds] at thinned
        refine ⟨taken, kept, flows.sent, ?_, flows.forwarded, flows.refused, found, ?_⟩
        · rwa [held, found]
        · intro returned
          cases returned

theorem step {a : CoalesceStep} (flows : ∃ taken kept, Flows s taken kept) (sound : s.Sound a)
    (stepped : s.step a = some t) : ∃ taken kept, Flows t taken kept := by
  obtain ⟨taken, kept, flows⟩ := flows
  cases a with
  | send event =>
      dsimp only [PenCoalescer.step] at stepped
      split at stepped
      · cases stepped
      next opened =>
        obtain rfl := Option.some.inj stepped
        refine ⟨taken, kept, ?_, flows.thinned, flows.forwarded, flows.refused, flows.settled, ?_⟩
        · rw [flows.sent, List.append_assoc]
        · intro returned
          exact absurd (flows.returned returned).1 opened
  | close =>
      obtain rfl := Option.some.inj stepped
      refine ⟨taken, kept, flows.sent, flows.thinned, flows.forwarded, flows.refused,
        flows.settled, ?_⟩
      intro returned
      exact ⟨rfl, (flows.returned returned).2⟩
  | wait time =>
      obtain rfl := Option.some.inj stepped
      exact ⟨taken, kept, { flows with }⟩
  | deliver =>
      dsimp only [PenCoalescer.step] at stepped
      split at stepped
      · cases stepped
      next event channel filled =>
        obtain rfl := Option.some.inj stepped
        refine ⟨taken, kept, flows.sent, flows.thinned, ?_, flows.refused, flows.settled,
          flows.returned⟩
        have forwarded := flows.forwarded
        rwa [filled, List.append_cons] at forwarded
  | work =>
      have worked : s.work = some t := stepped
      cases phase : s.phase with
      | receiving => exact flows.receive phase worked
      | blocking => exact flows.block phase worked
      | received event =>
          unfold Sound at sound
          rw [phase] at sound
          exact flows.look phase sound worked
      | draining now => exact flows.drain phase sound worked
      | returned =>
          unfold work at worked
          rw [phase] at worked
          cases worked

/-- Every event that was kept has come through. -/
theorem comes_of_mem {events got : List PenEvent} (comes : List.Forall₂ ComesAs events got)
    (member : event ∈ events) : ∃ got' ∈ got, ComesAs event got' := by
  induction comes with
  | nil => cases member
  | cons first _ ih =>
      obtain _ | ⟨_, later⟩ := member
      · exact ⟨_, .head _, first⟩
      · obtain ⟨got', there, came⟩ := ih later
        exact ⟨got', .tail _ there, came⟩

theorem keepsNewest (flows : Flows s taken kept) : s.KeepsNewest where
  subsequence := by
    refine ⟨kept.take s.delivered.length, ?_, List.forall₂_take_append _ _ _ flows.forwarded⟩
    have sub := (List.sublist_append_left kept s.held).trans flows.thinned.sublist
    rw [flows.sent]
    exact ((List.take_sublist _ _).trans sub).trans (List.sublist_append_left _ _)
  last returned drained device event last := by
    have settled := flows.settled
    rw [Settled, returned] at settled
    have thinned := flows.thinned
    have sent := flows.sent
    have forwarded := flows.forwarded
    rw [held, returned, settled, Option.toList_none, List.append_nil] at thinned
    rw [(flows.returned returned).2, List.append_nil] at sent
    rw [drained, List.append_nil] at forwarded
    have kinds : ∀ a b : PenEvent, SameDevice a b →
        decide (a.deviceId = device) = decide (b.deviceId = device) := by
      intro a b same
      rw [show a.deviceId = b.deviceId from same]
    rw [ofDevice, sent, thinned.getLast_filter kinds] at last
    exact comes_of_mem forwarded (List.mem_of_mem_filter (List.mem_of_getLast? last))
  newest := flows.refused

end Flows

/-! ## The thread returns -/

/-- What is left to do when nothing more is sent. -/
def remaining (s : PenCoalescer) : Nat :=
  4 * s.source.length + s.latest.toList.length +
    match s.phase with
    | .receiving => 1
    | .blocking => 1
    | .received _ => 4
    | .draining _ => 2
    | .returned => 0

theorem forwardOrDrop_rest (event : PenEvent) : ∃ channel refused,
    s.forwardOrDrop event = { s with channel, refused } := by
  unfold forwardOrDrop
  split
  · exact ⟨_, _, rfl⟩
  · exact ⟨_, _, rfl⟩

theorem work_lowers (worked : s.work = some t) :
    t.remaining < s.remaining ∧ t.closed = s.closed := by
  have forwards := fun event => forwardOrDrop_rest (s := s) event
  unfold work at worked
  unfold remaining
  cases phase : s.phase with
  | receiving =>
      rw [phase] at worked
      dsimp only at worked
      split at worked
      next pending found =>
        obtain rfl := Option.some.inj worked
        obtain ⟨channel, refused, forwarded⟩ := forwards pending
        rw [forwarded, found]
        exact ⟨Nat.lt_succ_self _, rfl⟩
      next event source _ waits =>
        obtain rfl := Option.some.inj worked
        rw [waits, List.length_cons]
        refine ⟨?_, rfl⟩
        dsimp only
        omega
      · split at worked
        · obtain rfl := Option.some.inj worked
          exact ⟨Nat.lt_succ_self _, rfl⟩
        · cases worked
  | blocking =>
      rw [phase] at worked
      dsimp only at worked
      split at worked
      next event source waits =>
        obtain rfl := Option.some.inj worked
        rw [waits, List.length_cons]
        refine ⟨?_, rfl⟩
        dsimp only
        omega
      · split at worked
        · obtain rfl := Option.some.inj worked
          exact ⟨Nat.lt_succ_self _, rfl⟩
        · cases worked
  | received event =>
      rw [phase] at worked
      dsimp only at worked
      split at worked
      · obtain rfl := Option.some.inj worked
        obtain ⟨channel, refused, forwarded⟩ := forwards event
        rw [forwarded]
        refine ⟨?_, rfl⟩
        dsimp only
        omega
      · obtain rfl := Option.some.inj worked
        refine ⟨?_, rfl⟩
        dsimp only [Option.toList, List.length]
        omega
  | draining now =>
      rw [phase] at worked
      dsimp only at worked
      split at worked
      next next source waits =>
        obtain rfl := Option.some.inj worked
        rw [waits, List.length_cons]
        refine ⟨?_, rfl⟩
        dsimp only [Option.toList, List.length]
        omega
      · split at worked
        · split at worked
          next latest found =>
            obtain rfl := Option.some.inj worked
            obtain ⟨channel, refused, forwarded⟩ := forwards latest
            rw [forwarded]
            refine ⟨?_, rfl⟩
            dsimp only [Option.toList, List.length]
            omega
          · obtain rfl := Option.some.inj worked
            refine ⟨?_, rfl⟩
            dsimp only
            omega
        · split at worked
          next latest found =>
            obtain rfl := Option.some.inj worked
            obtain ⟨channel, refused, forwarded⟩ := forwards latest.tagged
            rw [forwarded]
            refine ⟨?_, rfl⟩
            dsimp only [Option.toList, List.length]
            omega
          · obtain rfl := Option.some.inj worked
            refine ⟨?_, rfl⟩
            dsimp only
            omega
  | returned =>
      rw [phase] at worked
      cases worked

/-- A closed source stays closed, and nothing but the thread changes what it has left. -/
theorem step_closed {a : CoalesceStep} (closed : s.closed = true) (stepped : s.step a = some t) :
    t.closed = true ∧ (a.isWork = false → t.remaining = s.remaining) := by
  cases a with
  | send event =>
      rw [PenCoalescer.step, if_pos closed] at stepped
      cases stepped
  | close =>
      obtain rfl := Option.some.inj stepped
      exact ⟨rfl, fun _ => rfl⟩
  | wait time =>
      obtain rfl := Option.some.inj stepped
      exact ⟨closed, fun _ => rfl⟩
  | deliver =>
      dsimp only [PenCoalescer.step] at stepped
      split at stepped
      · cases stepped
      · obtain rfl := Option.some.inj stepped
        exact ⟨closed, fun _ => rfl⟩
  | work => exact ⟨(work_lowers stepped).2.trans closed, nofun⟩

theorem returned_of_rest (rest : s.work = none) (closed : s.closed = true) :
    s.phase = .returned := by
  unfold work at rest
  split at rest
  · split at rest
    · cases rest
    · cases rest
    · rw [if_pos closed] at rest
      cases rest
  · split at rest
    · cases rest
    · rw [if_pos closed] at rest
      cases rest
  · split at rest <;> cases rest
  · split at rest
    · cases rest
    · rw [if_pos closed] at rest
      split at rest <;> cases rest
  · assumption

/-- Every step of the thread uses up something of what is left, whatever the receiver and the
clock do in between. -/
theorem work_bounded {steps : List CoalesceStep} (closed : s.closed = true)
    (ran : Stepping.run PenCoalescer.step s steps = some t) :
    steps.countP CoalesceStep.isWork + t.remaining ≤ s.remaining ∧ t.closed = true := by
  induction steps generalizing s with
  | nil =>
      obtain rfl := Option.some.inj ran
      exact ⟨(Nat.zero_add _).le, closed⟩
  | cons a rest ih =>
      obtain ⟨u, stepped, ran⟩ := Option.bind_eq_some_iff.mp ran
      obtain ⟨still, kept⟩ := step_closed closed stepped
      obtain ⟨bound, last⟩ := ih still ran
      refine ⟨?_, last⟩
      rw [List.countP_cons]
      cases own : a.isWork with
      | false =>
          rw [kept own] at bound
          exact bound
      | true =>
          have worked : s.work = some u := by
            cases a with
            | work => exact stepped
            | _ => cases own
          have lowers := (work_lowers worked).1
          rw [if_pos rfl]
          omega

/-- Once the source is closed, the thread returns within a bound on its own steps, whenever the
receiver takes events and however long the thread is kept waiting: until then it has a step to
take. -/
theorem thread_returns {steps : List CoalesceStep} (closed : s.closed = true)
    (ran : Stepping.run PenCoalescer.step s steps = some t) :
    steps.countP CoalesceStep.isWork ≤ s.remaining ∧
      (t.phase = .returned ∨ (t.step .work).isSome) := by
  obtain ⟨bound, still⟩ := work_bounded closed ran
  refine ⟨(Nat.le_add_right _ _).trans bound, ?_⟩
  cases next : t.step .work with
  | none => exact .inl (returned_of_rest next still)
  | some u => exact .inr rfl

/-! ## Runs -/

theorem keeps_newest {cfg : CoalesceConfig} {steps : List CoalesceStep} {last : PenCoalescer}
    (sound : Stepping.Meets PenCoalescer.step Sound (start cfg) steps)
    (ran : Stepping.run PenCoalescer.step (start cfg) steps = some last) : last.KeepsNewest := by
  obtain ⟨taken, kept, flows⟩ := sound.invariant Flows.step ⟨[], [], Flows.start cfg⟩ ran
  exact flows.keepsNewest

end PenCoalescer

namespace Sample

open CoalesceStep

def penEvent (deviceId : UInt16) (timestampUs : UInt32) : PenEvent where
  deviceId := deviceId
  tool := .pen
  x := 0
  y := 0
  pressure := 0
  tiltX := 0
  tiltY := 0
  rotation := 0
  buttonState := 0
  hoverDistance := 0
  timestampUs := timestampUs
  flags := 0

/-- The window of the default configuration, in microseconds. -/
def coalesceConfig (channelDepth : Nat) (deep : 0 < channelDepth) : CoalesceConfig :=
  ⟨4000, channelDepth, deep⟩

def works (n : Nat) : List CoalesceStep := List.replicate n work

/-- One pen sends a burst, then another pen does. -/
def bursts : List CoalesceStep :=
  [send (penEvent 0 1), send (penEvent 0 2)] ++ works 4 ++
    [send (penEvent 1 3), send (penEvent 1 4), close] ++ works 4 ++ [deliver, deliver]

/-- Two pens send while the channel is full, and the receiver takes an event between two turns of
the thread. -/
def crowded : List CoalesceStep :=
  [send (penEvent 0 1)] ++ works 3 ++
    [send (penEvent 0 2), send (penEvent 1 3), send (penEvent 1 4), close]

theorem thread_returns_bursts : ∃ s t, Stepping.run PenCoalescer.step
      (.start (coalesceConfig 1 (by decide))) crowded = some s ∧
    Stepping.run PenCoalescer.step s
      ([work, wait 5000, work, deliver] ++ works 3 ++ [wait 1, work]) = some t ∧
    s.remaining = 13 ∧ t.phase = .returned ∧ t.refused = [penEvent 0 2] ∧
    (([work, wait 5000, work, deliver] ++ works 3 ++ [wait 1, work]).countP
      CoalesceStep.isWork ≤ s.remaining ∧
        (t.phase = .returned ∨ (t.step .work).isSome)) :=
  ⟨_, _, rfl, rfl, rfl, rfl, rfl, PenCoalescer.thread_returns rfl rfl⟩

theorem keeps_newest_bursts : ∃ last,
    Stepping.run PenCoalescer.step (.start (coalesceConfig 64 (by decide))) bursts = some last ∧
      last.delivered = [(penEvent 0 2).tagged, penEvent 1 4] ∧ last.KeepsNewest := by
  have ran : (Stepping.run PenCoalescer.step (.start (coalesceConfig 64 (by decide))) bursts).map
      PenCoalescer.delivered = some [(penEvent 0 2).tagged, penEvent 1 4] := by decide
  have sound : Stepping.Meets PenCoalescer.step PenCoalescer.Sound
      (.start (coalesceConfig 64 (by decide))) bursts := by decide
  obtain ⟨last, ran, delivered⟩ := Option.map_eq_some_iff.mp ran
  exact ⟨last, ran, delivered, PenCoalescer.keeps_newest sound ran⟩

/-- Both pens send within one window. -/
def twoPens : List CoalesceStep :=
  [send (penEvent 0 1), send (penEvent 1 2), close] ++ works 4 ++ [deliver]

/-- The receiver waits while there is room for one event. -/
def slowReceiver : List CoalesceStep :=
  [send (penEvent 0 1)] ++ works 3 ++ [send (penEvent 0 2), close] ++ works 3 ++ [deliver]

theorem twoPens_not_keepsNewest :
    (∃ last, Stepping.run PenCoalescer.step (.start (coalesceConfig 64 (by decide))) twoPens =
      some last ∧ last.delivered = [penEvent 1 2] ∧ ¬ last.KeepsNewest) ∧
    ∃ last, Stepping.run PenCoalescer.step (.start (coalesceConfig 1 (by decide))) slowReceiver =
      some last ∧ last.refused = [penEvent 0 2] ∧ ¬ last.KeepsNewest := by
  have two : (Stepping.run PenCoalescer.step (.start (coalesceConfig 64 (by decide))) twoPens).map
      (fun last => (last.phase, last.channel, last.sent, last.delivered)) =
        some (.returned, [], [penEvent 0 1, penEvent 1 2], [penEvent 1 2]) := by decide
  have slow : (Stepping.run PenCoalescer.step (.start (coalesceConfig 1 (by decide)))
      slowReceiver).map PenCoalescer.refused = some [penEvent 0 2] := by decide
  obtain ⟨last, ran, found⟩ := Option.map_eq_some_iff.mp two
  obtain ⟨last', ran', refused⟩ := Option.map_eq_some_iff.mp slow
  obtain ⟨returned, rest⟩ := Prod.mk.inj found
  obtain ⟨drained, rest⟩ := Prod.mk.inj rest
  obtain ⟨sent, delivered⟩ := Prod.mk.inj rest
  refine ⟨⟨last, ran, delivered, fun keeps => ?_⟩, last', ran', refused, fun keeps => ?_⟩
  · have lost := keeps.last returned drained 0 (penEvent 0 1) (by rw [sent]; decide)
    rw [delivered] at lost
    obtain ⟨got, there, comes⟩ := lost
    rw [List.mem_singleton.mp there] at comes
    obtain same | tagged := comes
    · exact absurd same (by decide)
    · exact absurd tagged (by decide)
  · rw [keeps.newest] at refused
    cases refused

end Sample

end Qubox.Media
