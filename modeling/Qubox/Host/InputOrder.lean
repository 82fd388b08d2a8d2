import Qubox.Host.Input
import Qubox.Library.Stepping
import Qubox.Library.Superseding

/-!
# The order of injected input

The thread that injects takes the events of a session from a channel. While it holds a mouse move
it looks for another one, which supersedes it. The first event of another kind that it finds there
is kept for its next turn. Events may arrive, and the channel may close, between any two looks.
-/

namespace Qubox.Host

/-- Of two mouse moves in a row the second one counts. -/
def Supersedes (event next : RemoteInputEvent) : Prop :=
  isMouseMove event = true ∧ isMouseMove next = true

/-- What is left of the events when mouse moves are dropped that another one follows at once. -/
def Coalesces : List RemoteInputEvent → List RemoteInputEvent → Prop := Superseding Supersedes

/-! ## The thread -/

/-- Where the thread is in a turn. -/
inductive Turn where
  | receiving
  /-- `try_recv`, with a mouse move in hand. -/
  | looking (event : RemoteInputEvent)
  | applying (event : RemoteInputEvent)
  | ended
  deriving DecidableEq

structure InputThread where
  /-- Whether the injector could be initialised. -/
  injector : Bool
  turn : Turn
  pendingEvent : Option RemoteInputEvent
  queue : List RemoteInputEvent
  closed : Bool
  sent : List RemoteInputEvent
  /-- What `apply` was called with. -/
  injected : List RemoteInputEvent
  deriving DecidableEq

inductive InputAction where
  | send (event : RemoteInputEvent)
  | close
  | work
  deriving DecidableEq

def Turn.begin (event : RemoteInputEvent) : Turn :=
  if isMouseMove event then .looking event else .applying event

/-- How far the end of the turn is at most. -/
def Turn.left : Turn → Nat
  | .receiving => 1
  | .looking _ => 3
  | .applying _ => 2
  | .ended => 0

theorem Turn.left_begin (event : RemoteInputEvent) : (begin event).left ≤ 3 := by
  unfold begin
  by_cases move : isMouseMove event
  · rw [if_pos move]
    exact Nat.le_refl 3
  · rw [if_neg move]
    exact Nat.le_succ 2

namespace InputThread

variable (s : InputThread)

def start (injector : Bool) : InputThread where
  injector := injector
  turn := .receiving
  pendingEvent := none
  queue := []
  closed := false
  sent := []
  injected := []

/-- Up to the next look at the channel, or the next call of the injector. The thread waits while
the channel is open and empty. -/
def work : Option InputThread :=
  match s.turn with
  | .receiving =>
      match s.pendingEvent, s.queue with
      | some event, _ => some { s with pendingEvent := none, turn := .begin event }
      | none, event :: queue => some { s with queue, turn := .begin event }
      | none, [] => if s.closed then some { s with turn := .ended } else none
  | .looking event =>
      match s.queue with
      | [] => some { s with turn := .applying event }
      | next :: queue =>
          if isMouseMove next then some { s with queue, turn := .looking next }
          else some { s with queue, pendingEvent := some next, turn := .applying event }
  | .applying event => some { s with
      injected := if s.injector then s.injected ++ [event] else s.injected
      turn := .receiving }
  | .ended => none

def step (s : InputThread) : InputAction → Option InputThread
  | .send event =>
      if s.closed then none
      else some { s with queue := s.queue ++ [event], sent := s.sent ++ [event] }
  | .close => some { s with closed := true }
  | .work => s.work

/-! ## The invariant -/

/-- What the thread has in hand. -/
def held : List RemoteInputEvent :=
  match s.turn with
  | .receiving => s.pendingEvent.toList
  | .looking event => [event]
  | .applying event => event :: s.pendingEvent.toList
  | .ended => []

/-- What was taken from the channel is injected or in hand, but for superseded moves. -/
structure Orders (s : InputThread) (received : List RemoteInputEvent) : Prop where
  injector : s.injector = true
  sent : s.sent = received ++ s.queue
  coalesces : Coalesces received (s.injected ++ s.held)
  looking : ∀ event, s.turn = .looking event → isMouseMove event = true ∧ s.pendingEvent = none
  ended : s.turn = .ended → s.closed = true ∧ s.queue = []

variable {s t : InputThread} {received : List RemoteInputEvent}

namespace Orders

theorem start : Orders (.start true) [] where
  injector := rfl
  sent := rfl
  coalesces := .nil
  looking _ looking := by cases looking
  ended ended := by cases ended

/-- The next event is in hand. -/
theorem begins {event : RemoteInputEvent} {pendingEvent : Option RemoteInputEvent}
    {queue received' : List RemoteInputEvent} (orders : Orders s received)
    (sent : s.sent = received' ++ queue)
    (coalesces : Coalesces received' (s.injected ++ [event])) (taken : pendingEvent = none) :
    Orders { s with pendingEvent, queue, turn := .begin event } received' := by
  unfold Turn.begin
  by_cases move : isMouseMove event
  · rw [if_pos move]
    refine ⟨orders.injector, sent, coalesces, ?_, ?_⟩
    · rintro _ ⟨⟩
      exact ⟨move, taken⟩
    · rintro ⟨⟩
  · rw [if_neg move]
    refine ⟨orders.injector, sent, ?_, ?_, ?_⟩
    · rw [held, taken]
      exact coalesces
    · rintro _ ⟨⟩
    · rintro ⟨⟩

theorem receive (orders : Orders s received) (receiving : s.turn = .receiving)
    (worked : s.work = some t) : ∃ received', Orders t received' := by
  have coalesces := orders.coalesces
  unfold held at coalesces
  unfold work at worked
  rw [receiving] at coalesces worked
  dsimp only at coalesces worked
  split at worked
  next event pending =>
    obtain rfl := Option.some.inj worked
    rw [pending] at coalesces
    exact ⟨received, orders.begins orders.sent coalesces rfl⟩
  next event queue none waiting =>
    obtain rfl := Option.some.inj worked
    rw [none, Option.toList_none, List.append_nil] at coalesces
    have sent := orders.sent
    rw [waiting, List.append_cons] at sent
    exact ⟨_, orders.begins sent (coalesces.concat event) none⟩
  next none waiting =>
    split at worked
    next closed =>
      obtain rfl := Option.some.inj worked
      refine ⟨received, orders.injector, orders.sent, ?_, ?_, fun _ => ⟨closed, waiting⟩⟩
      · rwa [none] at coalesces
      · rintro _ ⟨⟩
    · cases worked

theorem look {event : RemoteInputEvent} (orders : Orders s received)
    (looking : s.turn = .looking event) (worked : s.work = some t) :
    ∃ received', Orders t received' := by
  have coalesces := orders.coalesces
  obtain ⟨move, taken⟩ := orders.looking event looking
  unfold held at coalesces
  unfold work at worked
  rw [looking] at coalesces worked
  dsimp only at coalesces worked
  split at worked
  next waiting =>
    obtain rfl := Option.some.inj worked
    refine ⟨received, orders.injector, orders.sent, ?_, ?_, ?_⟩
    · rw [held, taken]
      exact coalesces
    · rintro _ ⟨⟩
    · rintro ⟨⟩
  next next queue waiting =>
    have sent := orders.sent
    rw [waiting, List.append_cons] at sent
    split at worked
    next next_move =>
      obtain rfl := Option.some.inj worked
      refine ⟨_, orders.injector, sent, coalesces.give_way ⟨move, next_move⟩, ?_, ?_⟩
      · rintro _ ⟨⟩
        exact ⟨next_move, taken⟩
      · rintro ⟨⟩
    next other =>
      obtain rfl := Option.some.inj worked
      refine ⟨_, orders.injector, sent, ?_, ?_, ?_⟩
      · have kept := coalesces.concat next
        rwa [List.append_assoc] at kept
      · rintro _ ⟨⟩
      · rintro ⟨⟩

theorem apply {event : RemoteInputEvent} (orders : Orders s received)
    (applying : s.turn = .applying event) (worked : s.work = some t) : Orders t received := by
  have coalesces := orders.coalesces
  unfold held at coalesces
  unfold work at worked
  rw [applying] at coalesces worked
  obtain rfl := Option.some.inj worked
  refine ⟨orders.injector, orders.sent, ?_, ?_, ?_⟩
  · rw [List.append_cons] at coalesces
    rw [orders.injector]
    exact coalesces
  · rintro _ ⟨⟩
  · rintro ⟨⟩

theorem step {action : InputAction} (orders : ∃ received, Orders s received)
    (stepped : s.step action = some t) : ∃ received, Orders t received := by
  obtain ⟨received, orders⟩ := orders
  cases action with
  | send event =>
      dsimp only [InputThread.step] at stepped
      split at stepped
      · cases stepped
      next opened =>
        obtain rfl := Option.some.inj stepped
        refine ⟨received, orders.injector, ?_, orders.coalesces, orders.looking, ?_⟩
        · rw [← List.append_assoc, ← orders.sent]
        · intro ended
          exact absurd (orders.ended ended).1 opened
  | close =>
      obtain rfl := Option.some.inj stepped
      refine ⟨received, orders.injector, orders.sent, orders.coalesces, orders.looking, ?_⟩
      intro ended
      exact ⟨rfl, (orders.ended ended).2⟩
  | work =>
      have worked : s.work = some t := stepped
      cases phase : s.turn with
      | receiving => exact orders.receive phase worked
      | looking event => exact orders.look phase worked
      | applying event => exact ⟨received, orders.apply phase worked⟩
      | ended =>
          unfold work at worked
          rw [phase] at worked
          cases worked

/-- A thread that has nothing to do has nothing in hand. -/
theorem at_rest (orders : Orders s received) (rest : s.work = none) :
    Coalesces s.sent s.injected := by
  have coalesces := orders.coalesces
  have sent := orders.sent
  unfold work at rest
  cases phase : s.turn with
  | receiving =>
      rw [phase] at rest
      dsimp only at rest
      split at rest
      · cases rest
      · cases rest
      next none waiting =>
        rw [held, phase, none, Option.toList_none, List.append_nil] at coalesces
        rw [waiting, List.append_nil] at sent
        rwa [sent]
  | looking event =>
      rw [phase] at rest
      dsimp only at rest
      split at rest
      · cases rest
      · split at rest <;> cases rest
  | applying event =>
      rw [phase] at rest
      cases rest
  | ended =>
      rw [held, phase, List.append_nil] at coalesces
      rw [(orders.ended phase).2, List.append_nil] at sent
      rwa [sent]

end Orders

/-! ## The thread comes to rest -/

/-- What is left to do when nothing more arrives. -/
def remaining (s : InputThread) : Nat :=
  3 * (s.pendingEvent.toList.length + s.queue.length) + s.turn.left

theorem work_lowers (worked : s.work = some t) : t.remaining < s.remaining := by
  unfold work at worked
  unfold remaining
  cases phase : s.turn with
  | receiving =>
      rw [phase] at worked
      dsimp only at worked
      split at worked
      next event pending =>
        obtain rfl := Option.some.inj worked
        have begins := Turn.left_begin event
        rw [pending]
        change 3 * (0 + s.queue.length) + (Turn.begin event).left < 3 * (1 + s.queue.length) + 1
        omega
      next event queue none waiting =>
        obtain rfl := Option.some.inj worked
        have begins := Turn.left_begin event
        rw [none, waiting]
        change 3 * (0 + queue.length) + (Turn.begin event).left < 3 * (0 + (queue.length + 1)) + 1
        omega
      next none waiting =>
        split at worked
        · obtain rfl := Option.some.inj worked
          exact Nat.lt_succ_self _
        · cases worked
  | looking event =>
      rw [phase] at worked
      dsimp only at worked
      split at worked
      · obtain rfl := Option.some.inj worked
        exact Nat.lt_succ_self _
      next next queue waiting =>
        rw [waiting]
        split at worked
        · obtain rfl := Option.some.inj worked
          dsimp only [List.length, Turn.left]
          omega
        · obtain rfl := Option.some.inj worked
          dsimp only [Option.toList, List.length, Turn.left]
          omega
  | applying event =>
      rw [phase] at worked
      obtain rfl := Option.some.inj worked
      exact Nat.lt_succ_self _
  | ended =>
      rw [phase] at worked
      cases worked

/-- A turn of the worker hands on one event at most. -/
theorem work_injects (worked : s.work = some t) : t.sent = s.sent ∧ t.closed = s.closed ∧
    ∃ event : Option RemoteInputEvent, t.injected = s.injected ++ event.toList := by
  unfold work at worked
  split at worked
  · split at worked
    · obtain rfl := Option.some.inj worked
      exact ⟨rfl, rfl, none, (List.append_nil _).symm⟩
    · obtain rfl := Option.some.inj worked
      exact ⟨rfl, rfl, none, (List.append_nil _).symm⟩
    · split at worked
      · obtain rfl := Option.some.inj worked
        exact ⟨rfl, rfl, none, (List.append_nil _).symm⟩
      · cases worked
  · split at worked
    · obtain rfl := Option.some.inj worked
      exact ⟨rfl, rfl, none, (List.append_nil _).symm⟩
    · split at worked
      · obtain rfl := Option.some.inj worked
        exact ⟨rfl, rfl, none, (List.append_nil _).symm⟩
      · obtain rfl := Option.some.inj worked
        exact ⟨rfl, rfl, none, (List.append_nil _).symm⟩
  · obtain rfl := Option.some.inj worked
    refine ⟨rfl, rfl, ?_⟩
    dsimp only
    split
    · exact ⟨some _, rfl⟩
    · exact ⟨none, (List.append_nil _).symm⟩
  · cases worked

theorem work_keeps (worked : s.work = some t) :
    t.sent = s.sent ∧ t.closed = s.closed ∧ s.injected <+: t.injected := by
  obtain ⟨sent, closed, event, injected⟩ := work_injects worked
  exact ⟨sent, closed, event.toList, injected.symm⟩

theorem works_keep {n : Nat}
    (ran : Stepping.run InputThread.step s (List.replicate n .work) = some t) :
    t.sent = s.sent ∧ t.closed = s.closed ∧ s.injected <+: t.injected := by
  induction n generalizing s with
  | zero =>
      obtain rfl := Option.some.inj ran
      exact ⟨rfl, rfl, List.prefix_refl _⟩
  | succ n ih =>
      obtain ⟨u, worked, ran⟩ := Option.bind_eq_some_iff.mp ran
      obtain ⟨sent, closed, grows⟩ := work_keeps worked
      obtain ⟨sent', closed', grows'⟩ := ih ran
      exact ⟨sent'.trans sent, closed'.trans closed, grows.trans grows'⟩

theorem ended_of_rest (rest : s.work = none) (closed : s.closed = true) : s.turn = .ended := by
  unfold work at rest
  split at rest
  · split at rest
    · cases rest
    · cases rest
    · rw [if_pos closed] at rest
      cases rest
  · split at rest
    · cases rest
    · split at rest <;> cases rest
  · cases rest
  · assumption

/-- When nothing more arrives, the thread comes to rest, and ends if the channel is closed. It has
injected what was sent then, but for the superseded moves. -/
theorem injects_in_order {steps : List InputAction} {last : InputThread}
    (ran : Stepping.run InputThread.step (.start true) steps = some last) :
    ∃ n rest, Stepping.run InputThread.step last (List.replicate n .work) = some rest ∧
      rest.work = none ∧ (last.closed = true → rest.turn = .ended) ∧
      last.injected <+: rest.injected ∧ Coalesces last.sent rest.injected := by
  have rests : ∃ n rest,
      Stepping.run InputThread.step last (List.replicate n .work) = some rest ∧
        rest.step .work = none := Stepping.exists_rest work_lowers last
  obtain ⟨n, rest, worked, still⟩ := rests
  obtain ⟨sent, closed, grows⟩ := works_keep worked
  obtain ⟨received, orders⟩ :=
    Stepping.run_invariant Orders.step (Stepping.run_invariant Orders.step ⟨[], Orders.start⟩ ran)
      worked
  refine ⟨n, rest, worked, still, ?_, grows, ?_⟩
  · intro closes
    exact ended_of_rest still (closed.trans closes)
  · rw [← sent]
    exact orders.at_rest still

/-! ## Turns without arrivals -/

theorem looks {event : RemoteInputEvent} (looking : s.turn = .looking event)
    (taken : s.pendingEvent = none) :
    ∃ n, Stepping.run InputThread.step s (List.replicate n .work) = some { s with
      turn := .applying (coalesce event s.queue).1
      pendingEvent := (coalesce event s.queue).2.1
      queue := (coalesce event s.queue).2.2 } := by
  generalize waiting : s.queue = queue
  induction queue generalizing s event with
  | nil =>
      refine ⟨1, ?_⟩
      rw [List.replicate_one, Stepping.run_cons, InputThread.step, work, looking, waiting, taken]
      rfl
  | cons next queue ih =>
      by_cases move : isMouseMove next
      · obtain ⟨n, ran⟩ := ih (s := { s with queue, turn := .looking next }) rfl taken rfl
        refine ⟨n + 1, ?_⟩
        rw [List.replicate_succ, Stepping.run_cons, InputThread.step, work, looking, waiting]
        dsimp only
        rw [if_pos move, coalesce, if_pos move]
        exact ran
      · refine ⟨1, ?_⟩
        rw [List.replicate_one, Stepping.run_cons, InputThread.step, work, looking, waiting]
        dsimp only
        rw [if_neg move, coalesce, if_neg move]
        rfl

/-- As long as nothing arrives, a turn of the thread is one of the worker. -/
theorem works_turn {worker worker' : InputWorker} {event : RemoteInputEvent}
    (receiving : s.turn = .receiving) (pending : s.pendingEvent = worker.pending)
    (queue : s.queue = worker.queue)
    (next : worker.nextInjectedInputEvent = some (event, worker')) :
    ∃ n, Stepping.run InputThread.step s (List.replicate n .work) = some { s with
      turn := .applying event
      pendingEvent := worker'.pending
      queue := worker'.queue } := by
  unfold InputWorker.nextInjectedInputEvent InputWorker.waiting at next
  rw [← pending, ← queue] at next
  have begins : ∀ first rest, s.pendingEvent.toList ++ s.queue = first :: rest →
      s.work = some { s with pendingEvent := none, queue := rest, turn := .begin first } := by
    intro first rest waits
    unfold work
    rw [receiving]
    cases held : s.pendingEvent with
    | none =>
        rw [held] at waits
        rw [show s.queue = first :: rest from waits]
    | some kept =>
        rw [held] at waits
        obtain ⟨rfl, rfl⟩ := List.cons.inj waits
        rfl
  split at next
  · cases next
  next first rest waits =>
    have first_step := begins first rest waits
    split at next
    next move =>
      obtain ⟨rfl, rfl⟩ := Prod.mk.inj (Option.some.inj next)
      rw [Turn.begin, if_pos move] at first_step
      obtain ⟨n, ran⟩ := looks
        (s := { s with pendingEvent := none, queue := rest, turn := .looking first }) rfl rfl
      refine ⟨n + 1, ?_⟩
      rw [List.replicate_succ, Stepping.run_cons, InputThread.step, first_step]
      exact ran
    next other =>
      obtain ⟨rfl, rfl⟩ := Prod.mk.inj (Option.some.inj next)
      rw [Turn.begin, if_neg other] at first_step
      refine ⟨1, ?_⟩
      rw [List.replicate_one, Stepping.run_cons, InputThread.step, first_step]
      rfl

end InputThread

namespace Sample

/-- Two moves, a key and the end of the channel. -/
def moves : List InputAction :=
  [.send (.mouseMove 1 1), .send (.mouseMove 2 2), .send (.keyboard "KeyA" true), .close]

/-- The thread has received the moves, and the worker the same. -/
theorem works_turn_moves : ∃ s worker event,
    Stepping.run InputThread.step (.start true) moves = some s ∧
      InputWorker.nextInjectedInputEvent { injector := true, queue := s.queue } =
        some (event, worker) ∧
      ∃ n, Stepping.run InputThread.step s (List.replicate n .work) = some { s with
        turn := .applying event
        pendingEvent := worker.pending
        queue := worker.queue } := by
  obtain ⟨s, worker, event, ran, next, receiving, pending⟩ : ∃ s worker event,
      Stepping.run InputThread.step (.start true) moves = some s ∧
        InputWorker.nextInjectedInputEvent { injector := true, queue := s.queue } =
          some (event, worker) ∧
        s.turn = .receiving ∧ s.pendingEvent = none := ⟨_, _, _, rfl, rfl, rfl, rfl⟩
  exact ⟨s, worker, event, ran, next, InputThread.works_turn receiving pending rfl next⟩

theorem injects_in_order_moves : ∃ last,
    Stepping.run InputThread.step (.start true) moves = some last ∧
      ∃ n rest, Stepping.run InputThread.step last (List.replicate n .work) = some rest ∧
        rest.work = none ∧ (last.closed = true → rest.turn = .ended) ∧
        last.injected <+: rest.injected ∧ Coalesces last.sent rest.injected :=
  have ran : Stepping.run InputThread.step (.start true) moves = some _ := rfl
  ⟨_, ran, InputThread.injects_in_order ran⟩

/-- Without an injector the key is dropped. -/
theorem moves_not_injected : ¬ ∀ injector steps last,
    Stepping.run InputThread.step (.start injector) steps = some last → last.work = none →
      Coalesces last.sent last.injected := by
  intro claim
  have dropped := claim false [.send (.keyboard "KeyA" true), .close, .work, .work, .work] _ rfl rfl
  exact absurd (dropped.eq_nil rfl) (List.cons_ne_nil _ _)

end Sample

end Qubox.Host
