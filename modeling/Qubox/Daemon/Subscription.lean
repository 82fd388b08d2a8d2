import Mathlib.Data.List.Induction
import Qubox.Daemon.Ipc
import Qubox.Library.Broadcast

/-!
# The events of the daemon

A connection that subscribes gets the events of the daemon from there on, through a channel that
forgets what is not read in time. The client collects them until the connection is gone, and its
window hears of none before. It gets those that have been read and written as a whole, in
their order, and never asks again.
-/

namespace Qubox.Daemon

variable {Event : Type} (codec : Bincode Event)

/-! ## The daemon -/

def eventCapacity : Nat := 256

def eventFrame (correlationId : UInt64) (event : Event) : Bytes :=
  ipcFrame 3 correlationId (codec.serialize event)

/-- A connection in the loop of `SubscribeEvents`. -/
structure Subscription (Event : Type) where
  correlationId : UInt64
  events : Broadcast.Receiver Event := {}
  /-- The events that it has warned of. -/
  lagged : Nat := 0
  written : Bytes

namespace Subscription

/-- Other connections and the subprocesses send events. The loop holds a sender of its own, so the
channel does not close. -/
inductive Step (Event : Type) where
  | send (event : Event)
  | forward

def start (correlationId : UInt64) (ack : Bytes) : Subscription Event where
  correlationId := correlationId
  written := ipcFrame 2 correlationId ack

def forward (s : Subscription Event) : Subscription Event :=
  match s.events.recv eventCapacity with
  | (.pending, _) => s
  | (.lagged count, events) => { s with events, lagged := s.lagged + count }
  | (.value event, events) =>
      { s with events, written := s.written ++ eventFrame codec s.correlationId event }

def step (s : Subscription Event) : Step Event → Subscription Event
  | .send event => { s with events := s.events.send event }
  | .forward => s.forward codec

def run (correlationId : UInt64) (ack : Bytes) (steps : List (Step Event)) : Subscription Event :=
  steps.foldl (step codec) (start correlationId ack)

/-- These events have been taken from the channel and written behind the answer. -/
structure Forwards (correlationId : UInt64) (ack : Bytes) (s : Subscription Event)
    (got : List Event) : Prop where
  accounts : s.events.Accounts got s.lagged
  id : s.correlationId = correlationId
  written : s.written =
    ipcFrame 2 correlationId ack ++ got.flatMap (eventFrame codec correlationId)

variable {codec} {correlationId : UInt64} {ack : Bytes} {s : Subscription Event}
  {got : List Event}

theorem Forwards.forward (forwards : s.Forwards codec correlationId ack got) :
    ∃ got, (s.forward codec).Forwards codec correlationId ack got := by
  rw [Subscription.forward]
  split
  next => exact ⟨got, forwards⟩
  next count events received =>
    exact ⟨got, forwards.accounts.lagged received, forwards.id, forwards.written⟩
  next event events received =>
    refine ⟨got ++ [event], forwards.accounts.value received, forwards.id, ?_⟩
    show s.written ++ eventFrame codec s.correlationId event = _
    rw [forwards.written, forwards.id, List.flatMap_append, List.flatMap_singleton,
      List.append_assoc]

theorem Forwards.step (forwards : s.Forwards codec correlationId ack got) (step : Step Event) :
    ∃ got, (s.step codec step).Forwards codec correlationId ack got := by
  cases step with
  | send event => exact ⟨got, forwards.accounts.send event, forwards.id, forwards.written⟩
  | forward => exact forwards.forward

theorem exists_forwards (codec : Bincode Event) (correlationId : UInt64) (ack : Bytes)
    (steps : List (Step Event)) :
    ∃ got, (run codec correlationId ack steps).Forwards codec correlationId ack got := by
  induction steps using List.reverseRecOn with
  | nil => exact ⟨[], .start, rfl, (List.append_nil _).symm⟩
  | append_singleton steps step ih =>
      obtain ⟨got, forwards⟩ := ih
      rw [run, List.foldl_append]
      exact forwards.step step

theorem lagged_eq_zero {steps : List (Step Event)}
    (prompt : ∀ before, before ++ [.forward] <+: steps →
      (run codec correlationId ack before).events.unread ≤ eventCapacity) :
    (run codec correlationId ack steps).lagged = 0 := by
  induction steps using List.reverseRecOn with
  | nil => rfl
  | append_singleton steps step ih =>
      have before := ih fun before initial =>
        prompt before (initial.trans (List.prefix_append steps [step]))
      rw [run, List.foldl_append]
      cases step with
      | send event => exact before
      | forward =>
          have kept_up := prompt steps List.prefix_rfl
          show (Subscription.forward codec (run codec correlationId ack steps)).lagged = 0
          rw [Subscription.forward]
          split
          next => exact before
          next received => exact absurd received (Broadcast.Receiver.recv_ne_lagged kept_up)
          next => exact before

/-- While the loop is never more than 256 events behind, the connection has forwarded all that was
sent, up to what is still unread. -/
theorem forwards_all {steps : List (Step Event)}
    (prompt : ∀ before, before ++ [.forward] <+: steps →
      (run codec correlationId ack before).events.unread ≤ eventCapacity) :
    (run codec correlationId ack steps).Forwards codec correlationId ack
      ((run codec correlationId ack steps).events.sent.take
        (run codec correlationId ack steps).events.next) := by
  obtain ⟨got, forwards⟩ := exists_forwards codec correlationId ack steps
  have accounts := forwards.accounts
  rw [lagged_eq_zero prompt] at accounts
  rwa [← accounts.complete]

end Subscription

/-! ## The client -/

/-- The loop of `IpcClient::subscribe`, on a connection that is open or gone. There is no result
while it waits for more. -/
def readEvents (gone : Bool) : Nat → Bytes → Option (List Event)
  | 0, _ => none
  | turns + 1, stream =>
      match readFrame stream with
      | .ok none | .error .read => if gone then some [] else none
      | .error _ => some []
      | .ok (some ((h, payload), rest)) =>
          if h.kind = 2 then some []
          else if h.kind = 3 then
            match codec.deserialize payload with
            | .ok event => (readEvents gone turns rest).map (event :: ·)
            | .error _ => readEvents gone turns rest
          else readEvents gone turns rest

/-- `IpcClient::subscribe`. -/
def subscribe (gone : Bool) (turns : Nat) (stream : Bytes) :
    Option (Except IpcError (List Event)) :=
  match readFrame stream with
  | .ok none | .error .read => if gone then some (.ok []) else none
  | .error e => some (.error e)
  | .ok (some (_, rest)) => (readEvents codec gone turns rest).map .ok

/-- The events within so many bytes that are there as a whole, up to one that is too large. -/
structure Whole (correlationId : UInt64) (got : List Event) (count : Nat) (whole : List Event) :
    Prop where
  initial : whole <+: got
  small : ∀ event ∈ whole, Small (codec.serialize event)
  fits : (whole.flatMap (eventFrame codec correlationId)).length ≤ count
  last : ∀ event, whole ++ [event] <+: got → Small (codec.serialize event) →
    count < ((whole ++ [event]).flatMap (eventFrame codec correlationId)).length

variable {codec} {correlationId : UInt64} {payload ack : Bytes} {kind : UInt16} {event : Event}
  {got whole : List Event} {count : Nat}

theorem length_ipcFrame : (ipcFrame kind correlationId payload).length =
    ipcHeaderSize + payload.length := by
  rw [ipcFrame, List.length_append, Header.length_encode]

theorem readFrame_short {stream : Bytes} (short : stream.length < ipcHeaderSize) :
    readFrame stream = .ok none := if_pos short

theorem take_ipcFrame (kind : UInt16) (correlationId : UInt64) (payload rest : Bytes) (more : Nat) :
    (ipcFrame kind correlationId payload ++ rest).take (ipcHeaderSize + more) =
      (Header.new kind correlationId (.ofNat payload.length)).encode ++
        (payload ++ rest).take more := by
  rw [ipcFrame, List.append_assoc,
    ← Header.length_encode (.new kind correlationId (.ofNat payload.length)),
    List.take_length_add_append]

/-- A message of which a part is missing is waited for. -/
theorem readFrame_cut (kind : UInt16) (correlationId : UInt64) (small : Small payload)
    (cut : count < (ipcFrame kind correlationId payload).length) (rest : Bytes) :
    readFrame ((ipcFrame kind correlationId payload ++ rest).take count) = .ok none ∨
      readFrame ((ipcFrame kind correlationId payload ++ rest).take count) = .error .read := by
  rw [length_ipcFrame] at cut
  by_cases short : count < ipcHeaderSize
  case pos =>
    left
    apply readFrame_short
    exact Nat.lt_of_le_of_lt (List.length_take_le _ _) short
  case neg =>
    right
    obtain ⟨more, rfl⟩ := Nat.exists_eq_add_of_le (Nat.le_of_not_lt short)
    have missing : ((payload ++ rest).take more).length < (UInt32.ofNat payload.length).toNat := by
      rw [List.length_take, small.size]
      omega
    rw [take_ipcFrame, readFrame_of_header, (Header.decode_eq_ok (Header.length_encode _)).mpr
      ⟨small.valid kind correlationId, rfl⟩]
    exact if_pos missing

/-- The first bytes of a message that is too large are not read as a message. -/
theorem readFrame_take_large (kind : UInt16) (correlationId : UInt64) (large : ¬ Small payload)
    (addressable : payload.length < 2 ^ 32) (rest : Bytes) (count : Nat) :
    readFrame ((ipcFrame kind correlationId payload ++ rest).take count) = .ok none ∨
      readFrame ((ipcFrame kind correlationId payload ++ rest).take count) =
        .error (.payloadTooLarge (.ofNat payload.length)) := by
  by_cases short : count < ipcHeaderSize
  case pos =>
    left
    apply readFrame_short
    exact Nat.lt_of_le_of_lt (List.length_take_le _ _) short
  case neg =>
    right
    obtain ⟨more, rfl⟩ := Nat.exists_eq_add_of_le (Nat.le_of_not_lt short)
    rw [take_ipcFrame, readFrame_of_header,
      Header.decode_large rfl rfl (ipcMaxPayload_lt large addressable)]
    rfl

theorem readEvents_event (small : Small (codec.serialize event)) (gone : Bool) (turns : Nat)
    (rest : Bytes) :
    readEvents codec gone (turns + 1) (eventFrame codec correlationId event ++ rest) =
      (readEvents codec gone turns rest).map (event :: ·) := by
  rw [readEvents, eventFrame, readFrame_ipcFrame _ _ small]
  dsimp only [Header.new]
  rw [if_neg (by decide), if_pos rfl, codec.deserialize_serialize]

theorem length_eventFrame_pos (codec : Bincode Event) (correlationId : UInt64) (event : Event) :
    0 < (eventFrame codec correlationId event).length := by
  rw [eventFrame, length_ipcFrame]
  exact Nat.lt_of_lt_of_le (by decide) (Nat.le_add_right ipcHeaderSize _)

/-- What a client has when the connection is gone. -/
theorem exists_whole (addressable : ∀ event, (codec.serialize event).length < 2 ^ 32)
    (correlationId : UInt64) (got : List Event) (count : Nat) :
    ∃ whole, Whole codec correlationId got count whole ∧ ∀ turns, count < turns →
      readEvents codec true turns
        ((got.flatMap (eventFrame codec correlationId)).take count) = some whole := by
  induction got generalizing count with
  | nil =>
      refine ⟨[], ⟨List.prefix_rfl, List.forall_mem_nil _, Nat.zero_le _, ?_⟩, ?_⟩
      · intro event initial
        exact absurd (List.prefix_nil.mp initial) (List.cons_ne_nil _ _)
      · intro turns enough
        obtain ⟨turns, rfl⟩ := Nat.exists_eq_add_of_lt (Nat.zero_lt_of_lt enough)
        rw [List.flatMap_nil, List.take_nil]
        rfl
  | cons first got ih =>
      -- a frame that is not read is the end, whether it is cut or too large
      have ends (nothing : Small (codec.serialize first) →
            count < (eventFrame codec correlationId first).length) :
          Whole codec correlationId (first :: got) count [] := by
        refine ⟨List.nil_prefix, List.forall_mem_nil _, Nat.zero_le _, ?_⟩
        intro event initial small
        obtain ⟨rfl, -⟩ := List.cons_prefix_cons.mp initial
        rw [List.nil_append, List.flatMap_singleton]
        exact nothing small
      by_cases small : Small (codec.serialize first)
      case neg =>
        refine ⟨[], ends fun fits => absurd fits small, ?_⟩
        intro turns enough
        obtain ⟨turns, rfl⟩ := Nat.exists_eq_add_of_lt (Nat.zero_lt_of_lt enough)
        rw [List.flatMap_cons, readEvents, eventFrame]
        obtain none | error := readFrame_take_large 3 correlationId small (addressable first)
          (got.flatMap (eventFrame codec correlationId)) count
        · rw [none]
          rfl
        · rw [error]
      case pos =>
        by_cases whole_first : (eventFrame codec correlationId first).length ≤ count
        case neg =>
          have cut := Nat.lt_of_not_le whole_first
          refine ⟨[], ends fun _ => cut, ?_⟩
          intro turns enough
          obtain ⟨turns, rfl⟩ := Nat.exists_eq_add_of_lt (Nat.zero_lt_of_lt enough)
          rw [List.flatMap_cons, readEvents, eventFrame]
          obtain none | error := readFrame_cut 3 correlationId small cut
            (got.flatMap (eventFrame codec correlationId))
          · rw [none]
            rfl
          · rw [error]
            rfl
        case pos =>
          obtain ⟨more, rfl⟩ := Nat.exists_eq_add_of_le whole_first
          obtain ⟨whole, holds, reads⟩ := ih more
          refine ⟨first :: whole, ⟨List.cons_prefix_cons.mpr ⟨rfl, holds.initial⟩,
            List.forall_mem_cons.mpr ⟨small, holds.small⟩, ?_, ?_⟩, ?_⟩
          · rw [List.flatMap_cons, List.length_append]
            exact Nat.add_le_add_left holds.fits _
          · intro event initial event_small
            obtain ⟨-, initial⟩ := List.cons_prefix_cons.mp initial
            rw [List.cons_append, List.flatMap_cons, List.length_append]
            exact Nat.add_lt_add_left (holds.last event initial event_small) _
          · intro turns enough
            have pos := length_eventFrame_pos codec correlationId first
            cases turns with
            | zero => exact absurd enough (Nat.not_lt_zero _)
            | succ turns =>
                rw [List.flatMap_cons, List.take_length_add_append, readEvents_event small,
                  reads turns (by omega)]
                rfl

/-- Before that, it waits. -/
theorem readEvents_open (small : ∀ event ∈ got, Small (codec.serialize event)) (count turns : Nat) :
    readEvents codec false turns
      ((got.flatMap (eventFrame codec correlationId)).take count) = none := by
  induction turns generalizing got count with
  | zero => rfl
  | succ turns ih =>
      cases got with
      | nil =>
          rw [List.flatMap_nil, List.take_nil]
          rfl
      | cons first got =>
          have first_small := small first List.mem_cons_self
          rw [List.flatMap_cons]
          by_cases whole_first : (eventFrame codec correlationId first).length ≤ count
          case pos =>
            obtain ⟨more, rfl⟩ := Nat.exists_eq_add_of_le whole_first
            rw [List.take_length_add_append, readEvents_event first_small,
              ih (fun event member => small event (.tail _ member))]
            rfl
          case neg =>
            have cut := Nat.lt_of_not_le whole_first
            rw [readEvents, eventFrame]
            obtain none | error := readFrame_cut 3 correlationId first_small cut
              (got.flatMap (eventFrame codec correlationId))
            · rw [none]
              rfl
            · rw [error]
              rfl

theorem subscribe_ack (small : Small ack) (gone : Bool) (turns : Nat) (rest : Bytes) :
    subscribe codec gone turns (ipcFrame 2 correlationId ack ++ rest) =
      (readEvents codec gone turns rest).map .ok := by
  rw [subscribe, readFrame_ipcFrame _ _ small]

theorem subscribe_cut (small : Small ack) (gone : Bool) (turns : Nat) (rest : Bytes)
    (cut : count < (ipcFrame 2 correlationId ack).length) :
    subscribe codec gone turns ((ipcFrame 2 correlationId ack ++ rest).take count) =
      if gone then some (.ok []) else none := by
  rw [subscribe]
  obtain none | error := readFrame_cut 2 correlationId small cut rest
  · rw [none]
  · rw [error]

theorem Whole.eq_nil (holds : Whole codec correlationId got 0 whole) : whole = [] := by
  cases whole with
  | nil => rfl
  | cons first rest =>
      have pos := length_eventFrame_pos codec correlationId first
      have fits := holds.fits
      rw [List.flatMap_cons, List.length_append] at fits
      omega

/-- Whatever the daemon, its subprocesses and this connection do in whichever order, and wherever
the connection breaks off: the client gets the events that are there as a whole, and they are
events that were sent, in their order, all but those that were reported as missed. While the
connection is there, it waits. -/
theorem subscribe_returns (addressable : ∀ event, (codec.serialize event).length < 2 ^ 32)
    (small : Small ack) (correlationId : UInt64) (steps : List (Subscription.Step Event))
    (count : Nat) :
    let s := Subscription.run codec correlationId ack steps
    ∃ got whole, s.events.Accounts got s.lagged ∧
      Whole codec correlationId got (count - (ipcFrame 2 correlationId ack).length) whole ∧
      (∀ turns, count < turns →
        subscribe codec true turns (s.written.take count) = some (.ok whole)) ∧
      ((∀ event ∈ got, Small (codec.serialize event)) →
        ∀ turns, subscribe codec false turns (s.written.take count) = none) := by
  intro s
  obtain ⟨got, forwards⟩ := Subscription.exists_forwards codec correlationId ack steps
  have written : s.written =
      ipcFrame 2 correlationId ack ++ got.flatMap (eventFrame codec correlationId) :=
    forwards.written
  obtain ⟨whole, holds, reads⟩ := exists_whole addressable correlationId got
    (count - (ipcFrame 2 correlationId ack).length)
  refine ⟨got, whole, forwards.accounts, holds, ?_⟩
  rw [written]
  by_cases answered : (ipcFrame 2 correlationId ack).length ≤ count
  case pos =>
    obtain ⟨more, rfl⟩ := Nat.exists_eq_add_of_le answered
    rw [Nat.add_sub_cancel_left] at reads
    constructor
    · intro turns enough
      rw [List.take_length_add_append, subscribe_ack small, reads turns (by omega)]
      rfl
    · intro all_small turns
      rw [List.take_length_add_append, subscribe_ack small, readEvents_open all_small]
      rfl
  case neg =>
    have cut := Nat.lt_of_not_le answered
    rw [Nat.sub_eq_zero_of_le cut.le] at holds
    obtain rfl := holds.eq_nil
    constructor
    · intro turns _
      exact subscribe_cut small true turns _ cut
    · intro _ turns
      exact subscribe_cut small false turns _ cut

namespace Sample

/-- Each event is forwarded before the next one comes. -/
theorem forwards_all_prompt :
    let s := Subscription.run byte 7 [] [.send 1, .forward]
    s.Forwards byte 7 [] (s.events.sent.take s.events.next) := by
  apply Subscription.forwards_all
  intro before initial
  have short := initial.length_le
  match before, initial with
  | [], initial => cases (List.cons_prefix_cons.mp initial).1
  | [first], initial =>
      obtain ⟨rfl, -⟩ := List.cons_prefix_cons.mp initial
      decide
  | first :: second :: rest, _ =>
      simp only [List.length_append, List.length_cons, List.length_nil] at short
      omega

/-- The second event comes before the loop has forwarded the first, and the connection breaks off
within the second. -/
theorem subscribe_returns_first :
    ∃ got whole : List UInt8,
      Whole byte 7 got (46 - (ipcFrame 2 7 []).length) whole ∧
        ∀ turns, 46 < turns → subscribe byte true turns
          ((Subscription.run byte 7 [] [.send 1, .send 2, .forward, .forward]).written.take 46) =
            some (.ok whole) := by
  have addressable : ∀ value, (byte.serialize value).length < 2 ^ 32 := by
    intro value
    exact Nat.one_lt_two_pow (by decide)
  have small : Small [] := by decide
  obtain ⟨got, whole, -, holds, returned, -⟩ := subscribe_returns addressable small 7
    [.send 1, .send 2, .forward, .forward] 46
  exact ⟨got, whole, holds, returned⟩

example : subscribe byte true 47
    ((Subscription.run byte 7 [] [.send 1, .send 2, .forward, .forward]).written.take 46) =
      some (.ok [1]) := by
  rfl

end Sample

end Qubox.Daemon
