import Mathlib.Algebra.Order.BigOperators.Group.List
import Mathlib.Logic.Function.Basic
import Qubox.Control
import Qubox.Host.Input
import Qubox.Library.Stepping
import Qubox.Transport.Truncation

/-!
# Control channels

Two tasks of a session accept the control channels that the client opens: the rate feedback
task one, and the handler of clipboard and microphone one or two. A channel carries no mark
of what it is for, so a channel that is opened reaches whichever task takes it. The purpose
of a channel is known to the client only.
-/

namespace Qubox.Host

open Transport

/-! ## The tasks -/

inductive HostClipboardSync where
  | off
  | hostToClient
  | clientToHost
  | both
  deriving DecidableEq

structure ChannelConfig where
  permissions : SessionPermissions
  clipboardSync : HostClipboardSync
  deriving DecidableEq

def allowClipboardWatch (p : SessionPermissions) : Bool := p.clipboard

/-- The handler only sends on the channel it accepts first, and reads from a second one. -/
def ChannelConfig.watches (config : ChannelConfig) : Bool :=
  allowClipboardWatch config.permissions &&
    (config.clipboardSync = .hostToClient || config.clipboardSync = .both)

inductive ChannelPurpose where
  | rateFeedback
  | clipMic
  | clipboardWatch
  deriving DecidableEq

inductive ChannelTask where
  | rateFeedback
  | clipMic
  deriving DecidableEq

namespace ChannelTask

def purpose : ChannelTask → ChannelPurpose
  | rateFeedback => .rateFeedback
  | clipMic => .clipMic

/-- The messages that a task does not only log. -/
def handles : ChannelTask → ControlMsg → Bool
  | rateFeedback, .rateFeedback _ => true
  | clipMic, .clipboardChanged _ _ | clipMic, .micStart _ | clipMic, .micStop => true
  | _, _ => false

/-- The handler answers a message, and gives up when it cannot. -/
def answers : ChannelTask → ControlMsg → Bool
  | clipMic, .micStart _ => true
  | _, _ => false

theorem purpose_inj {task other : ChannelTask} (same : task.purpose = other.purpose) :
    task = other := by
  cases task <;> cases other <;> first | rfl | cases same

end ChannelTask

inductive ChannelPhase where
  | accepting
  | acceptingSecond
  | reading (stream count : Nat)
  | ended
  deriving DecidableEq

/-- Where a task goes on when it has accepted a stream. -/
def ChannelPhase.accept (config : ChannelConfig) (task : ChannelTask) (stream : Nat) :
    ChannelPhase → Option ChannelPhase
  | accepting =>
      if task = .clipMic ∧ config.watches then some acceptingSecond else some (reading stream 0)
  | acceptingSecond => some (reading stream 0)
  | _ => none

/-- What a task accepts a channel for. -/
def ChannelPhase.awaits (config : ChannelConfig) (task : ChannelTask) :
    ChannelPhase → ChannelPurpose
  | accepting => if task = .clipMic ∧ config.watches then .clipboardWatch else task.purpose
  | _ => task.purpose

/-- The steps of a task that are left, when there are `total` messages. -/
def ChannelPhase.work (total : Nat) : ChannelPhase → Nat
  | accepting => total + 3
  | acceptingSecond => total + 2
  | reading _ count => total - count + 1
  | ended => 0

/-! ## The connection -/

structure ControlStream where
  purpose : ChannelPurpose
  sent : List ControlMsg := []
  finished : Bool := false
  accepted : Bool := false
  deriving DecidableEq

structure Receipt where
  task : ChannelTask
  stream : Nat
  msg : ControlMsg
  deriving DecidableEq

structure ControlHost where
  streams : List ControlStream := []
  phase : ChannelTask → ChannelPhase := fun _ => .accepting
  received : List Receipt := []

inductive ControlStep where
  /-- `open_control_channel` -/
  | opens (purpose : ChannelPurpose)
  | sends (stream : Nat) (msg : ControlMsg)
  | finishes (stream : Nat)
  | accepts (task : ChannelTask) (stream : Nat)
  /-- `answered`: the answer, if there is one, could be sent. -/
  | reads (task : ChannelTask) (answered : Bool)

/-- A step of a task of the host. -/
def ControlStep.OfHost : ControlStep → Prop
  | accepts _ _ | reads _ _ => True
  | _ => False

namespace ControlHost

variable (json : Codec ControlMsg) (config : ChannelConfig) (host : ControlHost)

def setPhase (task : ChannelTask) (phase : ChannelPhase) : ControlHost :=
  { host with phase := Function.update host.phase task phase }

def opened (purpose : ChannelPurpose) : ControlHost :=
  { host with streams := host.streams ++ [{ purpose }] }

def write (stream : Nat) (msg : ControlMsg) : ControlHost :=
  { host with streams := host.streams.modify stream fun s => { s with sent := s.sent ++ [msg] } }

def finish (stream : Nat) : ControlHost :=
  { host with streams := host.streams.modify stream fun s => { s with finished := true } }

def take (task : ChannelTask) (stream : Nat) (phase : ChannelPhase) : ControlHost :=
  { host.setPhase task phase with
    streams := host.streams.modify stream fun s => { s with accepted := true } }

/-- A task gets a message from `ControlChannel::recv`. -/
def receive (task : ChannelTask) (stream count : Nat) (msg : ControlMsg) (answered : Bool) :
    ControlHost :=
  { host.setPhase task
      (if task.answers msg && !answered then .ended else .reading stream (count + 1)) with
    received := host.received ++ [⟨task, stream, msg⟩] }

/-- A task looks at the next message of its stream. -/
def read (task : ChannelTask) (stream count : Nat) (answered : Bool) (s : ControlStream) :
    Option ControlHost :=
  match s.sent[count]? with
  | some msg =>
      match recvControl json (sentControl json msg) with
      | .ok (some (msg, _)) => some (host.receive task stream count msg answered)
      | .ok none | .error _ => some (host.setPhase task .ended)
  | none => if s.finished then some (host.setPhase task .ended) else none

def step : ControlStep → Option ControlHost
  | .opens purpose => some (host.opened purpose)
  | .sends stream msg =>
      match host.streams[stream]? with
      | some s =>
          if s.finished ∨ (sendControl json msg).toOption.isNone then none
          else some (host.write stream msg)
      | none => none
  | .finishes stream => (host.streams[stream]?).map fun _ => host.finish stream
  | .accepts task stream =>
      match host.streams[stream]? with
      | some s =>
          if s.accepted then none
          else ((host.phase task).accept config task stream).map (host.take task stream)
      | none => none
  | .reads task answered =>
      match host.phase task with
      | .reading stream count =>
          (host.streams[stream]?).bind (host.read json task stream count answered)
      | _ => none

def run : ControlHost → List ControlStep → Option ControlHost := Stepping.run (step json config)

/-! ## Delivery -/

/-- No task of the host can go on. -/
def Quiet : Prop := ∀ step, step.OfHost → host.step json config step = none

/-- What a task has received on a stream. -/
def receivedFrom (task : ChannelTask) (stream : Nat) : List ControlMsg :=
  (host.received.filter fun receipt => receipt.task = task ∧ receipt.stream = stream).map (·.msg)

/-- Every message is received by the task that handles it, and by no other. -/
structure ReachesHandlers : Prop where
  right : ∀ receipt ∈ host.received, ∀ task : ChannelTask,
    task.handles receipt.msg → receipt.task = task
  all : host.Quiet json config → ∀ i s, host.streams[i]? = some s → ∀ task : ChannelTask,
    (host.receivedFrom task i).filter task.handles = s.sent.filter task.handles

/-- The client opens one channel for each purpose, and sends on it what it is for, in messages
that a reader accepts. A task accepts a channel that was opened for it, and gets its answers
through. -/
def Careful : ControlStep → Prop
  | .opens purpose => ∀ s ∈ host.streams, s.purpose ≠ purpose
  | .sends stream msg =>
      json.Readable msg ∧ ∀ s, host.streams[stream]? = some s → ∀ task : ChannelTask,
        task.handles msg → s.purpose = task.purpose
  | .finishes _ => True
  | .accepts task stream =>
      ∀ s, host.streams[stream]? = some s → s.purpose = (host.phase task).awaits config task
  | .reads _ answered => answered = true

def CarefulSteps : ControlHost → List ControlStep → Prop :=
  Stepping.Meets (step json config) (Careful json config)

end ControlHost

/-! ## Streams that grow -/

section Streams

variable {before after : List ControlStream}

/-- A stream keeps its purpose and what was sent, and sends no more once it is finished. -/
structure ControlStream.Grows (s t : ControlStream) : Prop where
  purpose : t.purpose = s.purpose
  sent : s.sent <+: t.sent
  finished : s.finished → t.finished ∧ t.sent = s.sent

theorem ControlStream.Grows.refl (s : ControlStream) : s.Grows s :=
  ⟨rfl, List.prefix_rfl, fun finished => ⟨finished, rfl⟩⟩

variable {f : ControlStream → ControlStream} {i : Nat}

theorem forall_mem_modify {p : ControlStream → Prop} (all : ∀ s ∈ before, p s)
    (kept : ∀ s, before[i]? = some s → p (f s)) : ∀ s ∈ before.modify i f, p s := by
  intro t member
  obtain ⟨j, found⟩ := List.mem_iff_getElem?.mp member
  rw [List.getElem?_modify] at found
  obtain ⟨s, there, rfl⟩ := Option.map_eq_some_iff.mp found
  by_cases same : i = j
  · rw [if_pos same]
    exact kept s (same ▸ there)
  · rw [if_neg same]
    exact all s (List.mem_of_getElem? there)

theorem map_modify {β : Type} {g : ControlStream → β}
    (kept : ∀ s, before[i]? = some s → g (f s) = g s) :
    (before.modify i f).map g = before.map g := by
  apply List.ext_getElem?
  intro j
  rw [List.getElem?_map, List.getElem?_map, List.getElem?_modify]
  cases found : before[j]? with
  | none => rfl
  | some s =>
      by_cases same : i = j
      · subst same
        simp [kept s found]
      · simp [same]

/-- Every stream after a step was there before the step, or is one that was opened. -/
structure Evolved (before after : List ControlStream) : Prop where
  later : ∀ (i : Nat) (s : ControlStream), before[i]? = some s →
    ∃ t, after[i]? = some t ∧ s.Grows t
  single : (before.map (·.purpose)).Nodup → (after.map (·.purpose)).Nodup

theorem Evolved.refl (streams : List ControlStream) : Evolved streams streams where
  later _ s found := ⟨s, found, .refl s⟩
  single := id

theorem Evolved.modify (grows : ∀ s, before[i]? = some s → s.Grows (f s)) :
    Evolved before (before.modify i f) where
  later j s found := by
    rw [List.getElem?_modify, found]
    by_cases same : i = j
    · subst same
      exact ⟨f s, by simp, grows s found⟩
    · exact ⟨s, by simp [same], .refl s⟩
  single nodup := by
    rwa [map_modify fun s found => (grows s found).purpose]

theorem Evolved.opened {purpose : ChannelPurpose} (fresh : ∀ s ∈ before, s.purpose ≠ purpose) :
    Evolved before (before ++ [{ purpose := purpose }]) where
  later i s found := ⟨s, by rw [List.getElem?_append_left (List.getElem?_eq_some_iff.mp found).1,
    found], .refl s⟩
  single nodup := by
    rw [List.map_append, List.nodup_append]
    refine ⟨nodup, List.nodup_singleton _, fun other member opened new => ?_⟩
    obtain ⟨s, there, rfl⟩ := List.mem_map.mp member
    intro same
    rw [List.map_singleton, List.mem_singleton] at new
    exact fresh s there (same.trans new)

end Streams

/-! ## Runs -/

namespace ControlHost

variable {json : Codec ControlMsg} {config : ChannelConfig} {host next : ControlHost}
  {task : ChannelTask}

def receivedBy (host : ControlHost) (task : ChannelTask) : List Receipt :=
  host.received.filter (·.task = task)

/-- A task has received the first messages of the one stream it reads. -/
def Progress (host : ControlHost) (task : ChannelTask) : Prop :=
  match host.phase task with
  | .accepting | .acceptingSecond => host.receivedBy task = []
  | .reading i count => ∃ s, host.streams[i]? = some s ∧ s.purpose = task.purpose ∧
      count ≤ s.sent.length ∧ host.receivedBy task = (s.sent.take count).map (⟨task, i, ·⟩)
  | .ended => ∃ (i : Nat) (s : ControlStream), host.streams[i]? = some s ∧
      s.purpose = task.purpose ∧ s.finished ∧ host.receivedBy task = s.sent.map (⟨task, i, ·⟩)

/-- A stream has been accepted for its purpose. -/
def Served (host : ControlHost) (s : ControlStream) : Prop :=
  ∀ task : ChannelTask, s.purpose = task.purpose →
    host.phase task ≠ .accepting ∧ host.phase task ≠ .acceptingSecond

structure Orderly (json : Codec ControlMsg) (host : ControlHost) : Prop where
  single : (host.streams.map (·.purpose)).Nodup
  readable : ∀ s ∈ host.streams, ∀ msg ∈ s.sent, json.Readable msg
  sorted : ∀ s ∈ host.streams, ∀ msg ∈ s.sent, ∀ task : ChannelTask, task.handles msg →
    s.purpose = task.purpose
  served : ∀ s ∈ host.streams, s.accepted → host.Served s
  progress : ∀ task, host.Progress task

theorem orderly_start : Orderly json {} where
  single := .nil
  readable _ member := by cases member
  sorted _ member := by cases member
  served _ member := by cases member
  progress _ := rfl

theorem index_of_purpose (single : (host.streams.map (·.purpose)).Nodup) {i j : Nat}
    {s t : ControlStream} (first : host.streams[i]? = some s) (second : host.streams[j]? = some t)
    (same : s.purpose = t.purpose) : i = j := by
  have one : (host.streams.map (·.purpose))[i]? = some s.purpose := by
    rw [List.getElem?_map, first, Option.map_some]
  have two : (host.streams.map (·.purpose))[j]? = some t.purpose := by
    rw [List.getElem?_map, second, Option.map_some]
  apply (List.getElem?_inj _ single).mp
  · rw [one, two, same]
  · exact (List.getElem?_eq_some_iff.mp one).1

/-- What a task has done is the same whatever is opened, sent or finished. -/
theorem Progress.later (progress : host.Progress task)
    (evolved : Evolved host.streams next.streams) (phase : next.phase task = host.phase task)
    (received : next.receivedBy task = host.receivedBy task) : next.Progress task := by
  unfold Progress at progress ⊢
  rw [phase, received]
  split at progress
  case h_1 | h_2 => exact progress
  case h_3 i count _ =>
    obtain ⟨s, found, purpose, low, got⟩ := progress
    obtain ⟨t, there, grows⟩ := evolved.later i s found
    obtain ⟨rest, more⟩ := grows.sent
    refine ⟨t, there, grows.purpose.trans purpose, ?_, ?_⟩
    · exact Nat.le_trans low grows.sent.length_le
    · rw [got, ← more, List.take_append_of_le_length low]
  case h_4 =>
    obtain ⟨i, s, found, purpose, finished, got⟩ := progress
    obtain ⟨t, there, grows⟩ := evolved.later i s found
    obtain ⟨stays, same⟩ := grows.finished finished
    exact ⟨i, t, there, grows.purpose.trans purpose, stays, same ▸ got⟩

theorem Orderly.opened {purpose : ChannelPurpose} (orderly : host.Orderly json)
    (fresh : ∀ s ∈ host.streams, s.purpose ≠ purpose) :
    (host.opened purpose).Orderly json where
  single := (Evolved.opened fresh).single orderly.single
  readable s member msg sent := by
    obtain old | new := List.mem_append.mp member
    · exact orderly.readable s old msg sent
    · obtain rfl := List.mem_singleton.mp new
      cases sent
  sorted s member msg sent := by
    obtain old | new := List.mem_append.mp member
    · exact orderly.sorted s old msg sent
    · obtain rfl := List.mem_singleton.mp new
      cases sent
  served s member accepted := by
    obtain old | new := List.mem_append.mp member
    · exact orderly.served s old accepted
    · obtain rfl := List.mem_singleton.mp new
      cases accepted
  progress task := (orderly.progress task).later (.opened fresh) rfl rfl

theorem Orderly.write {stream : Nat} {msg : ControlMsg} {s : ControlStream}
    (orderly : host.Orderly json) (found : host.streams[stream]? = some s)
    (unfinished : ¬ s.finished) (readable : json.Readable msg)
    (sorted : ∀ task : ChannelTask, task.handles msg → s.purpose = task.purpose) :
    (host.write stream msg).Orderly json := by
  have grows : ∀ t, host.streams[stream]? = some t →
      t.Grows { t with sent := t.sent ++ [msg] } := by
    intro t there
    obtain rfl := Option.some.inj (found.symm.trans there)
    exact ⟨rfl, List.prefix_append _ _, fun finished => absurd finished unfinished⟩
  have evolved := Evolved.modify grows
  constructor
  case single => exact evolved.single orderly.single
  case readable =>
    refine forall_mem_modify orderly.readable fun t there other sent => ?_
    obtain old | new := List.mem_append.mp sent
    · exact orderly.readable t (List.mem_of_getElem? there) other old
    · exact List.mem_singleton.mp new ▸ readable
  case sorted =>
    refine forall_mem_modify orderly.sorted fun t there other sent task handles => ?_
    obtain rfl := Option.some.inj (found.symm.trans there)
    obtain old | new := List.mem_append.mp sent
    · exact orderly.sorted s (List.mem_of_getElem? there) other old task handles
    · obtain rfl := List.mem_singleton.mp new
      exact sorted task handles
  case served =>
    exact forall_mem_modify orderly.served fun t there => orderly.served t (List.mem_of_getElem? there)
  case progress => exact fun task => (orderly.progress task).later evolved rfl rfl

theorem Orderly.finish {stream : Nat} (orderly : host.Orderly json) :
    (host.finish stream).Orderly json := by
  have evolved : Evolved host.streams (host.finish stream).streams :=
    .modify fun t _ => ⟨rfl, List.prefix_rfl, fun _ => ⟨rfl, rfl⟩⟩
  constructor
  case single => exact evolved.single orderly.single
  case readable =>
    exact forall_mem_modify orderly.readable fun t there =>
      orderly.readable t (List.mem_of_getElem? there)
  case sorted =>
    exact forall_mem_modify orderly.sorted fun t there => orderly.sorted t (List.mem_of_getElem? there)
  case served =>
    exact forall_mem_modify orderly.served fun t there => orderly.served t (List.mem_of_getElem? there)
  case progress => exact fun task => (orderly.progress task).later evolved rfl rfl

/-- A task accepts a channel to read from, or the one that the handler only sends on. -/
theorem accept_cases {phase after : ChannelPhase} {stream : Nat}
    (accepts : phase.accept config task stream = some after) :
    phase = .accepting ∧ after = .acceptingSecond ∧
        phase.awaits config task = .clipboardWatch ∨
      (phase = .accepting ∨ phase = .acceptingSecond) ∧ after = .reading stream 0 ∧
        phase.awaits config task = task.purpose := by
  cases phase with
  | accepting =>
      rw [ChannelPhase.accept] at accepts
      rw [ChannelPhase.awaits]
      by_cases watches : task = .clipMic ∧ config.watches
      · rw [if_pos watches] at accepts ⊢
        exact .inl ⟨rfl, (Option.some.inj accepts).symm, rfl⟩
      · rw [if_neg watches] at accepts ⊢
        exact .inr ⟨.inl rfl, (Option.some.inj accepts).symm, rfl⟩
  | acceptingSecond => exact .inr ⟨.inr rfl, (Option.some.inj accepts).symm, rfl⟩
  | reading | ended => cases accepts

@[simp] theorem phase_setPhase_self {phase : ChannelPhase} :
    (host.setPhase task phase).phase task = phase :=
  Function.update_self _ _ _

/-- A task that waits has received nothing. -/
theorem Progress.nothing {phase : ChannelPhase} (progress : host.Progress task)
    (here : host.phase task = phase) (waits : phase = .accepting ∨ phase = .acceptingSecond) :
    host.receivedBy task = [] := by
  subst here
  unfold Progress at progress
  obtain accepting | accepting := waits
  · rw [accepting] at progress
    exact progress
  · rw [accepting] at progress
    exact progress

theorem Orderly.take {stream : Nat} {after : ChannelPhase} {s : ControlStream}
    (orderly : host.Orderly json) (found : host.streams[stream]? = some s)
    (accepts : (host.phase task).accept config task stream = some after)
    (wanted : s.purpose = (host.phase task).awaits config task) :
    (host.take task stream after).Orderly json := by
  have evolved : Evolved host.streams (host.take task stream after).streams :=
    .modify fun t _ => ⟨rfl, List.prefix_rfl, fun finished => ⟨finished, rfl⟩⟩
  have phase_self : (host.take task stream after).phase task = after := Function.update_self _ _ _
  have phase_other (other : ChannelTask) (different : other ≠ task) :
      (host.take task stream after).phase other = host.phase other :=
    Function.update_of_ne different _ _
  have cases := accept_cases accepts
  constructor
  case single => exact evolved.single orderly.single
  case readable =>
    exact forall_mem_modify orderly.readable fun t there =>
      orderly.readable t (List.mem_of_getElem? there)
  case sorted =>
    exact forall_mem_modify orderly.sorted fun t there => orderly.sorted t (List.mem_of_getElem? there)
  case served =>
    apply forall_mem_modify
    · intro t old accepted other purpose
      have waited := orderly.served t old accepted other purpose
      by_cases same : other = task
      · subst same
        obtain ⟨here, -, -⟩ | ⟨here | here, -, -⟩ := cases
        · exact absurd here waited.1
        · exact absurd here waited.1
        · exact absurd here waited.2
      · rw [phase_other other same]
        exact waited
    · intro t there _ other purpose
      obtain rfl := Option.some.inj (found.symm.trans there)
      change s.purpose = other.purpose at purpose
      obtain ⟨-, -, awaits⟩ | ⟨-, reading, awaits⟩ := cases
      · have watch : other.purpose = .clipboardWatch := purpose.symm.trans (wanted.trans awaits)
        cases other <;> cases watch
      · obtain rfl := ChannelTask.purpose_inj (purpose.symm.trans (wanted.trans awaits))
        rw [phase_self, reading]
        exact ⟨ChannelPhase.noConfusion, ChannelPhase.noConfusion⟩
  case progress =>
    intro other
    by_cases same : other = task
    · subst same
      have nothing : (host.take other stream after).receivedBy other = [] := by
        obtain ⟨here, -, -⟩ | ⟨here, -, -⟩ := cases
        · exact (orderly.progress other).nothing here (.inl rfl)
        · exact (orderly.progress other).nothing rfl here
      unfold Progress
      rw [phase_self, nothing]
      obtain ⟨-, rfl, -⟩ | ⟨-, rfl, awaits⟩ := cases
      · rfl
      · obtain ⟨t, there, grows⟩ := evolved.later stream s found
        exact ⟨t, there, grows.purpose.trans (wanted.trans awaits), Nat.zero_le _, rfl⟩
    · exact (orderly.progress other).later evolved (phase_other other same) rfl

theorem recv_of_readable {msg : ControlMsg} (readable : json.Readable msg) :
    recvControl json (sentControl json msg) = .ok (some (msg, [])) := by
  have small : (json.toVec msg).length ≤ maxJsonFrame := readable.2
  have accepted : Accepted json msg := by
    apply accepted_iff.mpr
    rw [maxJsonFrame] at small
    omega
  have back : ReadBack json msg := ⟨small, readable.1⟩
  have received := back.recv accepted []
  rwa [List.append_nil] at received

theorem read_cases {stream count : Nat} {s : ControlStream}
    (readable : ∀ msg ∈ s.sent, json.Readable msg)
    (stepped : host.read json task stream count true s = some next) :
    (∃ msg, s.sent[count]? = some msg ∧ next = host.receive task stream count msg true) ∨
      s.sent[count]? = none ∧ s.finished ∧ next = host.setPhase task .ended := by
  unfold read at stepped
  cases there : s.sent[count]? with
  | some msg =>
      rw [there] at stepped
      simp only [recv_of_readable (readable msg (List.mem_of_getElem? there))] at stepped
      exact .inl ⟨msg, rfl, (Option.some.inj stepped).symm⟩
  | none =>
      rw [there] at stepped
      by_cases finished : s.finished
      · exact .inr ⟨rfl, finished, (Option.some.inj ((if_pos finished).symm.trans stepped)).symm⟩
      · cases (if_neg finished).symm.trans stepped

theorem receivedBy_receive {stream count : Nat} {msg : ControlMsg} (other : ChannelTask) :
    (host.receive task stream count msg true).receivedBy other =
      if other = task then host.receivedBy task ++ [⟨task, stream, msg⟩]
      else host.receivedBy other := by
  change (host.received ++ [(⟨task, stream, msg⟩ : Receipt)]).filter _ = _
  rw [List.filter_append]
  by_cases same : other = task
  · subst same
    simp [receivedBy]
  · simp [receivedBy, same, Ne.symm same]

/-- Only the progress of one task changes. -/
theorem Orderly.advance {phase : ChannelPhase} (orderly : host.Orderly json)
    (streams : next.streams = host.streams)
    (phases : next.phase = Function.update host.phase task phase)
    (goes : phase ≠ .accepting ∧ phase ≠ .acceptingSecond)
    (received : ∀ other, other ≠ task → next.receivedBy other = host.receivedBy other)
    (progress : next.Progress task) : next.Orderly json where
  single := streams ▸ orderly.single
  readable := streams ▸ orderly.readable
  sorted := streams ▸ orderly.sorted
  served s member accepted other purpose := by
    rw [phases]
    by_cases same : other = task
    · subst same
      rw [Function.update_self]
      exact goes
    · rw [Function.update_of_ne same]
      exact orderly.served s (streams ▸ member) accepted other purpose
  progress other := by
    by_cases same : other = task
    · exact same ▸ progress
    · refine (orderly.progress other).later ?_ ?_ (received other same)
      · rw [streams]
        exact .refl host.streams
      · rw [phases, Function.update_of_ne same]

theorem Orderly.read {stream count : Nat} {s : ControlStream} (orderly : host.Orderly json)
    (here : host.phase task = .reading stream count) (found : host.streams[stream]? = some s)
    (stepped : host.read json task stream count true s = some next) : next.Orderly json := by
  have progress := orderly.progress task
  rw [Progress, here] at progress
  obtain ⟨t, there, purpose, -, got⟩ := progress
  obtain rfl := Option.some.inj (found.symm.trans there)
  obtain ⟨msg, sent, rfl⟩ | ⟨done, finished, rfl⟩ :=
    read_cases (orderly.readable s (List.mem_of_getElem? found)) stepped
  · have phases : (host.receive task stream count msg true).phase =
        Function.update host.phase task (.reading stream (count + 1)) := by
      simp [receive, setPhase]
    refine orderly.advance rfl phases ?_ ?_ ?_
    · exact ⟨ChannelPhase.noConfusion, ChannelPhase.noConfusion⟩
    · intro other different
      rw [receivedBy_receive, if_neg different]
    · unfold Progress
      rw [phases, Function.update_self, receivedBy_receive, if_pos rfl, got]
      refine ⟨s, found, purpose, (List.getElem?_eq_some_iff.mp sent).1, ?_⟩
      rw [List.take_add_one, sent, List.map_append, Option.toList_some, List.map_singleton]
  · have phases : (host.setPhase task .ended).phase = Function.update host.phase task .ended := rfl
    refine orderly.advance rfl phases ?_ (fun _ _ => rfl) ?_
    · exact ⟨ChannelPhase.noConfusion, ChannelPhase.noConfusion⟩
    · unfold Progress
      rw [phase_setPhase_self]
      refine ⟨stream, s, found, purpose, finished, ?_⟩
      rw [List.take_of_length_le (List.getElem?_eq_none_iff.mp done)] at got
      exact got

theorem accepts_some {stream : Nat}
    (stepped : host.step json config (.accepts task stream) = some next) :
    ∃ s after, host.streams[stream]? = some s ∧
      (host.phase task).accept config task stream = some after ∧
      next = host.take task stream after := by
  rw [ControlHost.step] at stepped
  split at stepped
  case h_1 s found =>
    split at stepped
    case isTrue => cases stepped
    case isFalse =>
      obtain ⟨after, accepts, rfl⟩ := Option.map_eq_some_iff.mp stepped
      exact ⟨s, after, found, accepts, rfl⟩
  case h_2 => cases stepped

theorem reads_some {answered : Bool}
    (stepped : host.step json config (.reads task answered) = some next) :
    ∃ stream count s, host.phase task = .reading stream count ∧ host.streams[stream]? = some s ∧
      host.read json task stream count answered s = some next := by
  rw [ControlHost.step] at stepped
  split at stepped
  case h_1 stream count here =>
    obtain ⟨s, found, read⟩ := Option.bind_eq_some_iff.mp stepped
    exact ⟨stream, count, s, here, found, read⟩
  case h_2 => cases stepped

theorem Orderly.of_step {step : ControlStep} (orderly : host.Orderly json)
    (careful : host.Careful json config step) (stepped : host.step json config step = some next) :
    next.Orderly json := by
  cases step with
  | opens purpose =>
      obtain rfl := Option.some.inj stepped
      exact orderly.opened careful
  | sends stream msg =>
      rw [ControlHost.step] at stepped
      split at stepped
      case h_1 s found =>
        split at stepped
        case isTrue => cases stepped
        case isFalse isOpen =>
          obtain rfl := Option.some.inj stepped
          exact orderly.write found (fun finished => isOpen (.inl finished)) careful.1
            (careful.2 s found)
      case h_2 => cases stepped
  | finishes stream =>
      obtain ⟨s, found, rfl⟩ := Option.map_eq_some_iff.mp stepped
      exact orderly.finish
  | accepts task stream =>
      obtain ⟨s, after, found, accepts, rfl⟩ := accepts_some stepped
      exact orderly.take found accepts (careful s found)
  | reads task answered =>
      obtain rfl : answered = true := careful
      obtain ⟨stream, count, s, here, found, read⟩ := reads_some stepped
      exact orderly.read here found read

theorem Progress.of_receipt {receipt : Receipt} (progress : host.Progress receipt.task)
    (member : receipt ∈ host.received) : ∃ s, host.streams[receipt.stream]? = some s ∧
      s.purpose = receipt.task.purpose ∧ receipt.msg ∈ s.sent := by
  have mine : receipt ∈ host.receivedBy receipt.task :=
    List.mem_filter.mpr ⟨member, decide_eq_true rfl⟩
  unfold Progress at progress
  split at progress
  case h_1 | h_2 =>
    rw [progress] at mine
    cases mine
  case h_3 i count _ =>
    obtain ⟨s, found, purpose, -, got⟩ := progress
    rw [got] at mine
    obtain ⟨msg, sent, same⟩ := List.mem_map.mp mine
    rw [← same]
    exact ⟨s, found, same ▸ purpose, List.mem_of_mem_take sent⟩
  case h_4 =>
    obtain ⟨i, s, found, purpose, -, got⟩ := progress
    rw [got] at mine
    obtain ⟨msg, sent, same⟩ := List.mem_map.mp mine
    rw [← same]
    exact ⟨s, found, same ▸ purpose, sent⟩

theorem receivedFrom_eq (i : Nat) : host.receivedFrom task i =
    ((host.receivedBy task).filter (·.stream = i)).map (·.msg) := by
  simp only [receivedFrom, receivedBy, List.filter_filter, Bool.decide_and, Bool.and_comm]

/-- Once the host is quiet, the stream of a task has been read to its end. -/
theorem Orderly.all_read (orderly : host.Orderly json) (quiet : host.Quiet json config) {i : Nat}
    {s : ControlStream} (found : host.streams[i]? = some s) (purpose : s.purpose = task.purpose) :
    host.receivedBy task = s.sent.map (⟨task, i, ·⟩) := by
  have progress := orderly.progress task
  have member := List.mem_of_getElem? found
  -- a task that waits could accept the stream
  have waits (after : ChannelPhase)
      (accepts : (host.phase task).accept config task i = some after) : s.accepted = true := by
    by_contra unaccepted
    have stopped := quiet (.accepts task i) trivial
    simp [step, found, unaccepted, accepts] at stopped
  unfold Progress at progress
  split at progress
  case h_1 here =>
    rw [here, ChannelPhase.accept] at waits
    split at waits
    · exact absurd here (orderly.served s member (waits _ rfl) task purpose).1
    · exact absurd here (orderly.served s member (waits _ rfl) task purpose).1
  case h_2 here =>
    rw [here] at waits
    exact absurd here (orderly.served s member (waits _ rfl) task purpose).2
  case h_3 j count here =>
    obtain ⟨t, there, same, -, got⟩ := progress
    obtain rfl := index_of_purpose orderly.single found there (purpose.trans same.symm)
    obtain rfl := Option.some.inj (found.symm.trans there)
    have stopped := quiet (.reads task true) trivial
    simp only [step, here, found, Option.bind_some, ControlHost.read] at stopped
    cases more : s.sent[count]? with
    | some msg =>
        rw [more] at stopped
        simp only [recv_of_readable (orderly.readable s member msg (List.mem_of_getElem? more))]
          at stopped
        cases stopped
    | none => rw [got, List.take_of_length_le (List.getElem?_eq_none_iff.mp more)]
  case h_4 =>
    obtain ⟨j, t, there, same, -, got⟩ := progress
    obtain rfl := index_of_purpose orderly.single found there (purpose.trans same.symm)
    obtain rfl := Option.some.inj (found.symm.trans there)
    exact got

theorem Orderly.reachesHandlers (orderly : host.Orderly json) :
    host.ReachesHandlers json config where
  right receipt member task handles := by
    obtain ⟨s, found, purpose, sent⟩ := (orderly.progress receipt.task).of_receipt member
    have sorted := orderly.sorted s (List.mem_of_getElem? found) receipt.msg sent task handles
    exact ChannelTask.purpose_inj (purpose.symm.trans sorted)
  all quiet i s found task := by
    by_cases purpose : s.purpose = task.purpose
    · rw [receivedFrom_eq, orderly.all_read quiet found purpose]
      simp [List.filter_map, Function.comp_def]
    · have unhandled : s.sent.filter task.handles = [] := by
        apply List.filter_eq_nil_iff.mpr
        intro msg sent handles
        exact purpose (orderly.sorted s (List.mem_of_getElem? found) msg sent task handles)
      have unread : host.receivedFrom task i = [] := by
        rw [receivedFrom, List.map_eq_nil_iff, List.filter_eq_nil_iff]
        intro receipt member this
        obtain ⟨rfl, rfl⟩ := of_decide_eq_true this
        obtain ⟨t, there, same, -⟩ := (orderly.progress receipt.task).of_receipt member
        obtain rfl := Option.some.inj (found.symm.trans there)
        exact purpose same
      rw [unread, unhandled, List.filter_nil]

/-- The steps that the tasks can take without the client. -/
def work (host : ControlHost) : Nat :=
  let total := (host.streams.map (·.sent.length)).sum
  (host.phase .rateFeedback).work total + (host.phase .clipMic).work total

theorem work_lt_of_phase {phase : ChannelPhase}
    (total : (next.streams.map (·.sent.length)).sum = (host.streams.map (·.sent.length)).sum)
    (phases : next.phase = Function.update host.phase task phase)
    (less : phase.work (host.streams.map (·.sent.length)).sum <
      (host.phase task).work (host.streams.map (·.sent.length)).sum) : next.work < host.work := by
  simp only [work, total, phases]
  cases task with
  | rateFeedback | clipMic =>
      rw [Function.update_self, Function.update_of_ne ChannelTask.noConfusion]
      omega

theorem sent_lengths_take {stream : Nat} {phase : ChannelPhase} :
    (host.take task stream phase).streams.map (·.sent.length) =
      host.streams.map (·.sent.length) :=
  map_modify fun _ _ => rfl

theorem accept_work {phase after : ChannelPhase} {stream total : Nat}
    (accepts : phase.accept config task stream = some after) :
    after.work total < phase.work total := by
  obtain ⟨rfl, rfl, -⟩ | ⟨rfl | rfl, rfl, -⟩ := accept_cases accepts
  all_goals simp only [ChannelPhase.work]; omega

theorem read_work {stream count : Nat} {answered : Bool} {s : ControlStream}
    (here : host.phase task = .reading stream count) (found : host.streams[stream]? = some s)
    (stepped : host.read json task stream count answered s = some next) : next.work < host.work := by
  have ended (total : Nat) : ChannelPhase.ended.work total < (host.phase task).work total := by
    rw [here]
    exact Nat.succ_pos _
  rw [ControlHost.read] at stepped
  split at stepped
  case h_1 msg sent =>
    split at stepped
    case h_1 got _ _ =>
      obtain rfl := Option.some.inj stepped
      have phases : (host.receive task stream count got answered).phase =
        Function.update host.phase task
          (if task.answers got && !answered then .ended else .reading stream (count + 1)) := rfl
      refine work_lt_of_phase ?_ phases ?_
      · rfl
      split
      · exact ended _
      · rw [here]
        have low := (List.getElem?_eq_some_iff.mp sent).1
        have within : s.sent.length ≤ (host.streams.map (·.sent.length)).sum :=
          List.single_le_sum (fun _ _ => Nat.zero_le _) _
            (List.mem_map_of_mem (List.mem_of_getElem? found))
        simp only [ChannelPhase.work]
        omega
    case h_2 | h_3 =>
      obtain rfl := Option.some.inj stepped
      exact work_lt_of_phase rfl rfl (ended _)
  case h_2 =>
    split at stepped
    · obtain rfl := Option.some.inj stepped
      exact work_lt_of_phase rfl rfl (ended _)
    · cases stepped

theorem work_lt {step : ControlStep} (ofHost : step.OfHost)
    (stepped : host.step json config step = some next) : next.work < host.work := by
  cases step with
  | opens | sends | finishes => exact ofHost.elim
  | accepts task stream =>
      obtain ⟨s, after, -, accepts, rfl⟩ := accepts_some stepped
      exact work_lt_of_phase (by rw [sent_lengths_take]) rfl (accept_work accepts)
  | reads task answered =>
      obtain ⟨stream, count, s, here, found, read⟩ := reads_some stepped
      exact read_work here found read

/-- The tasks become quiet when the client does nothing more. -/
theorem length_le_work {steps : List ControlStep} (ofHost : ∀ step ∈ steps, step.OfHost)
    (ran : host.run json config steps = some next) : steps.length ≤ host.work :=
  Stepping.length_le (fun member stepped => work_lt (ofHost _ member) stepped) ran

/-- In every run whose channels are taken by the tasks they were opened for, every message is
received by the task that handles it. -/
theorem reachesHandlers_of_careful (json : Codec ControlMsg) (config : ChannelConfig)
    (steps : List ControlStep) (host : ControlHost)
    (careful : CarefulSteps json config {} steps) (ran : run json config {} steps = some host) :
    host.ReachesHandlers json config := by
  have orderly : host.Orderly json := careful.invariant Orderly.of_step orderly_start ran
  exact orderly.reachesHandlers

end ControlHost

namespace Sample

def micStopText : Bytes :=
  "\x7b\"op\":\"mic_stop\"\x7d".toList.map fun c => UInt8.ofNat c.toNat

/-- `serde_json` on the text of `MicStop`. -/
def micStopCodec : Codec ControlMsg where
  toVec msg := if msg = .micStop then micStopText else []
  fromSlice bytes := if bytes = micStopText then .ok .micStop else .error "expected value"

def quietChannels : ChannelConfig := ⟨{}, .off⟩

/-- Each task takes the channel that was opened for it. -/
def sortedSteps : List ControlStep :=
  [.opens .clipMic, .opens .rateFeedback, .sends 0 .micStop, .accepts .rateFeedback 1,
    .accepts .clipMic 0, .reads .clipMic true]

theorem micStop_readable : micStopCodec.Readable .micStop :=
  ⟨rfl, by rw [Codec.Small]; decide⟩

theorem sorted_careful :
    ControlHost.CarefulSteps micStopCodec quietChannels {} sortedSteps := by
  refine .cons (fun _ member => ?_) rfl ?_
  · cases member
  refine .cons (fun s member => ?_) rfl ?_
  · obtain rfl := List.mem_singleton.mp member
    exact ChannelPurpose.noConfusion
  refine .cons ⟨micStop_readable, fun s found task handles => ?_⟩ rfl ?_
  · obtain rfl := Option.some.inj found
    cases task with
    | clipMic => rfl
    | rateFeedback => cases handles
  refine .cons (fun s found => ?_) rfl ?_
  · obtain rfl := Option.some.inj found
    rfl
  refine .cons (fun s found => ?_) rfl ?_
  · obtain rfl := Option.some.inj found
    rfl
  exact .cons rfl rfl trivial

theorem sorted_reachesHandlers :
    ∃ host, ControlHost.run micStopCodec quietChannels {} sortedSteps = some host ∧
      host.ReachesHandlers micStopCodec quietChannels ∧ host.received = [⟨.clipMic, 0, .micStop⟩] :=
  ⟨_, rfl, ControlHost.reachesHandlers_of_careful micStopCodec quietChannels sortedSteps _
    sorted_careful rfl, rfl⟩

/-- What the host does of it after the client. -/
def hostSteps : List ControlStep :=
  [.accepts .rateFeedback 1, .accepts .clipMic 0, .reads .clipMic true]

theorem hostSteps_length_le : ∃ host next,
    ControlHost.run micStopCodec quietChannels {}
        [.opens .clipMic, .opens .rateFeedback, .sends 0 .micStop] = some host ∧
      host.run micStopCodec quietChannels hostSteps = some next ∧
      hostSteps.length ≤ host.work := by
  have ofHost : ∀ step ∈ hostSteps, step.OfHost := by
    simp [hostSteps, ControlStep.OfHost]
  obtain ⟨host, next, client, ran⟩ : ∃ host next,
      ControlHost.run micStopCodec quietChannels {}
          [.opens .clipMic, .opens .rateFeedback, .sends 0 .micStop] = some host ∧
        host.run micStopCodec quietChannels hostSteps = some next := ⟨_, _, rfl, rfl⟩
  exact ⟨host, next, client, ran, ControlHost.length_le_work ofHost ran⟩

/-- The client opens its one channel, and the rate feedback task takes it. -/
theorem stolen_not_reachesHandlers :
    ¬ ∀ (json : Codec ControlMsg) (config : ChannelConfig) (steps : List ControlStep)
        (host : ControlHost), ControlHost.run json config {} steps = some host →
        host.ReachesHandlers json config := by
  intro all
  have reaches := all micStopCodec quietChannels
    [.opens .clipMic, .sends 0 .micStop, .accepts .rateFeedback 0, .reads .rateFeedback true] _ rfl
  have right := reaches.right ⟨.rateFeedback, 0, .micStop⟩ (.head _) .clipMic rfl
  cases right

end Sample

end Qubox.Host
