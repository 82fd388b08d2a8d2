import Qubox.Host.PinGate
import Qubox.Library.Stepping

/-!
# Idle kills

Two timers act on an idle session. The watchdog collects the sessions that have not been
touched for long, and kills one after the other. The task of a native session sleeps for
the whole timeout and then kicks the session; nothing tells it of touches. Beside the
timers, the state keeps which sessions were admitted, and when each was touched, which no
program reads.
-/

namespace Qubox.Host

open Signaling SignalingLoop

/-- The timer of a native session. -/
structure IdleTimer where
  sessionId : Uuid
  due : Nat
  deriving DecidableEq

structure Touch where
  sessionId : Uuid
  millis : Nat
  deriving DecidableEq

structure IdleHost where
  loop : SignalingLoop
  /-- Native sessions whose task has not begun. -/
  spawned : List SessionRequested := []
  timers : List IdleTimer := []
  admitted : List Uuid := []
  touches : List Touch := []

inductive IdleStep where
  | loop (step : LoopStep)
  /-- The first part of `run_native_quic_session`. -/
  | begins (index : Nat)
  /-- The sleep of a timer is over. -/
  | fires (index : Nat)

def SocketFrame.touches : SocketFrame → Option Uuid
  | .sessionActivity sessionId => some sessionId
  | _ => none

/-- The session that a step of the loop touches. -/
def SignalingLoop.touched (loop : SignalingLoop) : LoopStep → Option Uuid
  | .takes =>
      match loop.handling, loop.next? with
      | .idle, some arrival => arrival.frame.touches
      | _, _ => none
  | .decides .admitted =>
      match loop.handling with
      | .deciding requested _ => some requested.sessionId
      | _ => none
  | _ => none

/-- The request that a step of the loop admits. -/
def SignalingLoop.admits (loop : SignalingLoop) : LoopStep → Option SessionRequested
  | .decides .admitted =>
      match loop.handling with
      | .deciding requested _ => some requested
      | _ => none
  | _ => none

namespace IdleHost

variable (config : HostConfig) (host : IdleHost)

def start (clock : Nat) (policy : PinPolicy) : IdleHost where
  loop := { clock, policy }

/-- The loop has made a step. -/
def note (step : LoopStep) (next : SignalingLoop) : IdleHost :=
  { host with
    loop := next
    spawned := host.spawned ++ (host.loop.admits step).toList.filter (·.transport = .nativeQuic)
    admitted := host.admitted ++ (host.loop.admits step).toList.map (·.sessionId)
    touches := host.touches ++
      (host.loop.touched step).toList.map fun sessionId => ⟨sessionId, host.loop.clock⟩ }

def beginTask (index : Nat) (requested : SessionRequested) : IdleHost :=
  { host with
    spawned := host.spawned.eraseIdx index
    timers :=
      if requested.codec = .h264 ∧ config.idleTimeoutMs ≠ 0 then
        host.timers ++ [⟨requested.sessionId, host.loop.clock + config.idleTimeoutMs⟩]
      else host.timers }

def fire (index : Nat) (timer : IdleTimer) : IdleHost :=
  { host with
    loop := host.loop.kick timer.sessionId "idle_timeout"
    timers := host.timers.eraseIdx index }

def step : IdleStep → Option IdleHost
  | .loop step => (host.loop.step config step).map (host.note step)
  | .begins index => (host.spawned[index]?).map (host.beginTask config index)
  | .fires index =>
      match host.timers[index]? with
      | some timer => if timer.due ≤ host.loop.clock then some (host.fire index timer) else none
      | none => none

def run : IdleHost → List IdleStep → Option IdleHost := Stepping.run (step config)

/-! ## Idle kills -/

/-- The session that a step kicks or kills for being idle. -/
def idleKill : IdleStep → Option Uuid
  | .loop (.killsStale sessionId) => some sessionId
  | .fires index => (host.timers[index]?).map (·.sessionId)
  | _ => none

/-- The session was admitted, and was not touched for the whole timeout. -/
def Idle (sessionId : Uuid) : Prop :=
  sessionId ∈ host.admitted ∧ ∀ touch ∈ host.touches, touch.sessionId = sessionId →
    touch.millis + config.idleTimeoutMs ≤ host.loop.clock

/-- A touch is for a session that was admitted, for which no timer is running and which the
watchdog is not about to kill. -/
def Careful : IdleStep → Prop
  | .loop step => ∀ sessionId, host.loop.touched step = some sessionId →
      (sessionId ∈ host.admitted ∨ (host.loop.admits step).isSome) ∧
        sessionId ∉ host.loop.stale ∧ ∀ timer ∈ host.timers, timer.sessionId ≠ sessionId
  | _ => True

def CarefulSteps : IdleHost → List IdleStep → Prop := Stepping.Meets (step config) Careful

end IdleHost

/-! ## What a step of the loop does to the tracker -/

section Loop

variable {config : HostConfig} {loop next : SignalingLoop} {step : LoopStep}

structure Tracked (config : HostConfig) (loop : SignalingLoop) (step : LoopStep)
    (next : SignalingLoop) : Prop where
  clock : loop.clock ≤ next.clock
  activity : ∀ sessionId last, next.activity.lookup sessionId = some last →
    if loop.touched step = some sessionId then last = loop.clock
    else loop.activity.lookup sessionId = some last
  stale : ∀ sessionId ∈ next.stale, sessionId ∈ loop.stale ∨
    loop.touched step = none ∧ sessionId ∈ loop.collectStaleSessions config

/-- A step that leaves the clock, the tracker and the watchdog alone. -/
theorem Tracked.quiet (untouched : loop.touched step = none) (clock : next.clock = loop.clock)
    (activity : next.activity = loop.activity) (stale : next.stale = loop.stale) :
    Tracked config loop step next where
  clock := Nat.le_of_eq clock.symm
  activity sessionId last found := by
    rw [untouched, if_neg (Option.some_ne_none _).symm, ← activity]
    exact found
  stale sessionId member := .inl (stale ▸ member)

theorem Tracked.touching {sessionId : Uuid} (touched : loop.touched step = some sessionId)
    (clock : next.clock = loop.clock)
    (activity : next.activity = loop.activity.insert sessionId loop.clock)
    (stale : next.stale = loop.stale) : Tracked config loop step next where
  clock := Nat.le_of_eq clock.symm
  activity other last found := by
    rw [activity, AList.lookup_insert_ite] at found
    rw [touched]
    by_cases same : other = sessionId
    · subst same
      rw [if_pos rfl] at found ⊢
      exact (Option.some.inj found).symm
    · rw [if_neg same] at found
      rw [if_neg (fun equal => same (Option.some.inj equal).symm)]
      exact found
  stale sessionId member := .inl (stale ▸ member)

theorem Tracked.erasing {sessionId : Uuid} (untouched : loop.touched step = none)
    (clock : next.clock = loop.clock) (activity : next.activity = loop.activity.erase sessionId)
    (stale : ∀ other ∈ next.stale, other ∈ loop.stale) : Tracked config loop step next where
  clock := Nat.le_of_eq clock.symm
  activity other last found := by
    rw [activity, AList.lookup_erase_ite] at found
    rw [untouched, if_neg (Option.some_ne_none _).symm]
    split at found
    · cases found
    · exact found
  stale other member := .inl (stale other member)

theorem tracked_handleFrame (idle : loop.handling = .idle) {arrival : Arrival}
    (first : loop.next? = some arrival) :
    Tracked config loop .takes
      ({ loop with taken := loop.taken + 1 }.handleFrame loop.taken arrival) := by
  have touched : loop.touched .takes = arrival.frame.touches := by
    rw [SignalingLoop.touched, idle, first]
  obtain ⟨frame, millis⟩ := arrival
  cases frame with
  | sessionActivity sessionId => exact .touching touched rfl rfl rfl
  | other | malformed | close | failed => exact .quiet touched rfl rfl rfl
  | text message =>
      cases message with
      | sessionRequested requested =>
          change Tracked config loop .takes
            (request { loop with taken := loop.taken + 1 } loop.taken millis requested)
          rw [request]
          split
          · exact .quiet touched rfl rfl rfl
          · exact .quiet touched rfl rfl rfl
      | sessionBundleAccepted bundle =>
          change Tracked config loop .takes (deliver { loop with taken := loop.taken + 1 } bundle)
          rw [deliver]
          split
          · exact .quiet touched rfl rfl rfl
          · exact .quiet touched rfl rfl rfl
      | _ => exact .quiet touched rfl rfl rfl

theorem tracked_checked (gate : Gate) (bundle : SessionBundleInfo)
    (verified : Except BundleVerifyErrorLocal Unit × JtiCache) :
    Tracked config loop .resumes (loop.checked gate bundle verified) := by
  rw [SignalingLoop.checked.eq_def]
  split
  · exact .quiet rfl rfl rfl rfl
  · split
    · exact .quiet rfl rfl rfl rfl
    · exact .quiet rfl rfl rfl rfl

theorem tracked_resume {gate : Gate} (resumed : loop.resume config gate = some next) :
    Tracked config loop .resumes next := by
  rw [SignalingLoop.resume] at resumed
  split at resumed
  case h_1 bundle _ =>
    obtain rfl := Option.some.inj resumed
    exact tracked_checked gate bundle _
  case h_2 =>
    rw [SignalingLoop.expire] at resumed
    split at resumed
    · split at resumed
      · cases resumed
        exact .quiet rfl rfl rfl rfl
      · cases resumed
    · cases resumed
      exact .quiet rfl rfl rfl rfl

theorem tracked_verified {lookups : Lookups}
    (verified : Except BundleVerifyErrorLocal SignedKill × JtiCache) :
    Tracked config loop (.verifies lookups) (loop.verified config verified) := by
  rw [SignalingLoop.verified.eq_def]
  split
  · exact .quiet rfl rfl rfl rfl
  · exact .quiet rfl rfl rfl rfl

theorem tracked_settle {requested : SessionRequested} {selectedDisplayId : Option UInt32}
    (deciding : loop.handling = .deciding requested selectedDisplayId) (decision : Decision) :
    Tracked config loop (.decides decision) (loop.settle requested decision) := by
  cases decision with
  | rateLimited | denied => exact .quiet rfl rfl rfl rfl
  | admitted =>
      have touched : loop.touched (.decides .admitted) = some requested.sessionId := by
        rw [SignalingLoop.touched, deciding]
      exact .touching touched rfl rfl rfl

theorem tracked_of_step (stepped : loop.step config step = some next) :
    Tracked config loop step next := by
  cases stepped_of_step stepped with
  | takes idle first => exact tracked_handleFrame idle first
  | resumes _ resumed => exact tracked_resume resumed
  | decides deciding => exact tracked_settle deciding _
  | verifies _ => exact tracked_verified _
  | kills _ => exact .erasing rfl rfl rfl fun _ => id
  | killsStale first =>
      refine .erasing rfl rfl rfl fun other member => ?_
      rw [first]
      exact .tail _ member
  | ends _ => exact .erasing rfl rfl rfl fun _ => id
  | elapses millis =>
      exact ⟨Nat.le_add_right _ _, fun _ _ found => found, fun _ member => .inl member⟩
  | collects _ =>
      exact ⟨Nat.le_refl _, fun _ _ found => found, fun _ member => .inr ⟨rfl, member⟩⟩
  | heartbeats _ | arrives _ | replaces _ | returns _ => exact .quiet rfl rfl rfl rfl

theorem mem_collectStaleSessions (pos : 0 < config.idleTimeoutMs) {sessionId : Uuid}
    (member : sessionId ∈ loop.collectStaleSessions config) :
    ∃ last, loop.activity.lookup sessionId = some last ∧
      last + config.idleTimeoutMs ≤ loop.clock := by
  obtain ⟨last, found, old⟩ := (Option.any_eq_true _ _).mp (List.mem_filter.mp member).2
  have := of_decide_eq_true old
  exact ⟨last, found, by omega⟩

end Loop

/-! ## Runs -/

namespace IdleHost

variable {config : HostConfig} {host next : IdleHost}

/-- What is known of every touch of a session that is tracked, collected or timed. -/
structure Watched (config : HostConfig) (host : IdleHost) : Prop where
  past : ∀ touch ∈ host.touches, touch.millis ≤ host.loop.clock
  tracked : ∀ sessionId last, host.loop.activity.lookup sessionId = some last →
    sessionId ∈ host.admitted ∧
      ∀ touch ∈ host.touches, touch.sessionId = sessionId → touch.millis ≤ last
  collected : ∀ sessionId ∈ host.loop.stale, host.Idle config sessionId
  timed : ∀ timer ∈ host.timers, timer.sessionId ∈ host.admitted ∧
    ∀ touch ∈ host.touches, touch.sessionId = timer.sessionId →
      touch.millis + config.idleTimeoutMs ≤ timer.due
  waiting : ∀ requested ∈ host.spawned, requested.sessionId ∈ host.admitted

theorem watched_start (clock : Nat) (policy : PinPolicy) : Watched config (start clock policy) where
  past _ member := by cases member
  tracked _ _ found := by cases found
  collected _ member := by cases member
  timed _ member := by cases member
  waiting _ member := by cases member

theorem admits_of_touched {loop : SignalingLoop} {step : LoopStep} {sessionId : Uuid}
    (touched : loop.touched step = some sessionId) (admits : (loop.admits step).isSome) :
    ∃ requested, loop.admits step = some requested ∧ requested.sessionId = sessionId := by
  obtain ⟨requested, found⟩ := Option.isSome_iff_exists.mp admits
  refine ⟨requested, found, ?_⟩
  unfold SignalingLoop.admits at found
  split at found
  case h_1 =>
    rw [SignalingLoop.touched] at touched
    split at found
    case h_1 deciding =>
      rw [deciding] at touched
      cases found
      exact Option.some.inj touched
    case h_2 => cases found
  case h_2 => cases found

theorem admitted_note {step : LoopStep} {loop : SignalingLoop} {sessionId : Uuid}
    (member : sessionId ∈ host.admitted) : sessionId ∈ (host.note step loop).admitted :=
  List.mem_append_left _ member

/-- The touches after a step are those before, and maybe one now. -/
theorem touches_note {step : LoopStep} {loop : SignalingLoop} {touch : Touch}
    (member : touch ∈ (host.note step loop).touches) :
    touch ∈ host.touches ∨
      host.loop.touched step = some touch.sessionId ∧ touch.millis = host.loop.clock := by
  obtain old | new := List.mem_append.mp member
  · exact .inl old
  · obtain ⟨sessionId, found, rfl⟩ := List.mem_map.mp new
    exact .inr ⟨Option.mem_toList.mp found, rfl⟩

/-- A session that a step does not touch stays idle. -/
theorem Idle.note {step : LoopStep} {loop : SignalingLoop} {sessionId : Uuid}
    (idle : host.Idle config sessionId) (clock : host.loop.clock ≤ loop.clock)
    (untouched : host.loop.touched step ≠ some sessionId) :
    (host.note step loop).Idle config sessionId := by
  refine ⟨admitted_note idle.1, fun touch member same => ?_⟩
  obtain old | ⟨touched, -⟩ := touches_note member
  · exact Nat.le_trans (idle.2 touch old same) clock
  · exact absurd (same ▸ touched) untouched

theorem Watched.note {step : LoopStep} {loop : SignalingLoop} (pos : 0 < config.idleTimeoutMs)
    (watched : Watched config host) (careful : host.Careful (.loop step))
    (stepped : host.loop.step config step = some loop) : Watched config (host.note step loop) where
  past touch member := by
    have clock := (tracked_of_step stepped).clock
    obtain old | ⟨-, now⟩ := touches_note member
    · exact Nat.le_trans (watched.past touch old) clock
    · exact now ▸ clock
  tracked sessionId last found := by
    have tracked := (tracked_of_step stepped).activity sessionId last found
    split at tracked
    case isTrue touched =>
      subst tracked
      constructor
      · obtain known | admits := (careful sessionId touched).1
        · exact admitted_note known
        · obtain ⟨requested, admitted, rfl⟩ := admits_of_touched touched admits
          apply List.mem_append_right
          rw [admitted]
          exact List.mem_singleton_self _
      · intro touch member _
        obtain old | ⟨-, now⟩ := touches_note member
        · exact watched.past touch old
        · exact Nat.le_of_eq now
    case isFalse untouched =>
      obtain ⟨known, before⟩ := watched.tracked sessionId last tracked
      refine ⟨admitted_note known, fun touch member same => ?_⟩
      obtain old | ⟨touched, -⟩ := touches_note member
      · exact before touch old same
      · exact absurd (same ▸ touched) untouched
  collected sessionId member := by
    have tracked := tracked_of_step stepped
    obtain old | ⟨untouched, new⟩ := tracked.stale sessionId member
    · apply (watched.collected sessionId old).note tracked.clock
      intro touched
      exact (careful sessionId touched).2.1 old
    · obtain ⟨last, found, late⟩ := mem_collectStaleSessions pos new
      obtain ⟨known, before⟩ := watched.tracked sessionId last found
      have idle : host.Idle config sessionId := by
        refine ⟨known, fun touch member same => ?_⟩
        have := before touch member same
        omega
      apply idle.note tracked.clock
      rw [untouched]
      exact (Option.some_ne_none sessionId).symm
  timed timer member := by
    obtain ⟨known, before⟩ := watched.timed timer member
    refine ⟨admitted_note known, fun touch there same => ?_⟩
    obtain old | ⟨touched, -⟩ := touches_note there
    · exact before touch old same
    · exact absurd same.symm ((careful touch.sessionId touched).2.2 timer member)
  waiting requested member := by
    obtain old | new := List.mem_append.mp member
    · exact admitted_note (watched.waiting requested old)
    · apply List.mem_append_right
      exact List.mem_map_of_mem (List.mem_filter.mp new).1

theorem Watched.beginTask {index : Nat} {requested : SessionRequested}
    (watched : Watched config host) (found : host.spawned[index]? = some requested) :
    Watched config (host.beginTask config index requested) where
  past := watched.past
  tracked := watched.tracked
  collected := watched.collected
  timed timer member := by
    change timer ∈ if requested.codec = .h264 ∧ config.idleTimeoutMs ≠ 0 then _ else _ at member
    split at member
    · obtain old | new := List.mem_append.mp member
      · exact watched.timed timer old
      · obtain rfl := List.mem_singleton.mp new
        refine ⟨watched.waiting requested (List.mem_of_getElem? found), fun touch there _ => ?_⟩
        exact Nat.add_le_add_right (watched.past touch there) _
    · exact watched.timed timer member
  waiting other member := watched.waiting other (List.mem_of_mem_eraseIdx member)

theorem Watched.fire {index : Nat} {timer : IdleTimer} (watched : Watched config host) :
    Watched config (host.fire index timer) where
  past := watched.past
  tracked := watched.tracked
  collected := watched.collected
  timed other member := watched.timed other (List.mem_of_mem_eraseIdx member)
  waiting := watched.waiting

theorem Watched.of_step {step : IdleStep} (pos : 0 < config.idleTimeoutMs)
    (watched : Watched config host) (careful : host.Careful step)
    (stepped : host.step config step = some next) : Watched config next := by
  cases step with
  | loop step =>
      obtain ⟨loop, looped, rfl⟩ := Option.map_eq_some_iff.mp stepped
      exact watched.note pos careful looped
  | begins index =>
      obtain ⟨requested, found, rfl⟩ := Option.map_eq_some_iff.mp stepped
      exact watched.beginTask found
  | fires index =>
      rw [IdleHost.step] at stepped
      split at stepped
      case h_1 =>
        split at stepped
        · obtain rfl := Option.some.inj stepped
          exact watched.fire
        · cases stepped
      case h_2 => cases stepped

theorem Watched.idle {step : IdleStep} {sessionId : Uuid} (watched : Watched config host)
    (kills : host.idleKill step = some sessionId) (stepped : host.step config step = some next) :
    host.Idle config sessionId := by
  cases step with
  | begins index => cases kills
  | loop step =>
      obtain ⟨loop, stepped, -⟩ := Option.map_eq_some_iff.mp stepped
      cases stepped_of_step stepped with
      | killsStale first =>
          obtain rfl := Option.some.inj kills
          exact watched.collected _ (by simp [first])
      | _ => cases kills
  | fires index =>
      obtain ⟨timer, found, rfl⟩ := Option.map_eq_some_iff.mp kills
      rw [IdleHost.step, found] at stepped
      obtain ⟨known, before⟩ := watched.timed timer (List.mem_of_getElem? found)
      by_cases due : timer.due ≤ host.loop.clock
      · exact ⟨known, fun touch member same => Nat.le_trans (before touch member same) due⟩
      · change (if timer.due ≤ host.loop.clock then some (host.fire index timer) else none) =
          some next at stepped
        rw [if_neg due] at stepped
        cases stepped

theorem Careful.of_untouched {step : LoopStep} (untouched : host.loop.touched step = none) :
    host.Careful (.loop step) := by
  intro sessionId touched
  rw [untouched] at touched
  cases touched

/-- In every run whose touches are for admitted sessions that no timer runs for and that the
watchdog is not about to kill, the host kicks or kills idle sessions only. -/
theorem idle_of_careful (config : HostConfig) (clock : Nat) (policy : PinPolicy)
    (steps : List IdleStep) (host next : IdleHost) (step : IdleStep) (sessionId : Uuid)
    (pos : 0 < config.idleTimeoutMs)
    (careful : (start clock policy).CarefulSteps config steps)
    (ran : (start clock policy).run config steps = some host)
    (kills : host.idleKill step = some sessionId) (stepped : host.step config step = some next) :
    host.Idle config sessionId := by
  have watched : Watched config host :=
    careful.invariant (Watched.of_step pos) (watched_start clock policy) ran
  exact watched.idle kills stepped

end IdleHost

namespace Sample

def idleConfig : HostConfig := { gatedConfig with idleTimeoutMs := 5000 }

def nativeRequest : SessionRequested := { gatedRequest with transport := .nativeQuic }

/-- A native session is admitted, and its task begins. -/
def idleSteps : List IdleStep :=
  [.loop (.arrives (.text (.sessionRequested nativeRequest))), .loop .takes,
    .loop (.decides .admitted), .begins 0]

def idleStart : IdleHost := .start 0 {}

def activeSteps : List IdleStep :=
  idleSteps ++
    [.loop (.elapses 3000), .loop (.arrives (.sessionActivity 1)), .loop .takes,
      .loop (.elapses 2000)]

def quietSteps : List IdleStep := idleSteps ++ [.loop (.elapses 5000)]

theorem quiet_careful : idleStart.CarefulSteps idleConfig quietSteps := by
  refine .cons (.of_untouched rfl) rfl ?_
  refine .cons (.of_untouched rfl) rfl ?_
  refine .cons (fun _ _ => ⟨.inr rfl, List.not_mem_nil, fun _ member => ?_⟩) rfl ?_
  · cases member
  refine .cons trivial rfl ?_
  exact .cons (.of_untouched rfl) rfl trivial

theorem quiet_idle :
    ∃ host next, idleStart.run idleConfig quietSteps = some host ∧
      host.step idleConfig (.fires 0) = some next ∧ host.Idle idleConfig 1 :=
  ⟨_, _, rfl, rfl, IdleHost.idle_of_careful idleConfig 0 {} quietSteps _ _ (.fires 0) 1
    (by decide) quiet_careful rfl rfl rfl⟩

/-- The session is active after three seconds, and its timer still fires after five. -/
theorem active_not_idle :
    ¬ ∀ config clock policy steps host next step sessionId, 0 < config.idleTimeoutMs →
        (IdleHost.start clock policy).run config steps = some host →
        host.idleKill step = some sessionId → host.step config step = some next →
        host.Idle config sessionId := by
  intro all
  have idle := all idleConfig 0 {} activeSteps _ _ (.fires 0) 1 (by decide) rfl rfl rfl
  have late := idle.2 ⟨1, 3000⟩ (.tail _ (.head _)) rfl
  exact absurd late (by decide)

end Sample

end Qubox.Host
