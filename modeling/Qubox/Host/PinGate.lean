import Qubox.Host.SignalingLoop

/-!
# The PIN gate

While the gate waits, its own task takes no frame, so nothing is ever sent into its
channel. The wait ends with the timer, unless the watchdog kills the session before.
-/

namespace Qubox.Host

open Signaling SignalingLoop

section Steps

variable {config : HostConfig} {start loop next : SignalingLoop} {gate : Gate} {step : LoopStep}
  {steps : List LoopStep}

theorem run_append (first second : List LoopStep) :
    loop.run config (first ++ second) =
      (loop.run config first).bind fun middle => middle.run config second := by
  induction first generalizing loop with
  | nil => rfl
  | cons step first ih =>
      rw [List.cons_append, run, run, Option.bind_assoc]
      exact congrArg _ (funext fun middle => ih)

/-- What each step does, and the await that it does it at. -/
inductive Stepped (config : HostConfig) (loop : SignalingLoop) : LoopStep → SignalingLoop → Prop where
  | heartbeats (idle : loop.handling = .idle) : Stepped config loop .heartbeats (loop.send .heartbeat)
  | arrives (frame : SocketFrame) :
      Stepped config loop (.arrives frame)
        { loop with received := loop.received ++ [⟨frame, loop.clock⟩] }
  | elapses (millis : Nat) :
      Stepped config loop (.elapses millis) { loop with clock := loop.clock + millis }
  | replaces (policy : PinPolicy) : Stepped config loop (.replaces policy) { loop with policy }
  | takes {arrival : Arrival} (idle : loop.handling = .idle) (first : loop.next? = some arrival) :
      Stepped config loop .takes
        ({ loop with taken := loop.taken + 1 }.handleFrame loop.taken arrival)
  | resumes {gate : Gate} {next : SignalingLoop} (gating : loop.handling = .gating gate)
      (resumed : loop.resume config gate = some next) : Stepped config loop .resumes next
  | decides {requested : SessionRequested} {selectedDisplayId : Option UInt32} {decision : Decision}
      (deciding : loop.handling = .deciding requested selectedDisplayId) :
      Stepped config loop (.decides decision) (loop.settle requested decision)
  | verifies {envelope : SignedKillEnvelope} {nowMs : Nat} {lookups : Lookups}
      (verifying : loop.handling = .verifying envelope nowMs) :
      Stepped config loop (.verifies lookups) (loop.verify config envelope nowMs lookups)
  | kills {sessionId : Uuid} (killing : loop.handling = .killing sessionId) :
      Stepped config loop .kills ((loop.killSession sessionId).await .idle)
  | returns {failed : Bool} (busy : loop.handling = .busy) :
      Stepped config loop (.returns failed) (loop.await (if failed then .stopped else .idle))
  | collects (free : loop.stale = []) :
      Stepped config loop .collects { loop with stale := loop.collectStaleSessions config }
  | killsStale {sessionId : Uuid} {stale : List Uuid} (first : loop.stale = sessionId :: stale) :
      Stepped config loop (.killsStale sessionId) ({ loop with stale }.killSession sessionId)
  | ends (sessionId : Uuid) : Stepped config loop (.ends sessionId) (loop.removeActivity sessionId)

theorem stepped_of_step (stepped : loop.step config step = some next) :
    Stepped config loop step next := by
  cases step with
  | arrives frame =>
      cases stepped
      exact .arrives frame
  | elapses millis =>
      cases stepped
      exact .elapses millis
  | replaces policy =>
      cases stepped
      exact .replaces policy
  | ends sessionId =>
      cases stepped
      exact .ends sessionId
  | collects =>
      rw [SignalingLoop.step] at stepped
      split at stepped
      case isTrue free =>
        cases stepped
        exact .collects free.1
      case isFalse => cases stepped
  | killsStale sessionId =>
      rw [SignalingLoop.step] at stepped
      split at stepped
      case h_1 stale first =>
        split at stepped
        case isTrue same =>
          cases stepped
          exact .killsStale (same ▸ first)
        case isFalse => cases stepped
      case h_2 => cases stepped
  | heartbeats =>
      rw [SignalingLoop.step] at stepped
      split at stepped
      case h_1 idle =>
        cases stepped
        exact .heartbeats idle
      case h_2 => cases stepped
  | takes =>
      rw [SignalingLoop.step] at stepped
      split at stepped
      case h_1 idle first =>
        cases stepped
        exact .takes idle first
      case h_2 => cases stepped
  | resumes =>
      rw [SignalingLoop.step] at stepped
      split at stepped
      case h_1 gating => exact .resumes gating stepped
      case h_2 => cases stepped
  | decides decision =>
      rw [SignalingLoop.step] at stepped
      split at stepped
      case h_1 deciding =>
        cases stepped
        exact .decides deciding
      case h_2 => cases stepped
  | verifies lookups =>
      rw [SignalingLoop.step] at stepped
      split at stepped
      case h_1 verifying =>
        obtain rfl := Option.some.inj stepped
        exact .verifies verifying
      case h_2 => cases stepped
  | kills =>
      rw [SignalingLoop.step] at stepped
      split at stepped
      case h_1 killing =>
        cases stepped
        exact .kills killing
      case h_2 => cases stepped
  | returns failed =>
      rw [SignalingLoop.step] at stepped
      split at stepped
      case h_1 busy =>
        cases stepped
        exact .returns busy
      case h_2 => cases stepped

/-! ## Channels -/

/-- The channels that are in use are of frames that were taken. -/
structure Numbered (loop : SignalingLoop) : Prop where
  pending : ∀ {sessionId pending}, loop.pendingBundles.lookup sessionId = some pending →
    pending.deliver < loop.taken
  delivered : ∀ {number bundle}, loop.delivered.lookup number = some bundle → number < loop.taken

theorem Numbered.congr (numbered : Numbered loop) (taken : next.taken = loop.taken)
    (pending : next.pendingBundles = loop.pendingBundles)
    (delivered : next.delivered = loop.delivered) : Numbered next where
  pending found := taken ▸ numbered.pending (pending ▸ found)
  delivered found := taken ▸ numbered.delivered (delivered ▸ found)

theorem Numbered.dropPending (numbered : Numbered loop) (sessionId : Uuid) :
    Numbered (loop.dropPending sessionId) where
  pending found := by
    rw [SignalingLoop.dropPending, AList.lookup_erase_ite] at found
    split at found
    · cases found
    · exact numbered.pending found
  delivered := numbered.delivered

theorem Numbered.killSession (numbered : Numbered loop) (sessionId : Uuid) :
    Numbered (loop.killSession sessionId) :=
  (numbered.dropPending sessionId).congr rfl rfl rfl

theorem Numbered.deliver (numbered : Numbered loop) (bundle : SessionBundleInfo) :
    Numbered (loop.deliver bundle) := by
  rw [SignalingLoop.deliver]
  split
  case h_1 => exact numbered
  case h_2 pending registered =>
    constructor
    · intro sessionId other found
      exact (numbered.dropPending bundle.sessionId).pending found
    · intro number sent found
      simp only [AList.lookup_insert_ite] at found
      split at found
      case isTrue same => exact same ▸ numbered.pending registered
      case isFalse => exact numbered.delivered found

/-- The frame of this number is being handled. -/
theorem Numbered.handleFrame (numbered : Numbered loop) (arrival : Arrival) :
    Numbered ({ loop with taken := loop.taken + 1 }.handleFrame loop.taken arrival) := by
  have counted : Numbered { loop with taken := loop.taken + 1 } :=
    ⟨fun found => Nat.lt_succ_of_lt (numbered.pending found),
      fun found => Nat.lt_succ_of_lt (numbered.delivered found)⟩
  rw [SignalingLoop.handleFrame]
  split
  case h_1 message text =>
    cases message with
    | sessionRequested requested =>
        rw [handleServerMessage, request]
        split
        · constructor
          · intro sessionId pending found
            simp only [await, registerPendingBundle, AList.lookup_insert_ite] at found
            split at found
            · cases found
              exact Nat.lt_succ_self _
            · exact counted.pending found
          · exact counted.delivered
        · exact counted.congr rfl rfl rfl
    | sessionBundleAccepted bundle => exact counted.deliver bundle
    | _ => exact counted.congr rfl rfl rfl
  all_goals exact counted.congr rfl rfl rfl

theorem Numbered.checked (numbered : Numbered loop) (gate : Gate) (bundle : SessionBundleInfo)
    (verified : Except BundleVerifyErrorLocal Unit × JtiCache) :
    Numbered (loop.checked gate bundle verified) := by
  rw [SignalingLoop.checked.eq_def]
  split
  · exact numbered.congr rfl rfl rfl
  · split <;> exact numbered.congr rfl rfl rfl

theorem Numbered.expire (numbered : Numbered loop) (expired : loop.expire gate = some next) :
    Numbered next := by
  rw [SignalingLoop.expire] at expired
  split at expired
  · split at expired
    · cases expired
      exact numbered.congr rfl rfl rfl
    · cases expired
  · cases expired
    exact numbered.congr rfl rfl rfl

theorem Numbered.resume (numbered : Numbered loop) (resumed : loop.resume config gate = some next) :
    Numbered next := by
  rw [SignalingLoop.resume] at resumed
  split at resumed
  case h_1 bundle _ =>
    obtain rfl := Option.some.inj resumed
    exact numbered.checked gate bundle _
  case h_2 => exact numbered.expire resumed

theorem Numbered.settle (numbered : Numbered loop) (requested : SessionRequested)
    (decision : Decision) : Numbered (loop.settle requested decision) := by
  cases decision <;> exact numbered.congr rfl rfl rfl

theorem Numbered.verified (numbered : Numbered loop)
    (verified : Except BundleVerifyErrorLocal SignedKill × JtiCache) :
    Numbered (loop.verified config verified) := by
  rw [SignalingLoop.verified.eq_def]
  split <;> exact numbered.congr rfl rfl rfl

theorem Numbered.of_step (numbered : Numbered loop) (stepped : loop.step config step = some next) :
    Numbered next := by
  cases stepped_of_step stepped with
  | takes idle first => exact numbered.handleFrame _
  | resumes gating resumed => exact numbered.resume resumed
  | decides deciding => exact numbered.settle _ _
  | verifies verifying => exact numbered.verified _
  | kills killing => exact (numbered.killSession _).congr rfl rfl rfl
  | @killsStale sessionId stale first =>
      have popped : Numbered { loop with stale } := numbered.congr rfl rfl rfl
      exact popped.killSession sessionId
  | heartbeats _ | arrives _ | elapses _ | replaces _ | returns _ | collects _ | ends _ =>
      exact numbered.congr rfl rfl rfl

theorem Numbered.run (numbered : Numbered loop) (ran : loop.run config steps = some next) :
    Numbered next := by
  induction steps generalizing loop with
  | nil =>
      cases ran
      exact numbered
  | cons step steps ih =>
      obtain ⟨middle, stepped, ran⟩ := Option.bind_eq_some_iff.mp ran
      exact ih (numbered.of_step stepped) ran

/-! ## The wait of a gate -/

/-- The loop is about to take the request of the gate. -/
structure Enters (loop : SignalingLoop) (gate : Gate) : Prop where
  idle : loop.handling = .idle
  frame : loop.next? = some ⟨.text (.sessionRequested gate.requested), gate.arrived⟩
  pin : loop.policy.requiresPin = true
  number : gate.number = loop.taken
  deadline : gate.deadline = loop.clock + pinBundleTimeoutMs

theorem handling_deliver (bundle : SessionBundleInfo) :
    (loop.deliver bundle).handling = loop.handling := by
  rw [SignalingLoop.deliver]
  split <;> rfl

theorem handling_checked (bundle : SessionBundleInfo)
    (verified : Except BundleVerifyErrorLocal Unit × JtiCache) (other : Gate) :
    (loop.checked gate bundle verified).handling ≠ .gating other := by
  rw [SignalingLoop.checked.eq_def]
  split
  · exact Handling.noConfusion
  · split <;> exact Handling.noConfusion

theorem handling_verified (verified : Except BundleVerifyErrorLocal SignedKill × JtiCache) :
    (loop.verified config verified).handling ≠ .gating gate := by
  rw [SignalingLoop.verified.eq_def]
  split <;> exact Handling.noConfusion

theorem handling_resume (resumed : loop.resume config gate = some next) (other : Gate) :
    next.handling ≠ .gating other := by
  rw [SignalingLoop.resume] at resumed
  split at resumed
  case h_1 bundle _ =>
    obtain rfl := Option.some.inj resumed
    exact handling_checked bundle _ other
  case h_2 =>
    rw [SignalingLoop.expire] at resumed
    split at resumed
    · split at resumed
      · cases resumed
        exact Handling.noConfusion
      · cases resumed
    · cases resumed
      exact Handling.noConfusion

/-- Only a request with a PIN makes the loop wait. -/
theorem enters_of_handleFrame {arrival : Arrival} (idle : loop.handling = .idle)
    (first : loop.next? = some arrival)
    (gating : ({ loop with taken := loop.taken + 1 }.handleFrame loop.taken arrival).handling =
      .gating gate) : Enters loop gate := by
  obtain ⟨frame, millis⟩ := arrival
  have passes {other : SignalingLoop} (same : other.handling = loop.handling)
      (waits : other.handling = .gating gate) : Enters loop gate := by
    rw [same, idle] at waits
    cases waits
  cases frame with
  | text message =>
      cases message with
      | sessionRequested requested =>
          change (request { loop with taken := loop.taken + 1 } loop.taken millis requested).handling =
            .gating gate at gating
          rw [request] at gating
          split at gating
          case isTrue pin =>
            cases gating
            exact ⟨idle, first, pin, rfl, rfl⟩
          case isFalse => cases gating
      | sessionBundleAccepted bundle =>
          have same : (deliver { loop with taken := loop.taken + 1 } bundle).handling = loop.handling :=
            handling_deliver bundle
          exact passes same gating
      | sessionKicked _ _ | signedKillReceived _ | pairingRequested _ | signal _ => cases gating
      | _ => exact passes rfl gating
  | sessionActivity sessionId | other => exact passes rfl gating
  | malformed | close | failed => cases gating

/-- A gate that waits after a step was entered with it, or waited before. -/
theorem gating_step (stepped : loop.step config step = some next)
    (gating : next.handling = .gating gate) :
    (step = .takes ∧ Enters loop gate) ∨ (loop.handling = .gating gate ∧ step ≠ .resumes) := by
  cases stepped_of_step stepped with
  | takes idle first => exact .inl ⟨rfl, enters_of_handleFrame idle first gating⟩
  | resumes _ resumed => exact absurd gating (handling_resume resumed gate)
  | @decides _ _ decision _ => cases decision <;> cases gating
  | verifies _ => exact absurd gating (handling_verified _)
  | kills _ => cases gating
  | @returns failed _ => cases failed <;> cases gating
  | heartbeats _ | arrives _ | elapses _ | replaces _ | collects _ | killsStale _ | ends _ =>
      exact .inr ⟨gating, LoopStep.noConfusion⟩

/-- A step of others leaves a waiting gate alone, except for a kill of its session. -/
theorem waits_step (gating : loop.handling = .gating gate) (other : step ≠ .resumes)
    (stepped : loop.step config step = some next) :
    next.handling = .gating gate ∧ next.delivered = loop.delivered ∧
      (next.keepsSender gate = true ↔
        loop.keepsSender gate = true ∧ step ≠ .killsStale gate.requested.sessionId) := by
  have busy {handling : Handling} (elsewhere : loop.handling = handling)
      (different : handling ≠ .gating gate) : False := different (elsewhere.symm.trans gating)
  cases stepped_of_step stepped with
  | resumes => exact absurd rfl other
  | heartbeats elsewhere | takes elsewhere | decides elsewhere | verifies elsewhere
  | kills elsewhere | returns elsewhere => exact (busy elsewhere Handling.noConfusion).elim
  | @killsStale sessionId stale _ =>
      refine ⟨gating, rfl, ?_⟩
      simp only [keepsSender, killSession, kick, send, removeActivity, dropPending,
        AList.lookup_erase_ite]
      split
      case isTrue same => simp [same]
      case isFalse different =>
        simp only [ne_eq, LoopStep.killsStale.injEq]
        exact ⟨fun keeps => ⟨keeps, fun same => different same.symm⟩, And.left⟩
  | arrives _ | elapses _ | replaces _ | collects _ | ends _ =>
      exact ⟨gating, rfl, ⟨fun keeps => ⟨keeps, LoopStep.noConfusion⟩, And.left⟩⟩

theorem waits_run (gating : loop.handling = .gating gate) (whole : .resumes ∉ steps)
    (ran : loop.run config steps = some next) :
    next.handling = .gating gate ∧ next.delivered = loop.delivered ∧
      (next.keepsSender gate = true ↔
        loop.keepsSender gate = true ∧ .killsStale gate.requested.sessionId ∉ steps) := by
  induction steps generalizing loop with
  | nil =>
      cases ran
      exact ⟨gating, rfl, ⟨fun keeps => ⟨keeps, List.not_mem_nil⟩, And.left⟩⟩
  | cons step steps ih =>
      obtain ⟨middle, stepped, ran⟩ := Option.bind_eq_some_iff.mp ran
      obtain ⟨other, whole⟩ := List.ne_and_not_mem_of_not_mem_cons whole
      obtain ⟨gating, delivered, keeps⟩ := waits_step gating other.symm stepped
      obtain ⟨gating, delivered', keeps'⟩ := ih gating whole ran
      refine ⟨gating, delivered'.trans delivered, ?_⟩
      rw [keeps', keeps, List.mem_cons, not_or, and_assoc]
      exact and_congr_right' (and_congr_left' ne_comm)

theorem Enters.takes (enters : Enters loop gate) (stepped : loop.step config .takes = some next) :
    next.handling = .gating gate ∧ next.delivered = loop.delivered ∧
      next.keepsSender gate = true := by
  obtain ⟨idle, frame, pin, number, deadline⟩ := enters
  obtain ⟨_, requested, arrived, _⟩ := gate
  obtain rfl := number
  obtain rfl := deadline
  simp only [SignalingLoop.step, idle, frame, Option.some.injEq] at stepped
  change request { loop with taken := loop.taken + 1 } loop.taken arrived requested = next at stepped
  rw [request, if_pos pin] at stepped
  obtain rfl := stepped
  refine ⟨rfl, rfl, ?_⟩
  simp [keepsSender, await, registerPendingBundle]

/-- A gate that waits after a run has waited all along, or was entered on the way. -/
theorem gating_run (ran : loop.run config steps = some next) (gating : next.handling = .gating gate) :
    (loop.handling = .gating gate ∧ .resumes ∉ steps) ∨
      ∃ before waiting taking, steps = before ++ .takes :: waiting ∧
        loop.run config before = some taking ∧ Enters taking gate ∧
        taking.run config (.takes :: waiting) = some next ∧ .resumes ∉ waiting := by
  induction steps generalizing loop with
  | nil =>
      cases ran
      exact .inl ⟨gating, List.not_mem_nil⟩
  | cons step steps ih =>
      obtain ⟨middle, stepped, rest⟩ := Option.bind_eq_some_iff.mp ran
      rcases ih rest with ⟨waits, whole⟩ | ⟨before, waiting, taking, rfl, reached, later⟩
      · rcases gating_step stepped waits with ⟨rfl, enters⟩ | ⟨waits, other⟩
        · exact .inr ⟨[], steps, loop, rfl, rfl, enters, ran, whole⟩
        · exact .inl ⟨waits, List.not_mem_cons_of_ne_of_not_mem other.symm whole⟩
      · refine .inr ⟨step :: before, waiting, taking, rfl, ?_, later⟩
        rw [run, stepped]
        exact reached

/-! ## The kick -/

theorem sent_deliver (bundle : SessionBundleInfo) : (loop.deliver bundle).sent = loop.sent := by
  rw [SignalingLoop.deliver]
  split <;> rfl

theorem sent_handleFrame (number : Nat) (arrival : Arrival) :
    (loop.handleFrame number arrival).sent = loop.sent := by
  rw [SignalingLoop.handleFrame]
  split
  case h_1 message _ =>
    cases message with
    | sessionRequested requested =>
        rw [handleServerMessage, request]
        split <;> rfl
    | sessionBundleAccepted bundle => exact sent_deliver bundle
    | _ => rfl
  all_goals rfl

theorem sent_checked (bundle : SessionBundleInfo)
    (verified : Except BundleVerifyErrorLocal Unit × JtiCache) :
    (loop.checked gate bundle verified).sent = loop.sent := by
  rw [SignalingLoop.checked.eq_def]
  split
  · rfl
  · split <;> rfl

theorem sent_verified (verified : Except BundleVerifyErrorLocal SignedKill × JtiCache) :
    (loop.verified config verified).sent = loop.sent := by
  rw [SignalingLoop.verified.eq_def]
  split <;> rfl

/-- The gate ends with `pin_timeout` if its channel is empty and has not lost its sender. -/
theorem resume_kicks_iff (resumed : loop.resume config gate = some next) :
    next.sent = loop.sent ++ [.kickSession gate.requested.sessionId "pin_timeout"] ↔
      loop.delivered.lookup gate.number = none ∧ loop.keepsSender gate = true := by
  rw [SignalingLoop.resume] at resumed
  split at resumed
  case h_1 bundle delivered =>
    obtain rfl := Option.some.inj resumed
    rw [check, sent_checked, delivered]
    simp
  case h_2 empty =>
    rw [SignalingLoop.expire] at resumed
    split at resumed
    case isTrue keeps =>
      split at resumed
      · cases resumed
        exact ⟨fun _ => ⟨empty, keeps⟩, fun _ => rfl⟩
      · cases resumed
    case isFalse lost =>
      cases resumed
      simp [await, lost]

theorem sent_resume (resumed : loop.resume config gate = some next) :
    next.sent = loop.sent ∨
      next.sent = loop.sent ++ [.kickSession gate.requested.sessionId "pin_timeout"] := by
  rw [SignalingLoop.resume] at resumed
  split at resumed
  case h_1 bundle _ =>
    obtain rfl := Option.some.inj resumed
    exact .inl (sent_checked bundle _)
  case h_2 =>
    rw [SignalingLoop.expire] at resumed
    split at resumed
    · split at resumed
      · cases resumed
        exact .inr rfl
      · cases resumed
    · cases resumed
      exact .inl rfl

theorem resumes_of_due (gating : loop.handling = .gating gate)
    (empty : loop.delivered.lookup gate.number = none) (keeps : loop.keepsSender gate = true)
    (due : gate.deadline ≤ loop.clock) :
    loop.step config .resumes =
      some ((loop.kick gate.requested.sessionId "pin_timeout").await .idle) := by
  rw [SignalingLoop.step, gating]
  show loop.resume config gate = _
  rw [SignalingLoop.resume, empty]
  show loop.expire gate = _
  rw [SignalingLoop.expire, if_pos keeps, if_pos due]

/-- Only a gate kicks with `pin_timeout`. -/
theorem pinTimeout_step {sessionId : Uuid} (stepped : loop.step config step = some next)
    (kicked : next.sent = loop.sent ++ [.kickSession sessionId "pin_timeout"]) :
    step = .resumes ∧ ∃ gate, loop.handling = .gating gate ∧
      loop.resume config gate = some next ∧ gate.requested.sessionId = sessionId := by
  have silent (same : next.sent = loop.sent) : False := by
    rw [same] at kicked
    cases List.self_eq_append_right.mp kicked
  have differs {message : ClientMessage} (sent : next.sent = loop.sent ++ [message])
      (different : message ≠ .kickSession sessionId "pin_timeout") : False := by
    rw [sent] at kicked
    exact different (List.singleton_inj.mp (List.append_cancel_left kicked))
  cases stepped_of_step stepped with
  | @resumes gate _ gating resumed =>
      refine ⟨rfl, gate, gating, resumed, ?_⟩
      rcases sent_resume resumed with same | sent
      · exact (silent same).elim
      · rw [sent] at kicked
        cases List.append_cancel_left kicked
        rfl
  | takes _ _ => exact (silent (sent_handleFrame _ _)).elim
  | @decides _ _ decision _ =>
      cases decision with
      | rateLimited => exact (differs rfl (by simp)).elim
      | denied => exact (differs rfl ClientMessage.noConfusion).elim
      | admitted => exact (silent rfl).elim
  | verifies _ => exact (silent (sent_verified _)).elim
  | kills _ | killsStale _ => exact (differs rfl (by simp)).elim
  | heartbeats _ => exact (differs rfl ClientMessage.noConfusion).elim
  | arrives _ | elapses _ | replaces _ | returns _ | collects _ | ends _ =>
      exact (silent rfl).elim

end Steps

section Runs

variable (config : HostConfig)

/-- A bundle for the session of the gate reached the socket after its request and in
time, and passes both checks: with the clock reading of its arrival, and with the cache
and the policy that the host has when the gate ends. -/
def InTime (loop : SignalingLoop) (gate : Gate) (bundle : SessionBundleInfo) : Prop :=
  ∃ arrival ∈ loop.received.drop (gate.number + 1),
    arrival.frame = .text (.sessionBundleAccepted bundle) ∧
      bundle.sessionId = gate.requested.sessionId ∧
      arrival.millis ≤ gate.arrived + pinBundleTimeoutMs ∧
      (verifyBundleLocally loop.jtiCache bundle config.hostDeviceId arrival.millis).1 = .ok () ∧
      verifyPinProof bundle loop.policy gate.requested.client = true

/-- Each `pin_timeout` of the run ends a gate for which no bundle arrived in time. -/
def OpensInTime (start : SignalingLoop) (steps : List LoopStep) : Prop :=
  ∀ before step after loop next sessionId, steps = before ++ step :: after →
    start.run config before = some loop → loop.step config step = some next →
    next.sent = loop.sent ++ [.kickSession sessionId "pin_timeout"] →
    ∃ gate, loop.handling = .gating gate ∧ gate.requested.sessionId = sessionId ∧
      ∀ bundle, ¬ InTime config loop gate bundle

/-- A gate that a run enters, waits at, and leaves. -/
structure GateWait (start : SignalingLoop) (steps : List LoopStep) where
  before : List LoopStep
  waiting : List LoopStep
  after : List LoopStep
  gate : Gate
  taking : SignalingLoop
  ended : SignalingLoop
  split : steps = before ++ .takes :: (waiting ++ .resumes :: after)
  reached : start.run config before = some taking
  enters : Enters taking gate
  waited : taking.run config (.takes :: waiting) = some ended
  whole : .resumes ∉ waiting
  left : (ended.resume config gate).isSome

/-- The watchdog kills each session for whose gate a bundle arrives in time, while the
gate waits. -/
def Forestalled (start : SignalingLoop) (steps : List LoopStep) : Prop :=
  ∀ (wait : GateWait config start steps) (bundle : SessionBundleInfo),
    InTime config wait.ended wait.gate bundle →
      .killsStale wait.gate.requested.sessionId ∈ wait.waiting

variable {config}

theorem numbered_start (clock : Nat) (policy : PinPolicy) : Numbered { clock, policy } where
  pending found := by cases found
  delivered found := by cases found

theorem GateWait.gating {start : SignalingLoop} {steps : List LoopStep}
    (wait : GateWait config start steps) (numbered : Numbered start) :
    wait.ended.handling = .gating wait.gate ∧
      wait.ended.delivered.lookup wait.gate.number = none ∧
      (wait.ended.keepsSender wait.gate = true ↔
        .killsStale wait.gate.requested.sessionId ∉ wait.waiting) := by
  obtain ⟨entered, stepped, ran⟩ := Option.bind_eq_some_iff.mp wait.waited
  obtain ⟨gating, delivered, keeps⟩ := wait.enters.takes stepped
  obtain ⟨gating, delivered', keeps'⟩ := waits_run gating wait.whole ran
  refine ⟨gating, ?_, keeps'.trans (and_iff_right keeps)⟩
  rw [delivered', delivered, Option.eq_none_iff_forall_ne_some]
  intro bundle found
  have used := (numbered.run wait.reached).delivered found
  rw [wait.enters.number] at used
  exact Nat.lt_irrefl _ used

/-- The gate never opens: it times out, unless the watchdog kills the session before. -/
theorem GateWait.kicks_iff {start next : SignalingLoop} {steps : List LoopStep}
    (wait : GateWait config start steps) (numbered : Numbered start)
    (resumed : wait.ended.resume config wait.gate = some next) :
    next.sent = wait.ended.sent ++ [.kickSession wait.gate.requested.sessionId "pin_timeout"] ↔
      .killsStale wait.gate.requested.sessionId ∉ wait.waiting := by
  obtain ⟨-, empty, keeps⟩ := wait.gating numbered
  exact (resume_kicks_iff resumed).trans ((and_iff_right empty).trans keeps)

/-- A host kicks with `pin_timeout` only for want of a bundle, if and only if the watchdog
comes before the timer whenever there is a bundle. -/
theorem opensInTime_iff (config : HostConfig) (clock : Nat) (policy : PinPolicy)
    (steps : List LoopStep) :
    OpensInTime config { clock, policy } steps ↔ Forestalled config { clock, policy } steps := by
  have numbered := numbered_start clock policy
  constructor
  · intro opens wait bundle inTime
    by_contra spared
    obtain ⟨next, resumed⟩ := Option.isSome_iff_exists.mp wait.left
    have gating := (wait.gating numbered).1
    have kicked := (wait.kicks_iff numbered resumed).mpr spared
    have reached : SignalingLoop.run config { clock, policy }
        (wait.before ++ .takes :: wait.waiting) = some wait.ended := by
      rw [run_append, wait.reached]
      exact wait.waited
    have stepped : wait.ended.step config .resumes = some next := by
      rw [SignalingLoop.step, gating]
      exact resumed
    obtain ⟨gate, gating', -, none⟩ := opens (wait.before ++ .takes :: wait.waiting) .resumes
      wait.after wait.ended next wait.gate.requested.sessionId
      (wait.split.trans (by rw [List.append_assoc, List.cons_append])) reached stepped kicked
    cases gating.symm.trans gating'
    exact none bundle inTime
  · rintro forestalled before step after loop next sessionId rfl reached stepped kicked
    obtain ⟨rfl, gate, gating, resumed, rfl⟩ := pinTimeout_step stepped kicked
    refine ⟨gate, gating, rfl, fun bundle inTime => ?_⟩
    rcases gating_run reached gating with
      ⟨impossible, -⟩ | ⟨earlier, waiting, taking, rfl, entered, enters, waited, whole⟩
    · cases impossible
    · let wait : GateWait config { clock, policy }
          ((earlier ++ .takes :: waiting) ++ .resumes :: after) :=
        { before := earlier, waiting, after, gate, taking, ended := loop
          split := by rw [List.append_assoc, List.cons_append]
          reached := entered
          enters, waited, whole
          left := Option.isSome_iff_exists.mpr ⟨next, resumed⟩ }
      exact (wait.kicks_iff numbered resumed).mp kicked (forestalled wait bundle inTime)

end Runs

namespace Sample

def gatedConfig : HostConfig where
  crypto :=
    { verifyingKey := fun _ => .ok ()
      verifySignature := fun _ _ => .ok ()
      payloadSignedKill := fun _ => .error .badBase64 }
  jwks := false
  hostDeviceId := "host-1"
  idleTimeoutMs := 0
  parseUuid := fun _ => none

def credential : SessionCredential where
  token := "token"
  expiresUnixMillis := 600000
  sessionId := 1
  hostPubkey := 2
  clientPubkey := 3
  issuedUnixMillis := 0
  hmac := 0

def gatedRequest : SessionRequested where
  sessionId := 1
  client :=
    { deviceId := 3, peerId := 3, deviceName := "viewer", role := .client, os := .linux
      capabilities := {} }
  transport := .webRtc
  codec := .h264
  hostCredential := credential
  clientCredential := credential
  iceServers := []
  video := none
  permissions := {}
  syncOnly := false

def provenBundle : SessionBundleInfo where
  sessionId := 1
  jti := "jti-1"
  viewerDtlsFp := ""
  expUnixMs := 600000
  caps := {}
  sub := "account:host-1"
  pinProof := some ⟨true⟩
  selectedDisplayId := none

def gatedLoop : SignalingLoop where
  clock := 0
  policy := { mode := .required }

def promptSteps : List LoopStep :=
  [.arrives (.text (.sessionRequested gatedRequest)), .takes, .elapses 1000,
    .arrives (.text (.sessionBundleAccepted provenBundle)), .elapses 29000, .resumes]

/-- A bundle that reaches the socket a second after the request is not taken off it. -/
theorem prompt_not_opensInTime : ¬ OpensInTime gatedConfig gatedLoop promptSteps := by
  intro opens
  obtain ⟨gate, gating, -, none⟩ :=
    opens (promptSteps.take 5) .resumes [] _ _ 1 rfl rfl (resumes_of_due rfl rfl rfl (by decide)) rfl
  cases gating
  refine none provenBundle ⟨_, .head _, rfl, rfl, ?_, ?_, rfl⟩
  · decide
  · decide

end Sample

end Qubox.Host
