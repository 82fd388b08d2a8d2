import Qubox.Library.Table
import Qubox.Host.Enforcement

/-!
# The signaling loop of the host

One task takes frames off the socket, and handles each to its end before it takes the
next. The PIN gate is part of the handler of a request: it registers the sending half of
a channel, and waits for what the handler of a later frame would send into it. The idle
watchdog is another task, which drops the sending half when it kills the session.

One clock serves for instants and for Unix time, and messages are sent without errors.
Of the gates behind the PIN gate only the outcome is kept.
-/

namespace Qubox.Host

open Signaling

/-! ## The PIN policy -/

structure StoredPin where
  algo : String
  saltHex : String
  hashHex : String
  deriving DecidableEq

inductive PinMode where
  | off
  | on
  | required
  deriving DecidableEq

structure PinPolicy where
  mode : PinMode := .off
  hash : Option StoredPin := none
  deriving DecidableEq

def PinPolicy.requiresPin (policy : PinPolicy) : Bool :=
  match policy.mode with
  | .off => false
  | .on => policy.hash.isSome
  | .required => true

/-- The client is not looked at. -/
def verifyPinProof (bundle : SessionBundleInfo) (policy : PinPolicy) (_client : PeerDescriptor) : Bool :=
  match bundle.pinProof with
  | none => false
  | some proof => proof.pinHashMatch && policy.requiresPin

def pinBundleTimeoutMs : Nat := 30 * 1000

/-! ## Frames -/

inductive SocketFrame where
  | text (message : ServerMessage)
  /-- The text of a `SessionActivity`. -/
  | sessionActivity (sessionId : Uuid)
  /-- A text that is no message. -/
  | malformed
  | other
  | close
  | failed
  deriving DecidableEq

structure Arrival where
  frame : SocketFrame
  millis : Nat
  deriving DecidableEq

/-! ## The state -/

structure PendingBundle where
  expectedClient : Uuid
  received : Bool := false
  /-- The number of the channel. -/
  deliver : Nat
  deriving DecidableEq

/-- A gate that waits. Its channel has the number of the request among the frames. -/
structure Gate where
  number : Nat
  requested : SessionRequested
  arrived : Nat
  deadline : Nat
  deriving DecidableEq

/-- The await that the loop is at. -/
inductive Handling where
  | idle
  | gating (gate : Gate)
  /-- The gates behind the PIN gate. -/
  | deciding (requested : SessionRequested) (selectedDisplayId : Option UInt32)
  | verifying (envelope : SignedKillEnvelope) (nowMs : Nat)
  | killing (sessionId : Uuid)
  | busy
  | stopped
  deriving DecidableEq

structure HostConfig where
  crypto : Crypto
  jwks : Bool
  hostDeviceId : String
  idleTimeoutMs : Nat
  parseUuid : String → Option Uuid

structure SignalingLoop where
  clock : Nat
  policy : PinPolicy
  /-- All frames that have reached the socket, of which the first ones are taken. -/
  received : List Arrival := []
  taken : Nat := 0
  handling : Handling := .idle
  pendingBundles : AList (fun _ : Uuid => PendingBundle) := ∅
  /-- What has been sent into the channels. -/
  delivered : AList (fun _ : Nat => SessionBundleInfo) := ∅
  activity : AList (fun _ : Uuid => Nat) := ∅
  /-- The sessions that the watchdog is about to kill. -/
  stale : List Uuid := []
  jtiCache : JtiCache := .new
  sent : List ClientMessage := []

inductive Decision where
  | rateLimited
  | denied
  | admitted
  deriving DecidableEq

inductive LoopStep where
  | heartbeats
  | arrives (frame : SocketFrame)
  | elapses (millis : Nat)
  | replaces (policy : PinPolicy)
  | takes
  /-- The wait of the PIN gate is over. -/
  | resumes
  | decides (decision : Decision)
  | verifies (lookups : Lookups)
  | kills
  | returns (failed : Bool)
  | collects
  | killsStale (sessionId : Uuid)
  /-- A WebRTC session is over. -/
  | ends (sessionId : Uuid)

namespace SignalingLoop

variable (config : HostConfig) (loop : SignalingLoop)

/-! ## The enforcement state -/

def registerPendingBundle (sessionId : Uuid) (pending : PendingBundle) : SignalingLoop :=
  { loop with pendingBundles := loop.pendingBundles.insert sessionId pending }

/-- `take_pending_bundle`, and the send into the channel. -/
def deliver (bundle : SessionBundleInfo) : SignalingLoop :=
  match loop.pendingBundles.lookup bundle.sessionId with
  | none => loop
  | some pending =>
      { loop with
        pendingBundles := loop.pendingBundles.erase bundle.sessionId
        delivered := loop.delivered.insert pending.deliver bundle }

def dropPending (sessionId : Uuid) : SignalingLoop :=
  { loop with pendingBundles := loop.pendingBundles.erase sessionId }

def touchActivity (sessionId : Uuid) : SignalingLoop :=
  { loop with activity := loop.activity.insert sessionId loop.clock }

def removeActivity (sessionId : Uuid) : SignalingLoop :=
  { loop with activity := loop.activity.erase sessionId }

def collectStaleSessions : List Uuid :=
  loop.activity.keys.filter fun sessionId =>
    (loop.activity.lookup sessionId).any fun last => config.idleTimeoutMs ≤ loop.clock - last

def send (message : ClientMessage) : SignalingLoop :=
  { loop with sent := loop.sent ++ [message] }

def kick (sessionId : Uuid) (reason : String) : SignalingLoop :=
  loop.send (.kickSession sessionId reason)

def killSession (sessionId : Uuid) : SignalingLoop :=
  ((loop.dropPending sessionId).removeActivity sessionId).kick sessionId "host_kill"

def await (handling : Handling) : SignalingLoop := { loop with handling }

/-! ## The handlers -/

/-- The handler of a request up to its first await. -/
def request (number arrived : Nat) (requested : SessionRequested) : SignalingLoop :=
  if loop.policy.requiresPin then
    (loop.registerPendingBundle requested.sessionId
      { expectedClient := requested.client.peerId, deliver := number }).await
        (.gating { number, requested, arrived, deadline := loop.clock + pinBundleTimeoutMs })
  else loop.await (.deciding requested none)

def handleServerMessage (number arrived : Nat) : ServerMessage → SignalingLoop
  | .sessionRequested requested => loop.request number arrived requested
  | .sessionKicked sessionId _ => loop.await (.killing sessionId)
  | .sessionBundleAccepted bundle => loop.deliver bundle
  | .signedKillReceived envelope => loop.await (.verifying envelope loop.clock)
  | .pairingRequested _ | .signal _ => loop.await .busy
  | _ => loop

def handleFrame (number : Nat) (arrival : Arrival) : SignalingLoop :=
  match arrival.frame with
  | .text message => loop.handleServerMessage number arrival.millis message
  | .sessionActivity sessionId => loop.touchActivity sessionId
  | .other => loop
  | .malformed | .close | .failed => loop.await .stopped

/-- The sending half of the channel is registered. -/
def keepsSender (gate : Gate) : Bool :=
  (loop.pendingBundles.lookup gate.requested.sessionId).any (·.deliver = gate.number)

/-- The PIN gate with a bundle and what `verify_bundle_locally` says of it. -/
def checked (gate : Gate) (bundle : SessionBundleInfo) :
    Except BundleVerifyErrorLocal Unit × JtiCache → SignalingLoop
  | (.error _, jtiCache) => { loop with jtiCache }.await (.killing gate.requested.sessionId)
  | (.ok (), jtiCache) =>
      if verifyPinProof bundle loop.policy gate.requested.client then
        { loop with jtiCache }.await (.deciding gate.requested bundle.selectedDisplayId)
      else { loop with jtiCache }.await (.killing gate.requested.sessionId)

def check (gate : Gate) (bundle : SessionBundleInfo) : SignalingLoop :=
  loop.checked gate bundle
    (verifyBundleLocally loop.jtiCache bundle config.hostDeviceId loop.clock)

/-- The PIN gate without one. -/
def expire (gate : Gate) : Option SignalingLoop :=
  if loop.keepsSender gate then
    if gate.deadline ≤ loop.clock then
      some ((loop.kick gate.requested.sessionId "pin_timeout").await .idle)
    else none
  else some (loop.await .idle)

def resume (gate : Gate) : Option SignalingLoop :=
  match loop.delivered.lookup gate.number with
  | some bundle => some (loop.check config gate bundle)
  | none => loop.expire gate

def settle (requested : SessionRequested) : Decision → SignalingLoop
  | .rateLimited => (loop.kick requested.sessionId "toast_rate_limited").await .idle
  | .denied =>
      (loop.send (.operatorDecision requested.sessionId false)).await (.killing requested.sessionId)
  | .admitted => (loop.touchActivity requested.sessionId).await .idle

/-- The handler of a kill with what `verify_kill_envelope_local` says of it. -/
def verified : Except BundleVerifyErrorLocal SignedKill × JtiCache → SignalingLoop
  | (.ok decoded, jtiCache) =>
      { loop with jtiCache }.await (.killing ((config.parseUuid decoded.sid).getD Uuid.nil))
  | (.error _, jtiCache) => { loop with jtiCache }.await .idle

def verify (envelope : SignedKillEnvelope) (nowMs : Nat) (lookups : Lookups) : SignalingLoop :=
  loop.verified config
    (verifyKillEnvelopeLocal config.crypto lookups config.jwks loop.jtiCache envelope nowMs)

/-! ## Runs -/

/-- The next frame that the loop would take. -/
def next? : Option Arrival := loop.received[loop.taken]?

def step : LoopStep → Option SignalingLoop
  | .heartbeats =>
      match loop.handling with
      | .idle => some (loop.send .heartbeat)
      | _ => none
  | .arrives frame => some { loop with received := loop.received ++ [⟨frame, loop.clock⟩] }
  | .elapses millis => some { loop with clock := loop.clock + millis }
  | .replaces policy => some { loop with policy }
  | .takes =>
      match loop.handling, loop.next? with
      | .idle, some arrival =>
          some ({ loop with taken := loop.taken + 1 }.handleFrame loop.taken arrival)
      | _, _ => none
  | .resumes =>
      match loop.handling with
      | .gating gate => loop.resume config gate
      | _ => none
  | .decides decision =>
      match loop.handling with
      | .deciding requested _ => some (loop.settle requested decision)
      | _ => none
  | .verifies lookups =>
      match loop.handling with
      | .verifying envelope nowMs => some (loop.verify config envelope nowMs lookups)
      | _ => none
  | .kills =>
      match loop.handling with
      | .killing sessionId => some ((loop.killSession sessionId).await .idle)
      | _ => none
  | .returns failed =>
      match loop.handling with
      | .busy => some (loop.await (if failed then .stopped else .idle))
      | _ => none
  | .collects =>
      if loop.stale = [] ∧ config.idleTimeoutMs ≠ 0 then
        some { loop with stale := loop.collectStaleSessions config }
      else none
  | .killsStale sessionId =>
      match loop.stale with
      | first :: stale =>
          if first = sessionId then some ({ loop with stale }.killSession sessionId) else none
      | [] => none
  | .ends sessionId => some (loop.removeActivity sessionId)

def run (loop : SignalingLoop) : List LoopStep → Option SignalingLoop
  | [] => some loop
  | step :: steps => (loop.step config step).bind fun loop => loop.run steps

end SignalingLoop

end Qubox.Host
