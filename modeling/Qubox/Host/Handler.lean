import Qubox.Library.Blame
import Qubox.Host.SignalingLoop

/-!
# The handler of server messages

`handle_server_message` with all its arms, as a program over what it awaits: writes to
the signaling socket, the gates, the session registry and the peer connections of the
webrtc crate. An error of the handler ends the main loop of the host. It lets an error
of a peer connection out as well as one of the socket.
-/

namespace Qubox.Host

open Interaction Signaling

inductive ToastDecision where
  | show
  | skipAutoAck
  | block
  deriving DecidableEq

/-- How the wait of the PIN gate ends. -/
inductive BundleWait where
  | delivered (bundle : SessionBundleInfo)
  | canceled
  | timedOut
  deriving DecidableEq

/-- How the wait for the operator ends. -/
inductive OperatorWait where
  | decided (accept : Bool)
  | canceled
  | timedOut
  deriving DecidableEq

/-- A session of the registry, with the peers that its signals go between. -/
structure WebRtcSession where
  sessionId : Uuid
  selfPeerId : Uuid
  clientPeerId : Uuid
  deriving DecidableEq

inductive HandlerAction where
  /-- `send_client_message`. -/
  | write (message : ClientMessage)
  | pushPairing (request : PairingRequested)
  | pinPolicy
  /-- `register_pending_bundle`, and the wait for it. -/
  | awaitBundle (sessionId expectedClient : Uuid)
  | verifyBundleLocally (bundle : SessionBundleInfo)
  | evaluateToast (client : PeerDescriptor)
  | pingDaemon
  /-- `register_pending_decision`, the prompt, and the wait for the operator. -/
  | awaitDecision (sessionId : Uuid) (client : PeerDescriptor)
  | touchActivity (sessionId : Uuid)
  | spawn (requested : SessionRequested) (selectedDisplayId : Option UInt32)
  | takePendingBundle (bundle : SessionBundleInfo)
  | verifyKillEnvelope (envelope : SignedKillEnvelope)
  | lookup (sessionId : Uuid)
  | sleep (millis : Nat)
  | remove (sessionId : Uuid)
  | close (session : WebRtcSession)
  | dropPending (sessionId : Uuid)
  | removeActivity (sessionId : Uuid)
  /-- `RTCSessionDescription::offer`. -/
  | parseOffer (sdp : String)
  | setRemoteDescription (session : WebRtcSession) (sdp : String)
  | createAnswer (session : WebRtcSession)
  | setLocalDescription (session : WebRtcSession) (sdp : String)
  | addIceCandidate (session : WebRtcSession) (candidate : String) (sdpMid : Option String)
      (sdpMlineIndex : Option UInt16)
  deriving DecidableEq

def handlerSignature : Signature where
  Action := HandlerAction
  Answer
    | .write _ | .close _ => Except String Unit
    | .pinPolicy => PinPolicy
    | .awaitBundle _ _ => BundleWait
    | .verifyBundleLocally _ => Except BundleVerifyErrorLocal Unit
    | .evaluateToast _ => ToastDecision
    | .awaitDecision _ _ => OperatorWait
    | .verifyKillEnvelope _ => Except BundleVerifyErrorLocal SignedKill
    | .lookup _ | .remove _ => Option WebRtcSession
    | .parseOffer _ | .setRemoteDescription _ _ | .setLocalDescription _ _
    | .addIceCandidate _ _ _ _ => Except String Unit
    | .createAnswer _ => Except String String
    | _ => Unit

/-- A program that fails with the text of an error. -/
abbrev MessageHandler (α : Type) := Program handlerSignature String α

abbrev HandlerEvent := Event handlerSignature

/-- The flags of the agent that the handler looks at. -/
structure HandlerConfig where
  autoApprovePairing : Bool
  ownerAccountId : Option Uuid
  pairingUi : Bool
  ipcSocket : Bool
  webTransport : Bool
  parseUuid : String → Option Uuid

namespace MessageHandler

/-! ## The awaits -/

def perform (action : HandlerAction) : MessageHandler (handlerSignature.Answer action) :=
  .act action .done

/-- The `?` of a call, with the context that the error gets. -/
def raise {α : Type} (context : String) : Except String α → MessageHandler α
  | .ok value => .done value
  | .error e => .fail (context ++ e)

def send (message : ClientMessage) : MessageHandler Unit := do
  raise "" (← perform (.write message))

/-- A write whose error is logged or ignored. -/
def trySend (message : ClientMessage) : MessageHandler Unit := do
  let _ ← perform (.write message)

def killSession (sessionId : Uuid) : MessageHandler Unit := do
  match ← perform (.remove sessionId) with
  | some session =>
      let _ ← perform (.close session)
  | none => pure ()
  let _ ← perform (.dropPending sessionId)
  let _ ← perform (.removeActivity sessionId)
  trySend (.kickSession sessionId "host_kill")

/-! ## Requests -/

/-- The end of the arm for `SessionRequested`. -/
def startSession (config : HandlerConfig) (requested : SessionRequested)
    (selectedDisplayId : Option UInt32) : MessageHandler Unit := do
  let _ ← perform (.touchActivity requested.sessionId)
  match requested.transport with
  | .nativeQuic | .webRtc =>
      let _ ← perform (.spawn requested selectedDisplayId)
  | .webTransport =>
      if config.webTransport then
        let _ ← perform (.spawn requested selectedDisplayId)
  | .relayQuic => pure ()

/-- The operator's consent. -/
def askOperator (config : HandlerConfig) (requested : SessionRequested)
    (selectedDisplayId : Option UInt32) : MessageHandler Unit := do
  if config.ipcSocket then
    let _ ← perform .pingDaemon
  match ← perform (.awaitDecision requested.sessionId requested.client) with
  | .decided true =>
      trySend (.operatorDecision requested.sessionId true)
      startSession config requested selectedDisplayId
  | .decided false | .canceled | .timedOut =>
      trySend (.operatorDecision requested.sessionId false)
      killSession requested.sessionId

def toastGate (config : HandlerConfig) (requested : SessionRequested)
    (selectedDisplayId : Option UInt32) : MessageHandler Unit := do
  match ← perform (.evaluateToast requested.client) with
  | .block => send (.kickSession requested.sessionId "toast_rate_limited")
  | .show =>
      if config.autoApprovePairing then startSession config requested selectedDisplayId
      else askOperator config requested selectedDisplayId
  | .skipAutoAck => startSession config requested selectedDisplayId

def checkPin (config : HandlerConfig) (requested : SessionRequested) (bundle : SessionBundleInfo) :
    MessageHandler Unit := do
  match ← perform (.verifyBundleLocally bundle) with
  | .error _ => killSession requested.sessionId
  | .ok () =>
      let policy ← perform .pinPolicy
      if verifyPinProof bundle policy requested.client then
        toastGate config requested bundle.selectedDisplayId
      else killSession requested.sessionId

def sessionRequested (config : HandlerConfig) (requested : SessionRequested) :
    MessageHandler Unit := do
  let policy ← perform .pinPolicy
  if PinPolicy.requiresPin policy then
    match ← perform (.awaitBundle requested.sessionId requested.client.peerId) with
    | .delivered bundle => checkPin config requested bundle
    | .canceled => pure ()
    | .timedOut => send (.kickSession requested.sessionId "pin_timeout")
  else toastGate config requested none

/-! ## Signals -/

/-- The rounds of waiting for a session to be registered. -/
def retryLookup (sessionId : Uuid) : Nat → MessageHandler (Option WebRtcSession)
  | 0 => pure none
  | rounds + 1 => do
      let _ ← perform (.sleep 20)
      match ← perform (.lookup sessionId) with
      | some session => pure (some session)
      | none => retryLookup sessionId rounds

def findSession (sessionId : Uuid) : MessageHandler (Option WebRtcSession) := do
  match ← perform (.lookup sessionId) with
  | some session => pure (some session)
  | none => retryLookup sessionId 50

def handleOffer (session : WebRtcSession) (sdp : String) : MessageHandler String := do
  raise "invalid SDP offer from browser: " (← perform (.parseOffer sdp))
  raise "set_remote_description failed: " (← perform (.setRemoteDescription session sdp))
  let answer ← raise "create_answer failed: " (← perform (.createAnswer session))
  raise "set_local_description failed: " (← perform (.setLocalDescription session answer))
  pure answer

def addIceCandidate (session : WebRtcSession) (candidate : String) (sdpMid : Option String)
    (sdpMlineIndex : Option UInt16) : MessageHandler Unit := do
  raise "add_ice_candidate failed: "
    (← perform (.addIceCandidate session candidate sdpMid sdpMlineIndex))

def sendRelaySignal (session : WebRtcSession) (signal : SessionSignal) : MessageHandler Unit :=
  send (.relaySignal {
    sessionId := session.sessionId
    fromPeerId := session.selfPeerId
    toPeerId := session.clientPeerId
    signal })

/-- What a session does with a signal. -/
def applySignal (session : WebRtcSession) : SessionSignal → MessageHandler Unit
  | .sdpOffer sdp => do
      let answer ← handleOffer session sdp
      sendRelaySignal session (.sdpAnswer answer)
  | .iceCandidate candidate sdpMid sdpMlineIndex =>
      addIceCandidate session candidate sdpMid sdpMlineIndex
  | .sdpAnswer _ | .nativeQuicTicket _ _ | .webTransportTicket _ | .ready => pure ()

def dispatchSignal (sessionId : Uuid) (signal : SessionSignal) : MessageHandler Bool := do
  match ← findSession sessionId with
  | none => pure false
  | some session =>
      applySignal session signal
      pure true

/-! ## All arms -/

def pairingRequested (config : HandlerConfig) (request : PairingRequested) :
    MessageHandler Unit := do
  let ownerBypass : Bool := config.ownerAccountId = some request.client.deviceId
  if config.autoApprovePairing || ownerBypass then
    send (.pairingDecision { requestId := request.requestId, approved := true })
  else if config.pairingUi then
    let _ ← perform (.pushPairing request)

def signedKillReceived (config : HandlerConfig) (envelope : SignedKillEnvelope) :
    MessageHandler Unit := do
  match ← perform (.verifyKillEnvelope envelope) with
  | .ok decoded => killSession ((config.parseUuid decoded.sid).getD Uuid.nil)
  | .error _ => pure ()

/-- A server message as the host reads it. -/
inductive Incoming where
  | server (message : ServerMessage)
  | sessionActivity (sessionId : Uuid)

def handleServerMessage (config : HandlerConfig) : Incoming → MessageHandler Unit
  | .server (.pairingRequested request) => pairingRequested config request
  | .server (.sessionRequested requested) => sessionRequested config requested
  | .server (.signal signal) => do
      let _ ← dispatchSignal signal.sessionId signal.signal
  | .server (.sessionKicked sessionId _) => killSession sessionId
  | .server (.sessionBundleAccepted bundle) => do
      let _ ← perform (.takePendingBundle bundle)
  | .server (.signedKillReceived envelope) => signedKillReceived config envelope
  | .sessionActivity sessionId => do
      let _ ← perform (.touchActivity sessionId)
  -- The other messages are logged.
  | .server (.welcome _) | .server (.hosts _) | .server (.pairingEstablished _)
  | .server (.pairingRejected _ _) | .server (.sessionPlanned _) | .server (.presence _)
  | .server .heartbeatAck | .server (.error _) | .server (.shareLinkCreated _ _ _)
  | .server (.pairingRevoked _ _) | .server (.sessionConsentPending _ _ _ _ _) => pure ()

/-! ## Failures -/

/-- A write to the signaling socket that failed. -/
def WriteFailed : HandlerEvent → Prop
  | ⟨.write _, .error _⟩ => True
  | _ => False

/-- The peer connection rejected an offer or a candidate. -/
def PeerRejected : HandlerEvent → Prop
  | ⟨.parseOffer _, .error _⟩ | ⟨.setRemoteDescription _ _, .error _⟩
  | ⟨.createAnswer _, .error _⟩ | ⟨.setLocalDescription _ _, .error _⟩
  | ⟨.addIceCandidate _ _ _ _, .error _⟩ => True
  | _ => False

/-- Either of the two. -/
def Faulty (event : HandlerEvent) : Prop := PeerRejected event ∨ WriteFailed event

theorem not_writeFailed_of_peerRejected (event : HandlerEvent) (rejected : PeerRejected event) :
    ¬ WriteFailed event := by
  unfold PeerRejected at rejected
  split at rejected
  · exact id
  · exact id
  · exact id
  · exact id
  · exact id
  · cases rejected

/-- A program that no peer connection can end: only a failed write makes it fail. -/
structure Modest {α : Type} (p : MessageHandler α) : Prop where
  fails : p.FailsAfter Faulty
  spares : p.Spares PeerRejected

namespace Modest

variable {α β : Type}

theorem done (value : α) : Modest (.done value : MessageHandler α) := ⟨trivial, trivial⟩

theorem act {action : HandlerAction} {next : handlerSignature.Answer action → MessageHandler α}
    (quiet : ∀ answer, ¬ PeerRejected ⟨action, answer⟩) (rest : ∀ answer, Modest (next answer)) :
    Modest (.act action next) :=
  ⟨fun answer _ => (rest answer).fails, (Program.spares_act _ _).mpr ⟨quiet, fun answer =>
    (rest answer).spares⟩⟩

theorem bind {p : MessageHandler α} {f : α → MessageHandler β} (first : Modest p)
    (rest : ∀ a, Modest (f a)) :
    Modest (p >>= f) :=
  ⟨first.fails.bind fun a => (rest a).fails, first.spares.bind fun a => (rest a).spares⟩

theorem send (message : ClientMessage) : Modest (MessageHandler.send message) where
  fails := by
    intro answer blameless
    match answer, blameless with
    | .ok (), _ => trivial
    | .error e, blameless => exact absurd (.inr trivial) blameless
  spares := by
    refine ⟨fun _ => id, fun answer _ => ?_⟩
    match answer with
    | .ok () => trivial
    | .error e => trivial

theorem trySend (message : ClientMessage) : Modest (MessageHandler.trySend message) :=
  act (fun _ => id) fun _ => done ()

theorem killSession (sessionId : Uuid) : Modest (MessageHandler.killSession sessionId) := by
  refine act (fun _ => id) fun found => ?_
  match found with
  | none => exact act (fun _ => id) fun _ => act (fun _ => id) fun _ => trySend _
  | some session =>
      exact act (fun _ => id) fun _ => act (fun _ => id) fun _ => act (fun _ => id) fun _ => trySend _

theorem startSession (config : HandlerConfig) (requested : SessionRequested)
    (selectedDisplayId : Option UInt32) :
    Modest (MessageHandler.startSession config requested selectedDisplayId) := by
  refine act (fun _ => id) fun _ => ?_
  change Modest (match requested.transport with
    | .nativeQuic | .webRtc => Program.act (.spawn requested selectedDisplayId) fun _ => .done ()
    | .webTransport =>
        if config.webTransport then
          Program.act (.spawn requested selectedDisplayId) fun _ => .done ()
        else .done ()
    | .relayQuic => .done ())
  split
  · exact act (fun _ => id) fun _ => done ()
  · exact act (fun _ => id) fun _ => done ()
  · split
    · exact act (fun _ => id) fun _ => done ()
    · exact done ()
  · exact done ()

theorem askOperator (config : HandlerConfig) (requested : SessionRequested)
    (selectedDisplayId : Option UInt32) :
    Modest (MessageHandler.askOperator config requested selectedDisplayId) := by
  have asked : Modest (Program.act (.awaitDecision requested.sessionId requested.client)
      fun answer => match answer with
        | .decided true => do
            MessageHandler.trySend (.operatorDecision requested.sessionId true)
            MessageHandler.startSession config requested selectedDisplayId
        | .decided false | .canceled | .timedOut => do
            MessageHandler.trySend (.operatorDecision requested.sessionId false)
            MessageHandler.killSession requested.sessionId) := by
    refine act (fun _ => id) fun answer => ?_
    split
    · exact bind (trySend _) fun _ => startSession config requested selectedDisplayId
    · exact bind (trySend _) fun _ => killSession requested.sessionId
    · exact bind (trySend _) fun _ => killSession requested.sessionId
    · exact bind (trySend _) fun _ => killSession requested.sessionId
  unfold MessageHandler.askOperator
  split
  · exact act (fun _ => id) fun _ => asked
  · exact asked

theorem toastGate (config : HandlerConfig) (requested : SessionRequested)
    (selectedDisplayId : Option UInt32) :
    Modest (MessageHandler.toastGate config requested selectedDisplayId) := by
  refine act (fun _ => id) fun decision => ?_
  match decision with
  | .block => exact send _
  | .show =>
      change Modest (if config.autoApprovePairing then
        MessageHandler.startSession config requested selectedDisplayId
        else MessageHandler.askOperator config requested selectedDisplayId)
      split
      · exact startSession config requested selectedDisplayId
      · exact askOperator config requested selectedDisplayId
  | .skipAutoAck => exact startSession config requested selectedDisplayId

theorem checkPin (config : HandlerConfig) (requested : SessionRequested)
    (bundle : SessionBundleInfo) : Modest (MessageHandler.checkPin config requested bundle) := by
  refine act (fun _ => id) fun verified => ?_
  match verified with
  | .error _ => exact killSession requested.sessionId
  | .ok () =>
      refine act (fun _ => id) fun policy => ?_
      change Modest (if verifyPinProof bundle policy requested.client then
        MessageHandler.toastGate config requested bundle.selectedDisplayId
        else MessageHandler.killSession requested.sessionId)
      split
      · exact toastGate config requested bundle.selectedDisplayId
      · exact killSession requested.sessionId

theorem sessionRequested (config : HandlerConfig) (requested : SessionRequested) :
    Modest (MessageHandler.sessionRequested config requested) := by
  refine act (fun _ => id) fun policy => ?_
  have waited : Modest (Program.act (.awaitBundle requested.sessionId requested.client.peerId)
      fun answer => match answer with
        | .delivered bundle => MessageHandler.checkPin config requested bundle
        | .canceled => .done ()
        | .timedOut => MessageHandler.send (.kickSession requested.sessionId "pin_timeout")) := by
    refine act (fun _ => id) fun answer => ?_
    split
    · exact checkPin config requested _
    · exact done ()
    · exact send _
  change Modest (if PinPolicy.requiresPin policy then _
    else MessageHandler.toastGate config requested none)
  split
  · exact waited
  · exact toastGate config requested none

theorem pairingRequested (config : HandlerConfig) (request : PairingRequested) :
    Modest (MessageHandler.pairingRequested config request) := by
  unfold MessageHandler.pairingRequested
  dsimp only
  split
  · exact send _
  · split
    · exact act (fun _ => id) fun _ => done ()
    · exact done ()

theorem signedKillReceived (config : HandlerConfig) (envelope : SignedKillEnvelope) :
    Modest (MessageHandler.signedKillReceived config envelope) := by
  refine act (fun _ => id) fun verified => ?_
  match verified with
  | .ok decoded => exact killSession _
  | .error _ => exact done ()

end Modest

/-! ## The arm of signals -/

/-- A program that a peer connection can end, and nothing but that or a failed write. -/
structure Exposed {α : Type} (p : MessageHandler α) : Prop where
  fails : p.FailsAfter Faulty
  givesUp : p.GivesUpOn PeerRejected WriteFailed

namespace Exposed

variable {α β : Type}

theorem ofModest {p : MessageHandler α} (modest : Modest p) : Exposed p :=
  ⟨modest.fails, modest.spares.givesUpOn⟩

/-- The `?` behind an action whose errors are those of a peer connection. -/
theorem raise (action : HandlerAction) {context : String}
    (read : handlerSignature.Answer action → Except String α) {next : α → MessageHandler β}
    (silent : ∀ answer, ¬ WriteFailed ⟨action, answer⟩)
    (rejects : ∀ answer e, read answer = .error e → PeerRejected ⟨action, answer⟩)
    (accepts : ∀ answer value, read answer = .ok value → ¬ PeerRejected ⟨action, answer⟩)
    (rest : ∀ value, Exposed (next value)) :
    Exposed (.act action fun answer => MessageHandler.raise context (read answer) >>= next) where
  fails := by
    intro answer blameless
    change (MessageHandler.raise context (read answer) >>= next).FailsAfter Faulty
    cases outcome : read answer with
    | ok value => exact (rest value).fails
    | error e => exact absurd (.inl (rejects answer e outcome)) blameless
  givesUp := by
    intro answer
    refine ⟨fun rejected => ?_, fun failed => absurd failed (silent answer), ?_⟩
    · change ∃ e, MessageHandler.raise context (read answer) >>= next = .fail e
      cases outcome : read answer with
      | ok value => exact absurd rejected (accepts answer value outcome)
      | error e => exact ⟨context ++ e, rfl⟩
    · change (MessageHandler.raise context (read answer) >>= next).GivesUpOn PeerRejected WriteFailed
      cases outcome : read answer with
      | ok value => exact (rest value).givesUp
      | error e => trivial

theorem handleOffer (session : WebRtcSession) (sdp : String) {next : String → MessageHandler β}
    (rest : ∀ answer, Exposed (next answer)) :
    Exposed (MessageHandler.handleOffer session sdp >>= next) := by
  simp only [MessageHandler.handleOffer, perform, Program.bind_assoc]
  refine raise (.parseOffer sdp) (fun outcome => outcome) ?_ ?_ ?_ fun _ => ?_
  · exact fun _ => id
  · rintro _ e rfl
    trivial
  · rintro _ value rfl
    exact id
  refine raise (.setRemoteDescription session sdp) (fun outcome => outcome) ?_ ?_ ?_ fun _ => ?_
  · exact fun _ => id
  · rintro _ e rfl
    trivial
  · rintro _ value rfl
    exact id
  refine raise (.createAnswer session) (fun outcome => outcome) ?_ ?_ ?_ fun answer => ?_
  · exact fun _ => id
  · rintro _ e rfl
    trivial
  · rintro _ value rfl
    exact id
  refine raise (.setLocalDescription session answer) (fun outcome => outcome) ?_ ?_ ?_
    fun _ => rest answer
  · exact fun _ => id
  · rintro _ e rfl
    trivial
  · rintro _ value rfl
    exact id

theorem addIceCandidate (session : WebRtcSession) (candidate : String) (sdpMid : Option String)
    (sdpMlineIndex : Option UInt16) {next : Unit → MessageHandler β}
    (rest : ∀ u, Exposed (next u)) :
    Exposed (MessageHandler.addIceCandidate session candidate sdpMid sdpMlineIndex >>= next) := by
  refine raise (.addIceCandidate session candidate sdpMid sdpMlineIndex) (fun outcome => outcome)
    ?_ ?_ ?_ rest
  · exact fun _ => id
  · rintro _ e rfl
    trivial
  · rintro _ value rfl
    exact id

theorem applySignal (session : WebRtcSession) (signal : SessionSignal) :
    Exposed (MessageHandler.applySignal session signal >>= fun _ => pure true) := by
  match signal with
  | .sdpOffer sdp =>
      change Exposed ((MessageHandler.handleOffer session sdp >>= fun answer =>
        sendRelaySignal session (.sdpAnswer answer)) >>= fun _ => pure true)
      rw [Program.bind_assoc]
      exact handleOffer session sdp fun answer => ofModest (.bind (.send _) fun _ => .done true)
  | .iceCandidate candidate sdpMid sdpMlineIndex =>
      exact addIceCandidate session candidate sdpMid sdpMlineIndex fun _ => ofModest (.done true)
  | .sdpAnswer _ | .nativeQuicTicket _ _ | .webTransportTicket _ | .ready =>
      exact ofModest (.done true)

/-- A program in which nothing can go wrong. -/
structure Calm (p : MessageHandler α) : Prop where
  fails : p.FailsAfter Faulty
  spares : p.Spares Faulty

theorem Calm.act {action : HandlerAction} {next : handlerSignature.Answer action → MessageHandler α}
    (rejects : ∀ answer, ¬ PeerRejected ⟨action, answer⟩)
    (silent : ∀ answer, ¬ WriteFailed ⟨action, answer⟩) (rest : ∀ answer, Calm (next answer)) :
    Calm (.act action next) where
  fails answer _ := (rest answer).fails
  spares := (Program.spares_act _ _).mpr
    ⟨fun answer faulty => faulty.elim (rejects answer) (silent answer), fun answer =>
      (rest answer).spares⟩

theorem calm_retryLookup (sessionId : Uuid) (rounds : Nat) : Calm (retryLookup sessionId rounds) := by
  induction rounds with
  | zero => exact ⟨trivial, trivial⟩
  | succ rounds ih =>
      refine .act (fun _ => id) (fun _ => id) fun _ => .act (fun _ => id) (fun _ => id) fun found => ?_
      match found with
      | some session => exact ⟨trivial, trivial⟩
      | none => exact ih

theorem calm_findSession (sessionId : Uuid) : Calm (findSession sessionId) := by
  refine .act (fun _ => id) (fun _ => id) fun found => ?_
  match found with
  | some session => exact ⟨trivial, trivial⟩
  | none => exact calm_retryLookup sessionId 50

theorem bind_calm {p : MessageHandler α} {f : α → MessageHandler β} (first : Calm p)
    (rest : ∀ a, Exposed (f a)) :
    Exposed (p >>= f) :=
  ⟨first.fails.bind fun a => (rest a).fails, first.spares.bind_givesUpOn fun a => (rest a).givesUp⟩

theorem dispatchSignal (sessionId : Uuid) (signal : SessionSignal) :
    Exposed (MessageHandler.dispatchSignal sessionId signal) := by
  refine bind_calm (calm_findSession sessionId) fun found => ?_
  match found with
  | none => exact ofModest (.done false)
  | some session => exact applySignal session signal

theorem bind_done {p : MessageHandler α} {f : α → MessageHandler β} (first : Exposed p)
    (quiet : ∀ a, ∃ b, f a = .done b) : Exposed (p >>= f) where
  fails := by
    apply first.fails.bind
    intro a
    obtain ⟨b, same⟩ := quiet a
    rw [same]
    trivial
  givesUp := by
    have spared : ∀ a, (f a).Spares PeerRejected := by
      intro a
      obtain ⟨b, same⟩ := quiet a
      rw [same]
      trivial
    exact first.givesUp.bind_spares spared

end Exposed

/-- Every arm is modest, except the one for signals. -/
theorem exposed_handleServerMessage (config : HandlerConfig) (message : Incoming) :
    Exposed (handleServerMessage config message) := by
  unfold handleServerMessage
  split
  · exact .ofModest (.pairingRequested config _)
  · exact .ofModest (.sessionRequested config _)
  · exact .bind_done (.dispatchSignal _ _) fun _ => ⟨(), rfl⟩
  · exact .ofModest (.killSession _)
  · exact .ofModest (.act (fun _ => id) fun _ => .done ())
  · exact .ofModest (.signedKillReceived config _)
  · exact .ofModest (.act (fun _ => id) fun _ => .done ())
  all_goals exact .ofModest (.done ())

/-! ## The main loop -/

/-- One call of the handler, with all that came back from what it awaited. -/
structure Call where
  message : Incoming
  events : List HandlerEvent
  result : Except String Unit

/-- The calls are those of the main loop, in order: one that fails is the last. -/
structure Served (config : HandlerConfig) (calls : List Call) : Prop where
  runs : ∀ call ∈ calls, (handleServerMessage config call.message).Runs call.events call.result
  goes : ∀ call ∈ calls.dropLast, call.result = .ok ()

/-- The call ends the main loop only if a write to the signaling socket failed in it. -/
def Call.StopsOnlyOnWrite (call : Call) : Prop :=
  (∃ e, call.result = .error e) → ∃ event ∈ call.events, WriteFailed event

/-- In the whole run the host stops for failed writes only, exactly if no peer connection rejects
an offer or a candidate that a signal brings. -/
theorem stopsOnlyOnWrites_iff {config : HandlerConfig} {calls : List Call}
    (served : Served config calls) :
    (∀ call ∈ calls, call.StopsOnlyOnWrite) ↔
      ∀ call ∈ calls, ∀ event ∈ call.events, ¬ PeerRejected event := by
  apply forall₂_congr
  intro call member
  have exposed := exposed_handleServerMessage config call.message
  exact (served.runs call member).due_to_fault_iff not_writeFailed_of_peerRejected exposed.fails
    exposed.givesUp

namespace Sample

def config : HandlerConfig where
  autoApprovePairing := false
  ownerAccountId := none
  pairingUi := true
  ipcSocket := false
  webTransport := false
  parseUuid := fun _ => none

def session : WebRtcSession := ⟨5, 1, 2⟩

/-- A candidate from the client of a registered session, and what the peer connection says. -/
def candidate (answer : Except String Unit) : Call where
  message := .server (.signal ⟨5, 2, 1, .iceCandidate "candidate:x" none none⟩)
  events := [⟨.lookup 5, some session⟩, ⟨.addIceCandidate session "candidate:x" none none, answer⟩]
  result := match answer with
    | .ok () => .ok ()
    | .error e => .error ("add_ice_candidate failed: " ++ e)

theorem served_candidate (answer : Except String Unit) : Served config [candidate answer] where
  runs := by
    intro call member
    rw [List.mem_singleton.mp member]
    match answer with
    | .ok () => exact .act (.act (.done ()))
    | .error e => exact .act (.act (.fail _))
  goes := by
    intro call member
    cases member

theorem accepted_stopsOnlyOnWrites :
    Served config [candidate (.ok ())] ∧
      ∀ call ∈ [candidate (.ok ())], call.StopsOnlyOnWrite :=
  ⟨served_candidate _, (stopsOnlyOnWrites_iff (served_candidate (.ok ()))).mpr (by
    intro call member event there
    rw [List.mem_singleton.mp member] at there
    obtain rfl | there := List.mem_cons.mp there
    · exact id
    · rw [List.mem_singleton.mp there]
      exact id)⟩

/-- One candidate that does not parse stops the host. -/
theorem rejected_not_stopsOnlyOnWrite :
    ¬ ∀ config calls, Served config calls → ∀ call ∈ calls, call.StopsOnlyOnWrite := by
  intro all
  obtain ⟨event, member, failed⟩ := all config [candidate (.error "parse error")]
    (served_candidate _) _ List.mem_cons_self ⟨_, rfl⟩
  obtain rfl | member := List.mem_cons.mp member
  · exact failed
  · rw [List.mem_singleton.mp member] at failed
    exact failed

end Sample

end MessageHandler

end Qubox.Host
