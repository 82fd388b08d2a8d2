import Qubox.Signaling.Operations

/-!
# The websocket handler

`handle_socket` as a program for one frame at a time. Handling a frame ends in
a `Flow`: the loop goes on, is left by `break` (and by the end of the stream),
or the whole function is left by `return`. Only after a `break` does the
handler reach `disconnect`, the block behind the loop.

The reply channel of the socket is its `ConnId`. The writer task and the
logging do not act on the tables and are left out.
-/

namespace Qubox.Signaling

open Interaction

/-- What `reader.next()` yields while the stream lasts. -/
inductive Frame where
  | readError
  | text (payload : String)
  | binary
  | ping
  | pong
  | close
  deriving DecidableEq

/-- How handling a frame ends; `continue` carries `registered_peer`. -/
inductive Flow where
  | next (registered : Option PeerDescriptor)
  | leave
  | exit
  deriving DecidableEq

variable (cfg : Config) (conn : ConnId)

def replyError (code message : String) : Proc Unit :=
  perform (.reply conn (.error ⟨code, message⟩))

def sendError (peer : PeerDescriptor) (code message : String) : Proc Unit :=
  ignore (sendTo cfg peer.peerId (.error ⟨code, message⟩))

/-! ## Handshake -/

def welcomeText (tenantId : Uuid) : String :=
  if tenantId.isNil then "signaling connected"
  else "signaling connected (tenant " ++ tenantId.toText ++ ")"

/-- The common end of both handshakes: register, welcome, announce. -/
def acceptPeer (descriptor : PeerDescriptor) (publicKey : Option PublicKey)
    (tenantId accountId : Uuid) (welcome : String) : Proc Flow := do
  match ← (register cfg descriptor publicKey tenantId accountId conn).attempt with
  | .ok () =>
    perform (.reply conn (.welcome ⟨descriptor.peerId, welcome⟩))
    broadcastPresence cfg descriptor tenantId true
    return .next (some descriptor)
  | .error (error : Failure) =>
    replyError conn "registration_failed" error.text
    return .leave

def hello (descriptor : PeerDescriptor) : Proc Flow := do
  if !cfg.allowUnsignedHello then
    replyError conn "signed_hello_required"
      "server requires a SignedHello handshake (set QUBOX_REQUIRE_SIGNED_HELLO=0 to allow legacy peers)"
    return .leave
  else if cfg.enrollment = .managed then
    replyError conn "enrollment_required"
      "managed signaling requires SignedHello from an enrolled device"
    return .leave
  else
    acceptPeer cfg conn descriptor none Uuid.nil Uuid.nil "signaling connected (unsigned)"

/-- A client without an enrollment row is admitted under the nil tenant. -/
def signedHello (hello : SignedHello) : Proc Flow := do
  let descriptor := hello.descriptor
  if !cfg.verifyHello hello then
    replyError conn "signed_hello_invalid"
      "SignedHello signature did not verify against the embedded public key"
    return .leave
  else
    match ← (resolveEnrollmentFull cfg descriptor.deviceId hello.publicKey).attempt with
    | .ok (tenantId, accountId) =>
      acceptPeer cfg conn descriptor (some hello.publicKey) tenantId accountId
        (welcomeText tenantId)
    | .error (error : Failure) =>
      if descriptor.role = .client then
        acceptPeer cfg conn descriptor (some hello.publicKey) Uuid.nil Uuid.nil
          (welcomeText Uuid.nil)
      else
        replyError conn "not_enrolled" error.text
        return .leave

/-! ## Messages of a registered peer -/

def onListHosts (peer : PeerDescriptor) : Proc Unit := do
  let tenant := (← peerTenant peer.peerId).getD Uuid.nil
  let hosts ← listHosts cfg tenant
  perform (.reply conn (.hosts hosts))

def onRequestPairing (peer : PeerDescriptor) (request : PairingRequest) : Proc Unit := do
  match ← (requestPairing cfg peer request).attempt with
  | .ok () => return ()
  | .error (error : Failure) => replyError conn "pairing_failed" error.text

def onPairingDecision (peer : PeerDescriptor) (decision : PairingDecision) : Proc Unit := do
  match ← (decidePairing cfg peer decision).attempt with
  | .ok (some grant) => perform (.reply conn (.pairingEstablished grant))
  | .ok none => return ()
  | .error (error : Failure) => replyError conn "pairing_decision_failed" error.text

def onHeartbeat (peer : PeerDescriptor) : Proc Unit := do
  handleHeartbeat cfg peer.peerId
  perform (.reply conn .heartbeatAck)

def onStartSession (peer : PeerDescriptor) (request : StartSessionRequest) : Proc Unit := do
  match ← (startSession cfg peer request).attempt with
  | .ok plan => perform (.reply conn (.sessionPlanned plan))
  | .error (error : Failure) => replyError conn "session_rejected" error.text

/-- The checks of the bundle arm: the viewer bundle, then the allowlist if there
is one. The error carries the code under which it is reported. -/
def verifySessionBundle (request : StartSessionBundleRequest) (now : Nat) :
    Program signature (String × BundleVerifyError) ViewerToHost := do
  match ← (verifyViewerToHost cfg request.viewerBundle request.request.targetHostId
      now).attempt with
  | .error (error : BundleVerifyError) => .fail ("bundle_rejected", error)
  | .ok viewer =>
    match request.iceAllowlist with
    | none => return viewer
    | some allowlist =>
      match ← (verifyIceAllowlist cfg allowlist now).attempt with
      | .error (error : BundleVerifyError) => .fail ("ice_allowlist_rejected", error)
      | .ok _ => return viewer

def onBundleAccepted (peer : PeerDescriptor) (request : StartSessionRequest)
    (viewer : ViewerToHost) : Proc Unit := do
  let info : SessionBundleInfo := ⟨request.sessionId, viewer.jti, viewer.viewerDtlsFp,
    asU64 viewer.exp, viewer.caps, viewer.sub, none, viewer.selectedDisplayId⟩
  match ← (startSession cfg peer request).attempt with
  | .ok plan =>
    perform (.reply conn (.sessionBundleAccepted info))
    match ← findHostPeerForDevice request.targetHostId with
    | some hostPeerId => ignore (sendTo cfg hostPeerId (.sessionBundleAccepted info))
    | none => pure ()
    perform (.reply conn (.sessionPlanned plan))
  | .error (error : Failure) => replyError conn "session_rejected" error.text

/-- The bundle arm. A rejected bundle or allowlist leaves the handler by
`return`, not by `break`. -/
def onStartSessionWithBundle (peer : PeerDescriptor) (request : StartSessionBundleRequest) :
    Proc Flow := do
  let now ← perform .now
  match ← (verifySessionBundle cfg request now).attempt with
  | .ok viewer =>
    onBundleAccepted cfg conn peer request.request viewer
    return .next (some peer)
  | .error ((code, error) : String × BundleVerifyError) =>
    replyError conn code error.text
    return .exit

def onRelaySignal (peer : PeerDescriptor) (signal : RelaySignal) : Proc Unit := do
  match ← (relaySignal cfg peer signal).attempt with
  | .ok () => return ()
  | .error (error : Failure) => replyError conn "relay_failed" error.text

def onRevokePairing (peer : PeerDescriptor) (hostPeerId clientPeerId : Uuid) : Proc Unit := do
  match ← (revokePairing cfg peer hostPeerId clientPeerId).attempt with
  | .ok () => return ()
  | .error (error : Failure) => sendError cfg peer "revoke_failed" error.text

def onKickSession (peer : PeerDescriptor) (sessionId : Uuid) (reason : String) : Proc Unit := do
  match ← (kickSession cfg peer sessionId reason).attempt with
  | .ok () => return ()
  | .error (error : Failure) => sendError cfg peer "kick_failed" error.text

/-- Show a verified kill to the host it is for, if that host is connected. -/
def echoKill (envelope : SignedBundle) (kill : SignedKill) : Proc Unit := do
  match cfg.parseUuid kill.aud with
  | none => return ()
  | some hostDeviceId =>
    match ← findHostPeerForDevice hostDeviceId with
    | none => return ()
    | some hostPeerId => ignore (sendTo cfg hostPeerId (.signedKillReceived ⟨kill, envelope⟩))

def onSignedKill (peer : PeerDescriptor) (envelope : SignedBundle) : Proc Unit := do
  let now ← perform .now
  match ← (applySignedKill cfg envelope now).attempt with
  | .ok kill =>
    echoKill cfg envelope kill
    sendError cfg peer "kill_applied" ("session " ++ kill.sid ++ " killed")
  | .error (error : BundleVerifyError) => sendError cfg peer "kill_rejected" error.text

def onCreateShareLink (peer : PeerDescriptor) (ttlSecs : Nat) (permissions : SessionPermissions) :
    Proc Unit := do
  match ← (createShareLink peer ttlSecs permissions).attempt with
  | .ok (code, expires, hint) =>
    ignore (sendTo cfg peer.peerId (.shareLinkCreated code expires hint))
  | .error (error : Failure) => sendError cfg peer "share_link_failed" error.text

def onRedeemShareLink (peer : PeerDescriptor) (code clientLabel : String) : Proc Unit := do
  match ← (redeemShareLink cfg peer code clientLabel).attempt with
  | .ok () => return ()
  | .error (error : Failure) => sendError cfg peer "redeem_failed" error.text

/-- Run an arm and stay in the loop. -/
def stay (peer : PeerDescriptor) (arm : Proc Unit) : Proc Flow := do
  arm
  return .next (some peer)

/-! ## One frame -/

def handleMessage : Option PeerDescriptor → ClientMessage → Proc Flow
  | none, .hello descriptor => hello cfg conn descriptor
  | none, .signedHello signed => signedHello cfg conn signed
  | none, _ => do
    replyError conn "handshake_required" "the first message must be hello or signed_hello"
    return .leave
  | some peer, .hello _ | some peer, .signedHello _ =>
    stay peer (replyError conn "duplicate_hello" "peer is already registered")
  | some peer, .listHosts => stay peer (onListHosts cfg conn peer)
  | some peer, .requestPairing request => stay peer (onRequestPairing cfg conn peer request)
  | some peer, .pairingDecision decision => stay peer (onPairingDecision cfg conn peer decision)
  | some peer, .heartbeat => stay peer (onHeartbeat cfg conn peer)
  | some peer, .startSession request => stay peer (onStartSession cfg conn peer request)
  | some peer, .startSessionWithBundle request => onStartSessionWithBundle cfg conn peer request
  | some peer, .relaySignal signal => stay peer (onRelaySignal cfg conn peer signal)
  | some peer, .revokePairing h c => stay peer (onRevokePairing cfg peer h c)
  | some peer, .kickSession sessionId reason => stay peer (onKickSession cfg peer sessionId reason)
  | some peer, .signedKill envelope => stay peer (onSignedKill cfg peer envelope)
  | some peer, .createShareLink ttl permissions =>
    stay peer (onCreateShareLink cfg peer ttl permissions)
  | some peer, .redeemShareLink code label => stay peer (onRedeemShareLink cfg peer code label)
  | some peer, .operatorDecision _ _ => return .next (some peer)

def handleFrame (registered : Option PeerDescriptor) : Frame → Proc Flow
  | .readError => return .leave
  | .close => return .leave
  | .ping => return .next registered
  | .pong => return .next registered
  | .binary => do
    replyError conn "unsupported_frame" "binary websocket frames are not supported"
    return .next registered
  | .text payload =>
    match cfg.decodeMessage payload with
    | .ok message => handleMessage cfg conn registered message
    | .error error => do
      replyError conn "invalid_message" ("failed to decode client message: " ++ error)
      return .next registered

/-- The block behind the loop, for a socket that had registered `peer`. -/
def disconnect (peer : PeerDescriptor) : Proc Unit := do
  let tenant := (← peerTenant peer.peerId).getD Uuid.nil
  let _ ← unregister cfg peer.peerId
  removeSessionsFor peer.peerId
  broadcastPresence cfg peer tenant false

end Qubox.Signaling
