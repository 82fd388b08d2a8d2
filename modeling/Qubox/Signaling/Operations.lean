import Qubox.Signaling.Action

/-!
# Operations of the signaling server

The methods of `SignalingState` and `ClusterBus` as programs over the atomic
actions, in the order of the source and with its error texts. A `?` of the
source is a bind, `bail!` is `fail`, and a discarded `Result` is `attempt`.

The configuration holds what a running server never changes, together with the
functions of other crates: HMAC, Ed25519 verification, payload decoding and the
parsing of UUIDs. They are parameters of the model.
-/

namespace Qubox.Signaling

open Interaction

inductive SignedBundleError where
  | malformedEnvelope
  | badBase64
  | badSignatureLength
  | signatureMismatch
  | badPayload (error : String)
  deriving DecidableEq

def SignedBundleError.text : SignedBundleError → String
  | .malformedEnvelope => "envelope missing '.' separator"
  | .badBase64 => "envelope base64url decode failed"
  | .badSignatureLength => "Ed25519 signature is not 64 bytes"
  | .signatureMismatch => "signature did not verify"
  | .badPayload error => "payload deserialize failed: " ++ error

def JwksError.text : JwksError → String
  | .unknownKid kid => "JWKS does not contain kid " ++ kid
  | .unreachable error => "JWKS endpoint unreachable: " ++ error
  | .unreachableAndStale error =>
      "JWKS endpoint unreachable and cache past max-stale (fail-closed): " ++ error
  | .badKey error => "JWK public key invalid: " ++ error
  | .signatureMismatch error => "signature mismatch: " ++ error

inductive BundleVerifyError where
  | jwksNotConfigured
  | jwks (error : JwksError)
  | badKey (error : String)
  | decode (error : SignedBundleError)
  | audienceMismatch (expected actual : String)
  | expired (expUnixMs nowUnixMs : Nat)
  | jti (error : JtiError)
  | malformedSid (sid : String)
  deriving DecidableEq

def BundleVerifyError.text : BundleVerifyError → String
  | .jwksNotConfigured => "signaling instance has no JWKS client configured"
  | .jwks error => "JWKS verification failed: " ++ error.text
  | .badKey error => "JWK key invalid: " ++ error
  | .decode error => "bundle decode failed: " ++ error.text
  | .audienceMismatch expected actual =>
      "bundle aud " ++ actual ++ " did not match target host " ++ expected
  | .expired exp now => "bundle expired at " ++ toString exp ++ ", now " ++ toString now
  | .jti error => error.text
  | .malformedSid sid => "sid " ++ sid.quote ++ " is not a valid UUID"

/-- The errors of the `anyhow` operations; `text` prints them as the source does. -/
inductive Failure where
  | alreadyConnected (peerId : Uuid)
  | enrollmentLookup (error : String)
  | notEnrolled (deviceId : Uuid)
  | deviceRevoked (deviceId : Uuid)
  | notWritable (peerId : Uuid)
  | unknownPeer (peerId : Uuid)
  | notInRegistry (peerId : Uuid)
  | clientNotConnected (peerId : Uuid)
  | targetNotHost (peerId : Uuid)
  | otherTenant
  | hostNotConnected (peerId : Uuid)
  | pairingUnknown (requestId : Uuid)
  | onlyHostsApprove
  | pairingOfAnotherHost (requestId : Uuid)
  | pairingDenied (reason : String)
  | authorizeFailed (error : String)
  | persistFailed (error : String)
  | needsConsent (consentId : Uuid)
  | sessionDenied (reason : String)
  | notPaired (clientPeerId hostPeerId : Uuid)
  | noSharedTransport
  | noSharedCodec
  | hostUnsigned (peerId : Uuid)
  | clientUnsigned (peerId : Uuid)
  | revokeNotAllowed (hostPeerId : Uuid)
  | noPairing (hostPeerId clientPeerId : Uuid)
  | sessionNotFound (sessionId : Uuid)
  | kickNotParticipant (sessionId : Uuid)
  | shareLinkNotAllowed
  | shareCodeUnknown
  | shareCodeExpired
  | signalSource
  | sessionNotActive (sessionId : Uuid)
  | sessionExpired (sessionId : Uuid)
  | notParticipant (peerId sessionId : Uuid)
  | relayNotPaired (peerId targetPeerId : Uuid)
  | redis (error : String)
  deriving DecidableEq

def Failure.text : Failure → String
  | .alreadyConnected p => "peer " ++ p.toText ++ " is already connected"
  | .enrollmentLookup e => "enrollment lookup failed: " ++ e
  | .notEnrolled d => "device " ++ d.toText ++ " is not enrolled for this cloud tenant"
  | .deviceRevoked d => "device " ++ d.toText ++ " has been revoked"
  | .notWritable p => "peer " ++ p.toText ++ " is no longer writable"
  | .unknownPeer p => "unknown peer " ++ p.toText
  | .notInRegistry p => "peer " ++ p.toText ++ " not in cluster registry"
  | .clientNotConnected p => "client " ++ p.toText ++ " is not connected"
  | .targetNotHost p => "target " ++ p.toText ++ " is not a host"
  | .otherTenant => "host and client are not in the same tenant"
  | .hostNotConnected p => "host " ++ p.toText ++ " is not connected"
  | .pairingUnknown r => "pairing request " ++ r.toText ++ " is unknown"
  | .onlyHostsApprove => "only hosts can approve pairing requests"
  | .pairingOfAnotherHost r => "pairing request " ++ r.toText ++ " belongs to another host"
  | .pairingDenied reason => "pairing denied by policy: " ++ reason
  | .authorizeFailed e => "session authorize failed: " ++ e
  | .persistFailed e => e
  | .needsConsent c =>
      "session needs owner consent (consent_id=" ++ c.toText ++
        "); approve in dashboard then retry"
  | .sessionDenied reason => "session denied by policy: " ++ reason
  | .notPaired c h => "client " ++ c.toText ++ " is not paired with host " ++ h.toText
  | .noSharedTransport => "host and client do not share a transport"
  | .noSharedCodec => "host and client do not share a codec"
  | .hostUnsigned p =>
      "host " ++ p.toText ++ " did not send a SignedHello; cannot bind session credential"
  | .clientUnsigned p =>
      "client " ++ p.toText ++ " did not send a SignedHello; cannot bind session credential"
  | .revokeNotAllowed h =>
      "only host " ++ h.toText ++ " or authorized local client may revoke this grant"
  | .noPairing h c => "no pairing between " ++ h.toText ++ " and " ++ c.toText
  | .sessionNotFound s => "session " ++ s.toText ++ " not found"
  | .kickNotParticipant s => "peer is not a participant in session " ++ s.toText
  | .shareLinkNotAllowed =>
      "only hosts or clients on a device with an active host-agent can create share links"
  | .shareCodeUnknown => "unknown or expired share code"
  | .shareCodeExpired => "share code expired"
  | .signalSource => "relay signal source does not match the connected peer"
  | .sessionNotActive s => "session " ++ s.toText ++ " is not active"
  | .sessionExpired s => "session " ++ s.toText ++ " has expired"
  | .notParticipant p s =>
      "peer " ++ p.toText ++ " is not a participant in session " ++ s.toText
  | .relayNotPaired p t => "peer " ++ p.toText ++ " is not paired with target " ++ t.toText
  | .redis e => e

inductive EnrollmentPolicy where
  | openAll
  | managed
  deriving DecidableEq

structure Config where
  iceServers : List IceServer
  serverSecret : List UInt8
  allowUnsignedHello : Bool
  enrollment : EnrollmentPolicy
  /-- Whether a session authorizer is attached. -/
  sessionAuthorizer : Bool
  /-- The identity on the cluster bus, absent for a single instance. -/
  cluster : Option InstanceId
  /-- Whether a JWKS client is attached. -/
  jwks : Bool
  /-- HMAC-SHA256 of a 96-byte message under a key. -/
  hmacSha256 : List UInt8 → BitVec 768 → HmacTag
  verifyHello : SignedHello → Bool
  verifyingKey : PublicKey → Except String Unit
  verifySignature : SignedBundle → PublicKey → Except SignedBundleError Unit
  payloadViewerToHost : SignedBundle → Except SignedBundleError ViewerToHost
  payloadIceAllowlist : SignedBundle → Except SignedBundleError IceAllowlist
  payloadSignedKill : SignedBundle → Except SignedBundleError SignedKill
  parseUuid : String → Option Uuid
  decodeMessage : String → Except String ClientMessage

abbrev Op (α : Type) := Program signature Failure α

/-- An operation without a `Result`. -/
abbrev Proc (α : Type) := Program signature Empty α

/-- A failing step of another crate, as `?` propagates it. -/
def liftExcept {ε ε' α : Type} (wrap : ε → ε') : Except ε α → Program signature ε' α
  | .ok a => .done a
  | .error e => .fail (wrap e)

/-- Fail when there is no value, as `ok_or_else` does. -/
def orFail {ε α : Type} (error : ε) : Option α → Program signature ε α
  | some a => .done a
  | none => .fail error

/-- Fail unless the condition holds, as a guarded `bail!` does. -/
def require {ε : Type} (condition : Bool) (error : ε) : Program signature ε Unit :=
  if condition then .done () else .fail error

/-- `let _ = operation.await`: whatever the result is, it is dropped. -/
def ignore {ε ε' α : Type} (operation : Program signature ε α) : Program signature ε' Unit := do
  let _ ← operation.attempt
  return ()

theorem run_ignore {ε ε' α : Type} (p : Program signature ε α) (s : Server) :
    machine.run (ignore p : Program signature ε' Unit) s = (.ok (), (machine.run p s).2) := by
  rw [ignore, machine.run_bind, machine.run_attempt]
  rfl

theorem run_require_ok {ε : Type} {condition : Bool} {error : ε} {u : Unit} {s s' : Server}
    (ok : machine.run (require condition error) s = (.ok u, s')) :
    condition = true ∧ s = s' := by
  cases condition with
  | false => cases ok
  | true =>
      cases ok
      exact ⟨rfl, rfl⟩

variable (cfg : Config)

/-! ## `ClusterBus` -/

namespace Bus

def command (c : BusCommand) : Op c.Answer := do
  liftExcept .redis (← perform (.bus c))

def registerPeer (self : InstanceId) (peerId tenantId : Uuid) (descriptor : PeerDescriptor)
    (publicKey : Option PublicKey) : Op Unit := do
  command (.setPeer peerId ⟨self, tenantId, descriptor, publicKey⟩)
  if descriptor.role = .host then command (.addHost tenantId peerId) else return ()

def unregisterPeer (peerId tenantId : Uuid) (wasHost : Bool) : Op Unit := do
  command (.delPeer peerId)
  if wasHost then command (.removeHost tenantId peerId) else return ()

/-- The loop of `list_hosts` over the members of a tenant's host set. -/
def collectHosts (tenantId : Uuid) : List Uuid → Op (List PeerDescriptor)
  | [] => return []
  | peerId :: ids => do
    match ← command (.getPeer peerId) with
    | some peer =>
      let rest ← collectHosts tenantId ids
      return if peer.descriptor.role = .host ∧ peer.tenantId = tenantId then
        peer.descriptor :: rest else rest
    | none =>
      command (.removeHost tenantId peerId)
      collectHosts tenantId ids

def listHosts (tenantId : Uuid) : Op (List PeerDescriptor) := do
  collectHosts tenantId (← command (.members tenantId))

/-- Deliver a server message to a peer that may live on another instance. -/
def deliver (peerId : Uuid) (message : ServerMessage) : Op Unit := do
  let remote ← orFail (.notInRegistry peerId) (← command (.getPeer peerId))
  command (.publishTo remote.instanceId ⟨peerId, message⟩)

def publishPresence (tenantId : Uuid) (message : ServerMessage) : Op Unit :=
  command (.publishPresence tenantId ⟨Uuid.nil, message⟩)

end Bus

/-! ## Peers -/

def peerTenant (peerId : Uuid) : Proc (Option Uuid) := do
  return (← perform (.getPeer peerId)).map ConnectedPeer.tenantId

def peerTenantAccount (peerId : Uuid) : Op (Option (Uuid × Uuid)) := do
  return (← perform (.getPeer peerId)).map (fun peer => (peer.tenantId, peer.accountId))

def peerAccountId (peerId : Uuid) : Op (Option Uuid) := do
  return (← perform (.getPeer peerId)).map ConnectedPeer.accountId

/-- The cluster side of a registration; its errors are only logged. -/
def recordPeer (descriptor : PeerDescriptor) (publicKey : Option PublicKey) (tenantId : Uuid) :
    Op Unit :=
  match cfg.cluster with
  | some self => ignore (Bus.registerPeer self descriptor.peerId tenantId descriptor publicKey)
  | none => return ()

def register (descriptor : PeerDescriptor) (publicKey : Option PublicKey)
    (tenantId accountId : Uuid) (outbound : ConnId) : Op Unit := do
  let inserted ← perform (.insertPeer ⟨descriptor, outbound, publicKey, tenantId, accountId, 0⟩)
  require inserted (.alreadyConnected descriptor.peerId)
  recordPeer cfg descriptor publicKey tenantId

/-- The cluster side of an unregistration, for an entry that was there. -/
def forgetPeer (peerId : Uuid) (removed : Option ConnectedPeer) : Proc Unit :=
  match removed, cfg.cluster with
  | some peer, some _ =>
    ignore (Bus.unregisterPeer peerId peer.tenantId (peer.descriptor.role = .host))
  | _, _ => return ()

def unregister (peerId : Uuid) : Proc (Option PeerDescriptor) := do
  let removed ← perform (.removePeer peerId)
  forgetPeer cfg peerId removed
  return removed.map ConnectedPeer.descriptor

def resolveEnrollmentFull (deviceId : Uuid) (publicKey : PublicKey) : Op (Uuid × Uuid) := do
  match cfg.enrollment with
  | .openAll => return (Uuid.nil, Uuid.nil)
  | .managed =>
    let found ← liftExcept .enrollmentLookup
      (← perform (.enrollmentLookup deviceId publicKey))
    let info ← orFail (.notEnrolled deviceId) found
    require (!info.revoked) (.deviceRevoked deviceId)
    return (info.tenantId, info.accountId)

def findHostPeerForDevice (deviceId : Uuid) : Proc (Option Uuid) := do
  let peers ← perform .listPeers
  return (peers.find? (fun p =>
    p.descriptor.role = .host && p.descriptor.deviceId = deviceId)).map (·.descriptor.peerId)

def sendTo (peerId : Uuid) (message : ServerMessage) : Op Unit := do
  match ← perform (.sendLocal peerId message) with
  | some sent => require sent (.notWritable peerId)
  | none =>
    match cfg.cluster with
    | some _ => Bus.deliver peerId message
    | none => .fail (.unknownPeer peerId)

def broadcastPresence (descriptor : PeerDescriptor) (tenantId : Uuid) (connected : Bool) :
    Proc Unit := do
  let message := ServerMessage.presence ⟨descriptor, connected⟩
  perform (.broadcastLocal descriptor.peerId tenantId message)
  match cfg.cluster with
  | some _ => ignore (Bus.publishPresence tenantId message)
  | none => return ()

def presenceHeartbeatInterval : Nat := 3

def handleHeartbeat (peerId : Uuid) : Proc Unit := do
  match ← perform (.bumpHeartbeat peerId) with
  | none => return ()
  | some count =>
    if count % presenceHeartbeatInterval = 0 then
      match ← perform (.getPeer peerId) with
      | none => return ()
      | some peer => broadcastPresence cfg peer.descriptor peer.tenantId true
    else return ()

/-- Remote hosts are appended unless a local host has the same peer id. -/
def mergeHosts (hosts remote : List PeerDescriptor) : List PeerDescriptor :=
  remote.foldl (fun hosts d =>
    if hosts.any (fun h => h.peerId = d.peerId) then hosts else hosts ++ [d]) hosts

def listHosts (viewerTenant : Uuid) : Proc (List PeerDescriptor) := do
  let peers ← perform .listPeers
  let hosts := (peers.filter (fun peer =>
    peer.descriptor.role = .host && peer.tenantId = viewerTenant)).map ConnectedPeer.descriptor
  match cfg.cluster with
  | none => return hosts
  | some _ =>
    match ← (Bus.listHosts viewerTenant).attempt with
    | .ok remote => return mergeHosts hosts remote
    | .error (_ : Failure) => return hosts

/-- One turn of the listener task: the next published envelope is put on the
channels of the local peers it is for; the nil id marks a presence fan-out. -/
def clusterListener (self : InstanceId) : Proc Unit := do
  match ← perform (.receive self) with
  | none => return ()
  | some ⟨⟨peerId, message⟩, origin⟩ =>
    if peerId.isNil then perform (.broadcastAll origin message)
    else
      let _ ← perform (.sendLocal peerId message)
      return ()

/-! ## Pairing -/

def addPairing (grant : PairingGrant) : Op Unit := do
  let snapshot ← perform (.addPairing grant)
  liftExcept .persistFailed (← perform (.persist snapshot))

def removePairing (hostPeerId clientPeerId : Uuid) : Op Bool := do
  let (snapshot, removed) ← perform (.removePairing hostPeerId clientPeerId)
  if removed then
    liftExcept .persistFailed (← perform (.persist snapshot))
    return true
  else return false

/-- A grant made by this instance is also announced on the cluster bus. -/
def announcePairing (grant : PairingGrant) : Op Unit :=
  match cfg.cluster with
  | some _ => ignore (Bus.command (.setPair grant.hostPeerId grant.clientPeerId))
  | none => return ()

/-- What `request_pairing` and `start_session` ask of a target: it is a
registered host, here or on another instance, in the tenant of the client. -/
def resolveHost (clientTenant hostPeerId : Uuid) :
    Op (PeerDescriptor × Option PublicKey) := do
  match ← perform (.getPeer hostPeerId) with
  | some host =>
    require (host.descriptor.role = .host) (.targetNotHost hostPeerId)
    require (host.tenantId = clientTenant) .otherTenant
    return (host.descriptor, host.publicKey)
  | none =>
    match cfg.cluster with
    | none => .fail (.hostNotConnected hostPeerId)
    | some _ =>
      let remote ← orFail (.hostNotConnected hostPeerId) (← Bus.command (.getPeer hostPeerId))
      require (remote.descriptor.role = .host) (.targetNotHost hostPeerId)
      require (remote.tenantId = clientTenant) .otherTenant
      return (remote.descriptor, remote.publicKey)

def requestPairing (client : PeerDescriptor) (request : PairingRequest) : Op Unit := do
  let (clientTenant, clientAccountId) ←
    orFail (.clientNotConnected client.peerId) (← peerTenantAccount client.peerId)
  let _ ← resolveHost cfg clientTenant request.hostPeerId
  perform (.insertPending
    ⟨request.requestId, request.hostPeerId, client, request.clientLabel, clientAccountId⟩)
  sendTo cfg request.hostPeerId (.pairingRequested
    ⟨request.requestId, request.hostPeerId, client, request.clientLabel⟩)

/-- The policy gate of `decide_pairing`: only a denial or an error stops it. -/
def gatePairing (host : PeerDescriptor) (pending : PendingPairing) (requestId : Uuid) :
    Op Unit := do
  if cfg.sessionAuthorizer then
    let clientAccountId :=
      if pending.clientAccountId.isNil then none else some pending.clientAccountId
    match ← perform (.authorize
        ⟨pending.client.deviceId, clientAccountId, host.deviceId, none, false⟩) with
    | .ok (.deny reason) =>
      ignore (sendTo cfg pending.client.peerId (.pairingRejected requestId reason))
      .fail (.pairingDenied reason)
    | .ok _ => return ()
    | .error e => .fail (.authorizeFailed e)
  else return ()

/-- The rest of `decide_pairing`, with the pending request already taken. -/
def judgePairing (host : PeerDescriptor) (decision : PairingDecision) (pending : PendingPairing) :
    Op (Option PairingGrant) := do
  require (host.role = .host) .onlyHostsApprove
  require (pending.hostPeerId = host.peerId) (.pairingOfAnotherHost decision.requestId)
  if decision.approved then
    gatePairing cfg host pending decision.requestId
    let grant : PairingGrant := ⟨pending.hostPeerId, pending.client.peerId⟩
    addPairing grant
    announcePairing cfg grant
    ignore (sendTo cfg pending.client.peerId (.pairingEstablished grant))
    return some grant
  else
    ignore (sendTo cfg pending.client.peerId
      (.pairingRejected decision.requestId "host rejected pairing"))
    return none

/-- The request is taken out of the table before anything is checked. -/
def decidePairing (host : PeerDescriptor) (decision : PairingDecision) :
    Op (Option PairingGrant) := do
  let pending ← orFail (.pairingUnknown decision.requestId)
    (← perform (.takePending decision.requestId))
  judgePairing cfg host decision pending

def isPairedCluster (hostPeerId clientPeerId : Uuid) : Op Bool := do
  if ← perform (.isPaired hostPeerId clientPeerId) then return true
  else
    match cfg.cluster with
    | none => return false
    | some _ =>
      match ← (Bus.command (.getPair hostPeerId clientPeerId)).attempt with
      | .ok paired => return paired
      | .error (_ : Failure) => return false

/-! ## Sessions -/

def pruneExpiredSessions : Op Unit := do
  let now ← perform .now
  perform (.pruneSessions now)

def removeSessionsFor (peerId : Uuid) : Proc Unit := perform (.dropSessionsFor peerId)

def negotiateTransport (client host : PeerDescriptor) (requested : Option TransportKind) :
    Option TransportKind :=
  match requested with
  | some transport =>
    if client.capabilities.supportsTransport transport &&
        host.capabilities.supportsTransport transport then some transport else none
  | none =>
    [TransportKind.nativeQuic, .webRtc, .relayQuic].find? (fun transport =>
      client.capabilities.supportsTransport transport &&
        host.capabilities.supportsTransport transport)

/-- Either direction will do for a preferred codec; without one the host
encodes and the client decodes. -/
def negotiateCodec (client host : PeerDescriptor) (preferred : Option VideoCodec) :
    Option VideoCodec :=
  let common := [VideoCodec.av1, .h265, .h264].find? (fun codec =>
    host.capabilities.encoders.contains codec && client.capabilities.decoders.contains codec)
  match preferred with
  | some codec =>
    let clientOk := client.capabilities.decoders.contains codec ||
      client.capabilities.encoders.contains codec
    let hostOk := host.capabilities.encoders.contains codec ||
      host.capabilities.decoders.contains codec
    if clientOk && hostOk then some codec else common
  | none => common

/-- `SessionCredential::issue`: the tag covers the five fields in wire order. -/
def issueCredential (sessionId : Uuid) (hostPubkey clientPubkey : PublicKey)
    (issuedUnixMillis expiresUnixMillis : Nat) : SessionCredential where
  token := sessionId.toText
  expiresUnixMillis
  sessionId
  hostPubkey
  clientPubkey
  issuedUnixMillis
  hmac := cfg.hmacSha256 cfg.serverSecret
    (sessionId ++ hostPubkey ++ clientPubkey ++ BitVec.ofNat 64 issuedUnixMillis ++
      BitVec.ofNat 64 expiresUnixMillis)

def sessionTokenTtlMillis : Nat := 10 * 60 * 1000

/-- The cloud gate of `start_session`: the permissions of the session and
whether policy pairs the two peers by itself. -/
def authorizeSession (client host : PeerDescriptor) (request : StartSessionRequest) :
    Op (SessionPermissions × Bool) := do
  if cfg.sessionAuthorizer then
    match ← perform (.authorize
        ⟨client.deviceId, none, host.deviceId, request.consentId, false⟩) with
    | .ok (.allow permissions autoPair) => return (permissions, autoPair)
    | .ok (.pending consentId expiresAtUnixMs) =>
      ignore (sendTo cfg request.targetHostId (.sessionConsentPending consentId client.peerId
        request.targetHostId expiresAtUnixMs client.deviceName))
      .fail (.needsConsent consentId)
    | .ok (.deny reason) => .fail (.sessionDenied reason)
    | .error e => .fail (.authorizeFailed e)
  else return (request.permissions, false)

/-- The pairing check of `start_session`, with the grant policy may add. -/
def ensurePaired (clientPeerId hostPeerId : Uuid) (policyAutoPair : Bool) : Op Unit := do
  let paired ← isPairedCluster cfg hostPeerId clientPeerId
  if paired then return ()
  else if policyAutoPair then
    let grant : PairingGrant := ⟨hostPeerId, clientPeerId⟩
    addPairing grant
    announcePairing cfg grant
    ignore (sendTo cfg clientPeerId (.pairingEstablished grant))
  else .fail (.notPaired clientPeerId hostPeerId)

def announceSession (sessionId : Uuid) (session : RemoteSession) : Op Unit :=
  match cfg.cluster with
  | some _ => ignore (Bus.command (.setSession sessionId session))
  | none => return ()

/-- What `start_session` does once the pair is known to be paired, up to the
message to the host: the session to store and the plan for the client. -/
def prepareSession (client host : PeerDescriptor) (hostKey clientKey : Option PublicKey)
    (request : StartSessionRequest) (permissions : SessionPermissions) :
    Op (ActiveSession × SessionPlan) := do
  let transport ← orFail .noSharedTransport
    (negotiateTransport client host request.requestedTransport)
  let codec ← orFail .noSharedCodec (negotiateCodec client host request.preferredCodec)
  let hostPubkey ← orFail (.hostUnsigned request.targetHostId) hostKey
  let clientPubkey ← orFail (.clientUnsigned client.peerId) clientKey
  let issued ← perform .now
  let expires := saturatingAdd issued sessionTokenTtlMillis
  let credential := issueCredential cfg request.sessionId hostPubkey clientPubkey issued expires
  sendTo cfg request.targetHostId (.sessionRequested
    ⟨request.sessionId, client, transport, codec, credential, credential, cfg.iceServers,
      request.video, permissions, request.syncOnly⟩)
  return (⟨request.targetHostId, client.peerId, transport, codec, credential, credential, expires,
      permissions⟩,
    ⟨request.sessionId, request.targetHostId, transport, codec, credential, cfg.iceServers,
      permissions, request.syncOnly⟩)

/-- `start_session` up to the point where the session is stored. -/
def planSession (client : PeerDescriptor) (request : StartSessionRequest) :
    Op (ActiveSession × SessionPlan) := do
  pruneExpiredSessions
  let self ← orFail (.clientNotConnected client.peerId) (← perform (.getPeer client.peerId))
  let (host, hostKey) ← resolveHost cfg self.tenantId request.targetHostId
  let _ ← peerAccountId client.peerId
  let (permissions, policyAutoPair) ← authorizeSession cfg client host request
  ensurePaired cfg client.peerId request.targetHostId policyAutoPair
  prepareSession cfg client host hostKey self.publicKey request permissions

def startSession (client : PeerDescriptor) (request : StartSessionRequest) : Op SessionPlan := do
  let (session, plan) ← planSession cfg client request
  perform (.insertSession request.sessionId session)
  announceSession cfg request.sessionId
    ⟨session.hostPeerId, session.clientPeerId, session.expiresUnixMillis⟩
  return plan

/-- The owner test of `revoke_pairing`: the host itself, or a client on the
device of the registered host. An unknown host counts as the nil device. -/
def mayRevoke (actor : PeerDescriptor) (hostPeerId : Uuid) : Op Bool := do
  if actor.role = .client then
    let host ← perform (.getPeer hostPeerId)
    let device := (host.map (·.descriptor.deviceId)).getD Uuid.nil
    return actor.peerId = hostPeerId || actor.deviceId = device
  else return actor.peerId = hostPeerId

def revokePairing (actor : PeerDescriptor) (hostPeerId clientPeerId : Uuid) : Op Unit := do
  require (← mayRevoke actor hostPeerId) (.revokeNotAllowed hostPeerId)
  let removed ← removePairing hostPeerId clientPeerId
  require removed (.noPairing hostPeerId clientPeerId)
  perform (.dropSessionsOf hostPeerId clientPeerId)
  ignore (sendTo cfg clientPeerId (.pairingRevoked hostPeerId clientPeerId))
  ignore (sendTo cfg hostPeerId (.pairingRevoked hostPeerId clientPeerId))

/-- `kick_session` with the session already removed: it is put back when the
caller is no participant. -/
def finishKick (actor : PeerDescriptor) (sessionId : Uuid) (session : ActiveSession)
    (reason : String) : Op Unit := do
  if actor.peerId ≠ session.hostPeerId ∧ actor.peerId ≠ session.clientPeerId then
    perform (.insertSession sessionId session)
    .fail (.kickNotParticipant sessionId)
  else
    let message := ServerMessage.sessionKicked sessionId
      (if reason.isEmpty then "kicked" else reason)
    ignore (sendTo cfg session.hostPeerId message)
    ignore (sendTo cfg session.clientPeerId message)

def kickSession (actor : PeerDescriptor) (sessionId : Uuid) (reason : String) : Op Unit := do
  let session ← orFail (.sessionNotFound sessionId) (← perform (.removeSession sessionId))
  finishKick cfg actor sessionId session reason

/-- The session a signal names, from this instance or else from the cluster. -/
def findSession (sessionId : Uuid) : Op RemoteSession := do
  match ← perform (.getSession sessionId) with
  | some session => return ⟨session.hostPeerId, session.clientPeerId, session.expiresUnixMillis⟩
  | none =>
    match cfg.cluster with
    | some _ => orFail (.sessionNotActive sessionId) (← Bus.command (.getSession sessionId))
    | none => .fail (.sessionNotActive sessionId)

def relaySignal (peer : PeerDescriptor) (signal : RelaySignal) : Op Unit := do
  require (signal.fromPeerId = peer.peerId) .signalSource
  pruneExpiredSessions
  let session ← findSession cfg signal.sessionId
  if session.expiresUnixMillis ≤ (← perform .now) then
    let _ ← perform (.removeSession signal.sessionId)
    .fail (.sessionExpired signal.sessionId)
  else
    let toHost := peer.peerId = session.clientPeerId ∧ signal.toPeerId = session.hostPeerId
    let toClient := peer.peerId = session.hostPeerId ∧ signal.toPeerId = session.clientPeerId
    require (toHost ∨ toClient) (.notParticipant peer.peerId signal.sessionId)
    require (← isPairedCluster cfg session.hostPeerId session.clientPeerId)
      (.relayNotPaired peer.peerId signal.toPeerId)
    sendTo cfg signal.toPeerId (.signal signal)

/-! ## Share links -/

/-- The host a link is for: the caller, or a connected host on its device. -/
def shareLinkHost (actor : PeerDescriptor) : Op (Uuid × String) := do
  if actor.role = .host then return (actor.peerId, actor.deviceName)
  else
    let peers ← perform .listPeers
    let host ← orFail .shareLinkNotAllowed (peers.find? (fun p =>
      p.descriptor.role = .host && p.descriptor.deviceId = actor.deviceId))
    return (host.descriptor.peerId, host.descriptor.deviceName)

def createShareLink (actor : PeerDescriptor) (ttlSecs : Nat) (permissions : SessionPermissions) :
    Op (String × Nat × String) := do
  let (hostPeerId, hostLabel) ← shareLinkHost actor
  let ttl := if ttlSecs = 0 then 900 else min ttlSecs 86400
  let now ← perform .now
  let expires := saturatingAdd now (saturatingMul ttl 1000)
  let raw ← perform .randomCode
  let code := String.ofList (Uuid.hexNibbles raw.toNat 8)
  perform (.insertShareLink code ⟨hostPeerId, hostLabel, permissions, expires⟩)
  return (code, expires, "qubox://pair?code=" ++ code)

def lookupShareCode (code : String) : Op ShareLinkEntry := do
  match ← perform (.findShareLink code) with
  | .unknown => .fail .shareCodeUnknown
  | .expired => .fail .shareCodeExpired
  | .found entry => return entry

def redeemShareLink (client : PeerDescriptor) (code _clientLabel : String) : Op Unit := do
  let entry ← lookupShareCode code
  let grant : PairingGrant := ⟨entry.hostPeerId, client.peerId⟩
  addPairing grant
  ignore (sendTo cfg entry.hostPeerId (.pairingEstablished grant))
  sendTo cfg client.peerId (.pairingEstablished grant)

/-! ## Cloud-signed bundles -/

abbrev BundleOp (α : Type) := Program signature BundleVerifyError α

/-- `JwksClient::verify_bundle`. -/
def verifyBundle (envelope : SignedBundle) : BundleOp Unit := do
  let key ← liftExcept .jwks (← perform (.jwksLookup envelope.kid))
  liftExcept (fun e => .jwks (.badKey e)) (cfg.verifyingKey key)
  liftExcept (fun e => .jwks (.signatureMismatch e.text)) (cfg.verifySignature envelope key)

/-- The common opening of the three verifications: look the key up twice, verify
twice, and decode with the given payload reader (`SignedBundle::decode`). -/
def decodeBundle {α : Type} (payload : SignedBundle → Except SignedBundleError α)
    (envelope : SignedBundle) : BundleOp α := do
  if cfg.jwks then
    verifyBundle cfg envelope
    let key ← liftExcept .jwks (← perform (.jwksLookup envelope.kid))
    liftExcept .badKey (cfg.verifyingKey key)
    liftExcept .decode (cfg.verifySignature envelope key)
    liftExcept .decode (payload envelope)
  else .fail .jwksNotConfigured

def verifyViewerToHost (envelope : SignedBundle) (hostDeviceId : Uuid) (nowUnixMs : Nat) :
    BundleOp ViewerToHost := do
  let payload ← decodeBundle cfg cfg.payloadViewerToHost envelope
  require (payload.aud = hostDeviceId.toText) (.audienceMismatch hostDeviceId.toText payload.aud)
  require (nowUnixMs < asU64 payload.exp) (.expired (asU64 payload.exp) nowUnixMs)
  liftExcept .jti (← perform (.checkAndMark payload.jti (asU64 payload.exp) nowUnixMs))
  return payload

def verifyIceAllowlist (envelope : SignedBundle) (nowUnixMs : Nat) : BundleOp IceAllowlist := do
  let payload ← decodeBundle cfg cfg.payloadIceAllowlist envelope
  require (nowUnixMs < asU64 payload.exp) (.expired (asU64 payload.exp) nowUnixMs)
  return payload

/-- Tell both sides of a session that a signed kill removed, if there was one. -/
def announceKill (payload : SignedKill) (sessionId : Uuid) :
    Option ActiveSession → BundleOp Unit
  | none => return ()
  | some session => do
    let message := ServerMessage.sessionKicked sessionId
      ("signed_kill: " ++ if payload.reason.isEmpty then "killed" else payload.reason)
    ignore (sendTo cfg session.hostPeerId message)
    ignore (sendTo cfg session.clientPeerId message)

def applySignedKill (envelope : SignedBundle) (nowUnixMs : Nat) : BundleOp SignedKill := do
  let payload ← decodeBundle cfg cfg.payloadSignedKill envelope
  require (nowUnixMs < asU64 payload.exp) (.expired (asU64 payload.exp) nowUnixMs)
  let sessionId ← orFail (.malformedSid payload.sid) (cfg.parseUuid payload.sid)
  let session ← perform (.removeSession sessionId)
  announceKill cfg payload sessionId session
  let _ ← perform (.denylist payload.jti (asU64 payload.exp))
  return payload

end Qubox.Signaling
