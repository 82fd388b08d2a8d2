import Qubox.Library.Pool
import Qubox.Signaling.Contract
import Qubox.Signaling.Effect

/-!
# Calls

A call is one operation invoked for a socket, with the arguments the handler
passes to it: a handshake, the block behind the loop, an operation of a
registered peer, or one turn of the cluster listener. `system` lets any number
of calls interleave at their await points, while the clock, the other parties
outside the server and the other instances of a cluster change at any moment.
-/

namespace Qubox.Signaling

open Interaction

inductive Call where
  | hello (conn : ConnId) (descriptor : PeerDescriptor)
  | signedHello (conn : ConnId) (signed : SignedHello)
  | disconnect (peer : PeerDescriptor)
  | heartbeat (peerId : Uuid)
  | listHosts (viewerTenant : Uuid)
  | requestPairing (client : PeerDescriptor) (request : PairingRequest)
  | decidePairing (host : PeerDescriptor) (decision : PairingDecision)
  | startSession (client : PeerDescriptor) (request : StartSessionRequest)
  | revokePairing (actor : PeerDescriptor) (hostPeerId clientPeerId : Uuid)
  | kickSession (actor : PeerDescriptor) (sessionId : Uuid) (reason : String)
  | relaySignal (peer : PeerDescriptor) (signal : RelaySignal)
  | createShareLink (actor : PeerDescriptor) (ttlSecs : Nat) (permissions : SessionPermissions)
  | redeemShareLink (client : PeerDescriptor) (code label : String)
  | verifySessionBundle (request : StartSessionBundleRequest) (now : Nat)
  | applySignedKill (envelope : SignedBundle) (now : Nat)
  | clusterListener (self : InstanceId)
  deriving DecidableEq

inductive CallError where
  | operation (error : Failure)
  | bundle (error : BundleVerifyError)
  deriving DecidableEq

def Call.body (cfg : Config) : Call → Program signature CallError Unit
  | .hello conn descriptor => (Signaling.hello cfg conn descriptor).settle Empty.elim
  | .signedHello conn signed => (Signaling.signedHello cfg conn signed).settle Empty.elim
  | .disconnect peer => (Signaling.disconnect cfg peer).settle Empty.elim
  | .heartbeat peerId => (handleHeartbeat cfg peerId).settle Empty.elim
  | .listHosts viewerTenant => (Signaling.listHosts cfg viewerTenant).settle Empty.elim
  | .requestPairing client request =>
      (Signaling.requestPairing cfg client request).settle .operation
  | .decidePairing host decision => (Signaling.decidePairing cfg host decision).settle .operation
  | .startSession client request => (Signaling.startSession cfg client request).settle .operation
  | .revokePairing actor h c => (Signaling.revokePairing cfg actor h c).settle .operation
  | .kickSession actor sessionId reason =>
      (Signaling.kickSession cfg actor sessionId reason).settle .operation
  | .relaySignal peer signal => (Signaling.relaySignal cfg peer signal).settle .operation
  | .createShareLink actor ttl permissions =>
      (Signaling.createShareLink actor ttl permissions).settle .operation
  | .redeemShareLink client code label =>
      (Signaling.redeemShareLink cfg client code label).settle .operation
  | .verifySessionBundle request now =>
      (Signaling.verifySessionBundle cfg request now).settle (fun e => .bundle e.2)
  | .applySignedKill envelope now => (Signaling.applySignedKill cfg envelope now).settle .bundle
  | .clusterListener self => (Signaling.clusterListener self).settle Empty.elim

/-- The calls that announce a change of presence. -/
def Call.Speaks : Call → Prop
  | .hello _ _ | .signedHello _ _ | .disconnect _ | .heartbeat _ => True
  | _ => False

/-- Everything a call can do besides quiet actions. -/
inductive Call.May : Call → Action → Prop
  | quiet {call : Call} {a : Action} (h : a.Quiet) : May call a
  -- handshakes
  | insertPeer {conn descriptor} :
      May (.hello conn descriptor) (.insertPeer ⟨descriptor, conn, none, Uuid.nil, Uuid.nil, 0⟩)
  | insertSigned {conn signed tenantId accountId} : May (.signedHello conn signed)
      (.insertPeer ⟨signed.descriptor, conn, some signed.publicKey, tenantId, accountId, 0⟩)
  | setPeer {conn descriptor self} : May (.hello conn descriptor)
      (.bus (.setPeer descriptor.peerId ⟨self, Uuid.nil, descriptor, none⟩))
  | setSigned {conn signed self tenantId} : May (.signedHello conn signed)
      (.bus (.setPeer signed.descriptor.peerId
        ⟨self, tenantId, signed.descriptor, some signed.publicKey⟩))
  | addHost {conn descriptor} :
      May (.hello conn descriptor) (.bus (.addHost Uuid.nil descriptor.peerId))
  | addSigned {conn signed tenantId} :
      May (.signedHello conn signed) (.bus (.addHost tenantId signed.descriptor.peerId))
  -- presence
  | announce {call : Call} {descriptor tenantId connected} (h : call.Speaks) :
      May call (.broadcastLocal descriptor.peerId tenantId (.presence ⟨descriptor, connected⟩))
  | publish {call : Call} {descriptor tenantId connected} (h : call.Speaks) :
      May call (.bus (.publishPresence tenantId
        ⟨Uuid.nil, .presence ⟨descriptor, connected⟩⟩))
  | bump {peerId} : May (.heartbeat peerId) (.bumpHeartbeat peerId)
  | removePeer {peer} : May (.disconnect peer) (.removePeer peer.peerId)
  | delPeer {peer} : May (.disconnect peer) (.bus (.delPeer peer.peerId))
  | dropFor {peer} : May (.disconnect peer) (.dropSessionsFor peer.peerId)
  -- pairing
  | insertPending {client request account} : May (.requestPairing client request) (.insertPending
      ⟨request.requestId, request.hostPeerId, client, request.clientLabel, account⟩)
  | prompt {client request} : May (.requestPairing client request)
      (.sendLocal request.hostPeerId (.pairingRequested
        ⟨request.requestId, request.hostPeerId, client, request.clientLabel⟩))
  | routePrompt {client request target} : May (.requestPairing client request)
      (.bus (.publishTo target ⟨request.hostPeerId, .pairingRequested
        ⟨request.requestId, request.hostPeerId, client, request.clientLabel⟩⟩))
  | takePending {host decision} :
      May (.decidePairing host decision) (.takePending decision.requestId)
  | approve {host decision} {client : Uuid} :
      May (.decidePairing host decision) (.addPairing ⟨host.peerId, client⟩)
  | announceApproval {host decision} {client : Uuid} :
      May (.decidePairing host decision) (.bus (.setPair host.peerId client))
  | removePairing {actor h c} : May (.revokePairing actor h c) (.removePairing h c)
  | dropOf {actor h c} : May (.revokePairing actor h c) (.dropSessionsOf h c)
  | insertLink {actor ttl permissions code entry} :
      May (.createShareLink actor ttl permissions) (.insertShareLink code entry)
  | findLink {client code label} : May (.redeemShareLink client code label) (.findShareLink code)
  | redeem {client code label} {host : Uuid} :
      May (.redeemShareLink client code label) (.addPairing ⟨host, client.peerId⟩)
  -- sessions
  | pruneStart {client request time} : May (.startSession client request) (.pruneSessions time)
  | autoPair {client request} :
      May (.startSession client request) (.addPairing ⟨request.targetHostId, client.peerId⟩)
  | announcePair {client request} :
      May (.startSession client request) (.bus (.setPair request.targetHostId client.peerId))
  | insertSession {client request} {session : ActiveSession}
      (h : session.IsOf request.targetHostId client.peerId) :
      May (.startSession client request) (.insertSession request.sessionId session)
  | announceSession {client request} {session : RemoteSession} :
      May (.startSession client request) (.bus (.setSession request.sessionId session))
  | kick {actor sessionId reason} :
      May (.kickSession actor sessionId reason) (.removeSession sessionId)
  | putBack {actor sessionId reason session} :
      May (.kickSession actor sessionId reason) (.insertSession sessionId session)
  | pruneRelay {peer signal time} : May (.relaySignal peer signal) (.pruneSessions time)
  | expire {peer signal} : May (.relaySignal peer signal) (.removeSession signal.sessionId)
  | mark {request now jti exp time} :
      May (.verifySessionBundle request now) (.checkAndMark jti exp time)
  | kill {envelope now sessionId} : May (.applySignedKill envelope now) (.removeSession sessionId)
  | deny {envelope now jti exp} : May (.applySignedKill envelope now) (.denylist jti exp)
  -- the cluster listener
  | receive {self} : May (.clusterListener self) (.receive self)
  | fanOut {self origin message} : May (.clusterListener self) (.broadcastAll origin message)
  | deliver {self peerId message} : May (.clusterListener self) (.sendLocal peerId message)

theorem Call.body_may (cfg : Config) (call : Call) :
    (call.body cfg).Upholds (fun _ _ => True) call.May (fun _ => True) := by
  have quiet : ∀ a : Action, a.Quiet → call.May a := fun _ => .quiet
  cases call with
  | hello conn descriptor =>
      exact (hello_upholds cfg conn quiet ⟨.insertPeer, fun _ => .setPeer, .addHost,
        fun _ => ⟨.announce trivial, .publish trivial⟩⟩).settle _
  | signedHello conn signed =>
      exact (signedHello_upholds cfg conn quiet fun _ _ => ⟨.insertSigned, fun _ => .setSigned,
        .addSigned, fun _ => ⟨.announce trivial, .publish trivial⟩⟩).settle _
  | disconnect peer =>
      exact (disconnect_upholds cfg quiet .removePeer .delPeer .dropFor
        fun _ _ => ⟨.announce trivial, .publish trivial⟩).settle _
  | heartbeat peerId =>
      exact (handleHeartbeat_upholds cfg quiet .bump
        fun _ _ => ⟨.announce trivial, .publish trivial⟩).settle _
  | listHosts viewerTenant => exact (listHosts_upholds cfg quiet viewerTenant).settle _
  | requestPairing client request =>
      exact (requestPairing_upholds cfg quiet (fun _ => .insertPending) .prompt
        fun _ => .routePrompt).settle _
  | decidePairing host decision =>
      exact (decidePairing_upholds cfg quiet .takePending fun pending _ same _ =>
        same ▸ ⟨.approve, fun _ _ => .announceApproval⟩).settle _
  | startSession client request =>
      exact (startSession_upholds cfg quiet (fun _ => .pruneStart)
        ⟨.autoPair, fun _ _ => .announcePair⟩
        (fun _ planned => .insertSession planned.isOf) fun _ _ _ => .announceSession).settle _
  | revokePairing actor h c =>
      exact (revokePairing_upholds cfg quiet .removePairing .dropOf).settle _
  | kickSession actor sessionId reason =>
      exact (kickSession_upholds cfg quiet .kick fun _ _ => .putBack).settle _
  | relaySignal peer signal =>
      exact (relaySignal_upholds cfg quiet (fun _ => .pruneRelay) .expire).settle _
  | createShareLink actor ttl permissions =>
      exact (createShareLink_upholds quiet fun _ _ => .insertLink).settle _
  | redeemShareLink client code label =>
      exact (redeemShareLink_upholds cfg quiet label .findLink fun _ _ => .redeem).settle _
  | verifySessionBundle request now =>
      exact (verifySessionBundle_upholds cfg quiet fun _ _ _ => .mark).settle _
  | applySignedKill envelope now =>
      exact (applySignedKill_upholds cfg quiet (fun _ => .kill) fun _ _ => .deny).settle _
  | clusterListener self =>
      exact (clusterListener_upholds .receive (fun _ _ _ => .fanOut) fun _ _ _ => .deliver).settle _

/-- What may change without an action of this instance. -/
inductive Disturbance where
  | env (env : Env)
  | redis (redis : Redis)

def Disturbance.apply : Disturbance → Server → Server
  | .env e, s => { s with env := e }
  | .redis r, s => { s with redis := r }

@[simp] theorem Disturbance.apply_state (x : Disturbance) (s : Server) :
    (x.apply s).state = s.state := by
  cases x <;> rfl

@[reducible] def system (cfg : Config) : System signature Server CallError Call Disturbance where
  exec := Server.exec
  body := Call.body cfg
  change := Disturbance.apply

abbrev ServerPool := Pool signature Server CallError Call

abbrev ServerMove := Move Call Disturbance

/-- The move performs this action next. -/
def Performs (P : ServerPool) (m : ServerMove) (a : Action) : Prop := P.next? m = some a

instance (P : ServerPool) (m : ServerMove) (a : Action) : Decidable (Performs P m a) :=
  inferInstanceAs (Decidable (P.next? m = some a))

/-- A server with no call in progress. -/
def idle (s : Server) : ServerPool := ⟨s, []⟩

/-! ## A small installation

Two peers, one instance and a quiet environment: the concrete states of this
development are built from them. -/

namespace Sample

def profile : CapabilityProfile :=
  { transports := [.nativeQuic], encoders := [.h264], decoders := [.h264] }

def peer (id : Uuid) (role : PeerRole) : PeerDescriptor :=
  ⟨id, id, "device", role, .linux, profile⟩

/-- Registered by a signed hello on the channel `conn`. -/
def connected (descriptor : PeerDescriptor) (tenantId : Uuid) (conn : ConnId) : ConnectedPeer :=
  ⟨descriptor, conn, some 5, tenantId, Uuid.nil, 0⟩

def host : PeerDescriptor := peer 1 .host

def client : PeerDescriptor := peer 2 .client

def env : Env where
  now := 1000
  nowBound := by decide
  authorize := fun _ => .error "unreachable"
  lookup := fun _ _ => .ok none
  jwksLookup := fun kid => .error (.unknownKid kid)
  persist := .ok ()
  randomCode := 0
  writable := fun _ => true
  redisUp := false
  shuffle := fun peers => ⟨peers, .refl _⟩

/-- `host` and `client` are connected, with the given grants on file. -/
def server (pairings : List PairingGrant) : Server where
  state := { SignalingState.fresh pairings none with
    peers := ((∅ : AList (fun _ : Uuid => ConnectedPeer)).insert 1
      (connected host Uuid.nil 0)).insert 2 (connected client Uuid.nil 1) }
  redis := Redis.empty
  env

/-- A server nobody has connected to. -/
def fresh (pairings : List PairingGrant) : Server where
  state := SignalingState.fresh pairings none
  redis := Redis.empty
  env

/-- A single instance that knows no cloud. -/
def config : Config where
  iceServers := []
  serverSecret := []
  allowUnsignedHello := true
  enrollment := .openAll
  sessionAuthorizer := false
  cluster := none
  jwks := false
  hmacSha256 := fun _ _ => 0
  verifyHello := fun _ => true
  verifyingKey := fun _ => .ok ()
  verifySignature := fun _ _ => .ok ()
  payloadViewerToHost := fun _ => .error .badBase64
  payloadIceAllowlist := fun _ => .error .badBase64
  payloadSignedKill := fun _ => .error .badBase64
  parseUuid := fun _ => none
  decodeMessage := .error

end Sample

end Qubox.Signaling
