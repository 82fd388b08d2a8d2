import Qubox.Library.Table
import Qubox.Proto
import Qubox.Signaling.JtiCache

/-!
# State of a signaling instance

The tables behind the locks of `SignalingState`, the part of Redis that a
cluster of instances shares, and the environment: clock, authorizer, enrollment
and key lookups, random numbers and the outcome of writing a file or a channel.
Nothing here decides anything; the operations are in
`Qubox.Signaling.Operations` and their atomic steps in `Qubox.Signaling.Action`.

The environment is part of the state so that it may change between any two
atomic steps. Its fields are functions of the request, and a later answer need
not agree with an earlier one.
-/

namespace Qubox.Signaling

/-- One outbound channel; every websocket has its own. -/
abbrev ConnId := Nat

abbrev InstanceId := String

/-- A registered peer, with the channel of the socket that registered it. -/
structure ConnectedPeer where
  descriptor : PeerDescriptor
  outbound : ConnId
  publicKey : Option PublicKey
  tenantId : Uuid
  accountId : Uuid
  heartbeatCount : Nat
  deriving DecidableEq

structure PendingPairing where
  requestId : Uuid
  hostPeerId : Uuid
  client : PeerDescriptor
  clientLabel : String
  clientAccountId : Uuid
  deriving DecidableEq

structure ActiveSession where
  hostPeerId : Uuid
  clientPeerId : Uuid
  transport : TransportKind
  codec : VideoCodec
  hostCredential : SessionCredential
  clientCredential : SessionCredential
  expiresUnixMillis : Nat
  permissions : SessionPermissions
  deriving DecidableEq

/-- The session connects this host with this client. -/
def ActiveSession.IsOf (session : ActiveSession) (hostPeerId clientPeerId : Uuid) : Prop :=
  session.hostPeerId = hostPeerId ∧ session.clientPeerId = clientPeerId

instance (session : ActiveSession) (h c : Uuid) : Decidable (session.IsOf h c) :=
  inferInstanceAs (Decidable (_ ∧ _))

structure ShareLinkEntry where
  hostPeerId : Uuid
  hostLabel : String
  permissions : SessionPermissions
  expiresUnixMs : Nat
  deriving DecidableEq

/-- What the signaling server keeps behind its locks. `pairings` is the memory
of the pairing store and `pairingFile` the contents of its file, absent for a
store without a path. `outbound` lists everything put on the outbound channels,
each message with its channel and oldest first. -/
structure SignalingState where
  peers : AList (fun _ : Uuid => ConnectedPeer)
  pendingPairings : AList (fun _ : Uuid => PendingPairing)
  sessions : AList (fun _ : Uuid => ActiveSession)
  pairings : List PairingGrant
  pairingFile : Option (List PairingGrant)
  shareLinks : AList (fun _ : String => ShareLinkEntry)
  jtiCache : JtiCache
  outbound : List (ConnId × ServerMessage)

namespace SignalingState

/-- A fresh server over a loaded pairing store. -/
def fresh (pairings : List PairingGrant) (pairingFile : Option (List PairingGrant)) :
    SignalingState where
  peers := ∅
  pendingPairings := ∅
  sessions := ∅
  pairings
  pairingFile
  shareLinks := ∅
  jtiCache := JtiCache.new
  outbound := []

/-- `PairingStore::is_paired`. -/
def isPaired (state : SignalingState) (hostPeerId clientPeerId : Uuid) : Bool :=
  state.pairings.any (fun grant =>
    grant.hostPeerId == hostPeerId && grant.clientPeerId == clientPeerId)

theorem isPaired_iff {state : SignalingState} {h c : Uuid} :
    state.isPaired h c = true ↔ (⟨h, c⟩ : PairingGrant) ∈ state.pairings := by
  simp only [isPaired, List.any_eq_true, Bool.and_eq_true, beq_iff_eq]
  constructor
  · rintro ⟨⟨h', c'⟩, member, rfl, rfl⟩
    exact member
  · intro member
    exact ⟨_, member, rfl, rfl⟩

/-- Tenant under which a peer is registered. -/
def tenant? (state : SignalingState) (peerId : Uuid) : Option Uuid :=
  (state.peers.lookup peerId).map ConnectedPeer.tenantId

end SignalingState

/-! ## Environment -/

structure EnrolledDevice where
  tenantId : Uuid
  accountId : Uuid
  revoked : Bool
  deriving DecidableEq

structure SessionAuthzRequest where
  clientDeviceId : Uuid
  clientAccountId : Option Uuid
  hostDeviceId : Uuid
  consentId : Option Uuid
  shareLinkRedemption : Bool
  deriving DecidableEq

inductive SessionAuthzDecision where
  | allow (permissions : SessionPermissions) (autoPair : Bool)
  | pending (consentId : Uuid) (expiresAtUnixMs : Nat)
  | deny (reason : String)
  deriving DecidableEq

inductive JwksError where
  | unknownKid (kid : String)
  | unreachable (error : String)
  | unreachableAndStale (error : String)
  | badKey (error : String)
  | signatureMismatch (error : String)
  deriving DecidableEq

/-- Answers of the world outside the server at one moment. -/
structure Env where
  /-- `unix_millis_after(Duration::ZERO)`, which is capped at the machine range. -/
  now : Nat
  nowBound : now ≤ u64Max
  authorize : SessionAuthzRequest → Except String SessionAuthzDecision
  lookup : Uuid → PublicKey → Except String (Option EnrolledDevice)
  jwksLookup : String → Except JwksError PublicKey
  /-- Whether writing the pairing file succeeds. -/
  persist : Except String Unit
  /-- The four bytes of the next share code. -/
  randomCode : BitVec 32
  /-- Whether the receiving end of a channel is still there. -/
  writable : ConnId → Bool
  redisUp : Bool
  /-- Iteration order of the peers table, which a hash map does not fix. -/
  shuffle : (peers : List ConnectedPeer) → { order : List ConnectedPeer // order.Perm peers }

/-! ## Redis -/

structure RemotePeer where
  instanceId : InstanceId
  tenantId : Uuid
  descriptor : PeerDescriptor
  publicKey : Option PublicKey
  deriving DecidableEq

structure RemoteSession where
  hostPeerId : Uuid
  clientPeerId : Uuid
  expiresUnixMillis : Nat
  deriving DecidableEq

structure DeliverEnvelope where
  peerId : Uuid
  message : ServerMessage
  deriving DecidableEq

/-- A published envelope on its way to one instance. `origin` is proof-only: the
tenant under which `broadcast_presence` announced the peer. It is not on the wire. -/
structure Published where
  envelope : DeliverEnvelope
  origin : Option Uuid
  deriving DecidableEq

/-- The keys and channels of a cluster. Expiry of a key is a step of the cluster,
so entries carry no deadline. -/
structure Redis where
  peers : AList (fun _ : Uuid => RemotePeer)
  hosts : List (Uuid × Uuid)
  sessions : AList (fun _ : Uuid => RemoteSession)
  pairs : List (Uuid × Uuid)
  subscribers : List InstanceId
  inbox : InstanceId → List Published

namespace Redis

def empty : Redis where
  peers := ∅
  hosts := []
  sessions := ∅
  pairs := []
  subscribers := []
  inbox := fun _ => []

def deliverTo (redis : Redis) (target : InstanceId) (message : Published) : Redis :=
  { redis with inbox := Function.update redis.inbox target (redis.inbox target ++ [message]) }

/-- Publish on the presence channel: every subscribed instance gets a copy. -/
def fanout (redis : Redis) (message : Published) : Redis :=
  redis.subscribers.foldl (fun r target => r.deliverTo target message) redis

end Redis

/-- One instance with the Redis it may share and the current environment. -/
structure Server where
  state : SignalingState
  redis : Redis
  env : Env

end Qubox.Signaling
