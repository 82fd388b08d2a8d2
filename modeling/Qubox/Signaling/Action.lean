import Qubox.Library.Interaction
import Qubox.Signaling.State

/-!
# Atomic steps of the signaling server

An action is what an operation does between two await points: one acquisition
of a lock with the work done under it, one Redis command, one send on an own
channel, or one question to the environment. `exec` is the meaning of each
action on a `Server`; the operations of `Qubox.Signaling.Operations` are
programs over this signature.

The read locks are modelled by the value read. The origin of a `broadcastAll` is
proof-only, like that of the envelope it comes from. Actions named after a table
entry change that table and nothing else, which the simp set below records
field by field.
-/

namespace Qubox.Signaling

open Interaction

/-- Redis commands issued by `ClusterBus`. -/
inductive BusCommand where
  | setPeer (peerId : Uuid) (record : RemotePeer)
  | addHost (tenantId peerId : Uuid)
  | delPeer (peerId : Uuid)
  | removeHost (tenantId peerId : Uuid)
  | getPeer (peerId : Uuid)
  | members (tenantId : Uuid)
  | setSession (sessionId : Uuid) (session : RemoteSession)
  | getSession (sessionId : Uuid)
  | setPair (host client : Uuid)
  | getPair (host client : Uuid)
  | publishTo (target : InstanceId) (envelope : DeliverEnvelope)
  | publishPresence (origin : Uuid) (envelope : DeliverEnvelope)
  deriving DecidableEq

@[reducible] def BusCommand.Answer : BusCommand → Type
  | .getPeer _ => Option RemotePeer
  | .members _ => List Uuid
  | .getSession _ => Option RemoteSession
  | .getPair _ _ => Bool
  | _ => Unit

def Redis.exec : (command : BusCommand) → Redis → command.Answer × Redis
  | .setPeer peerId record, r => ((), { r with peers := r.peers.insert peerId record })
  | .addHost tenantId peerId, r =>
      ((), { r with hosts := (tenantId, peerId) :: r.hosts.filter (· ≠ (tenantId, peerId)) })
  | .delPeer peerId, r => ((), { r with peers := r.peers.erase peerId })
  | .removeHost tenantId peerId, r =>
      ((), { r with hosts := r.hosts.filter (· ≠ (tenantId, peerId)) })
  | .getPeer peerId, r => (r.peers.lookup peerId, r)
  | .members tenantId, r => ((r.hosts.filter (·.1 = tenantId)).map Prod.snd, r)
  | .setSession sessionId session, r =>
      ((), { r with sessions := r.sessions.insert sessionId session })
  | .getSession sessionId, r => (r.sessions.lookup sessionId, r)
  | .setPair host client, r =>
      ((), { r with pairs := (host, client) :: r.pairs.filter (· ≠ (host, client)) })
  | .getPair host client, r => (r.pairs.contains (host, client), r)
  | .publishTo target envelope, r => ((), r.deliverTo target ⟨envelope, none⟩)
  | .publishPresence origin envelope, r => ((), r.fanout ⟨envelope, some origin⟩)

inductive Action where
  -- `peers`
  | getPeer (peerId : Uuid)
  | listPeers
  | insertPeer (peer : ConnectedPeer)
  | removePeer (peerId : Uuid)
  | bumpHeartbeat (peerId : Uuid)
  | sendLocal (peerId : Uuid) (message : ServerMessage)
  | broadcastLocal (subject tenantId : Uuid) (message : ServerMessage)
  | broadcastAll (origin : Option Uuid) (message : ServerMessage)
  -- the socket's own channel, no lock
  | reply (connection : ConnId) (message : ServerMessage)
  -- `pending_pairings`
  | insertPending (pending : PendingPairing)
  | takePending (requestId : Uuid)
  -- `sessions`
  | pruneSessions (now : Nat)
  | getSession (sessionId : Uuid)
  | insertSession (sessionId : Uuid) (session : ActiveSession)
  | removeSession (sessionId : Uuid)
  | dropSessionsOf (hostPeerId clientPeerId : Uuid)
  | dropSessionsFor (peerId : Uuid)
  -- `pairing_store`
  | isPaired (hostPeerId clientPeerId : Uuid)
  | addPairing (grant : PairingGrant)
  | removePairing (hostPeerId clientPeerId : Uuid)
  | persist (snapshot : List PairingGrant)
  -- `share_links`
  | insertShareLink (code : String) (entry : ShareLinkEntry)
  | findShareLink (code : String)
  -- `jti_cache`
  | checkAndMark (jti : String) (expUnixMs nowUnixMs : Nat)
  | denylist (jti : String) (expUnixMs : Nat)
  -- environment
  | now
  | authorize (request : SessionAuthzRequest)
  | enrollmentLookup (deviceId : Uuid) (publicKey : PublicKey)
  | jwksLookup (kid : String)
  | randomCode
  -- Redis
  | bus (command : BusCommand)
  | receive (target : InstanceId)
  deriving DecidableEq

/-- Result of looking a share code up under the write lock. -/
inductive ShareLinkLookup where
  | unknown
  | expired
  | found (entry : ShareLinkEntry)

@[reducible] def Action.Answer : Action → Type
  | .getPeer _ => Option ConnectedPeer
  | .listPeers => List ConnectedPeer
  | .insertPeer _ => Bool
  | .removePeer _ => Option ConnectedPeer
  | .bumpHeartbeat _ => Option Nat
  | .sendLocal _ _ => Option Bool
  | .takePending _ => Option PendingPairing
  | .getSession _ => Option ActiveSession
  | .removeSession _ => Option ActiveSession
  | .isPaired _ _ => Bool
  | .addPairing _ => List PairingGrant
  | .removePairing _ _ => List PairingGrant × Bool
  | .persist _ => Except String Unit
  | .findShareLink _ => ShareLinkLookup
  | .checkAndMark _ _ _ => Except JtiError Unit
  | .denylist _ _ => Except JtiError Unit
  | .now => Nat
  | .authorize _ => Except String SessionAuthzDecision
  | .enrollmentLookup _ _ => Except String (Option EnrolledDevice)
  | .jwksLookup _ => Except JwksError PublicKey
  | .randomCode => BitVec 32
  | .bus command => Except String command.Answer
  | .receive _ => Option Published
  | _ => Unit

@[reducible] def signature : Signature where
  Action := Action
  Answer := Action.Answer

/-- Perform one action of the server and return its answer. -/
abbrev perform {ε : Type} (a : Action) : Program signature ε a.Answer :=
  Program.perform (S := signature) a

namespace Server

/-- Put a message on a channel. The send fails when the receiver is gone. -/
def push (s : Server) (connection : ConnId) (message : ServerMessage) : Server :=
  if s.env.writable connection then
    { s with state := { s.state with outbound := s.state.outbound ++ [(connection, message)] } }
  else s

/-- Put a message on the channels of several peers, one after the other. -/
def pushAll (s : Server) (peers : List ConnectedPeer) (message : ServerMessage) : Server :=
  peers.foldl (fun s peer => s.push peer.outbound message) s

def setPeers (s : Server) (peers : AList (fun _ : Uuid => ConnectedPeer)) : Server :=
  { s with state := { s.state with peers } }

def setPending (s : Server) (pendingPairings : AList (fun _ : Uuid => PendingPairing)) : Server :=
  { s with state := { s.state with pendingPairings } }

def setSessions (s : Server) (sessions : AList (fun _ : Uuid => ActiveSession)) : Server :=
  { s with state := { s.state with sessions } }

def setPairings (s : Server) (pairings : List PairingGrant) : Server :=
  { s with state := { s.state with pairings } }

def setShareLinks (s : Server) (shareLinks : AList (fun _ : String => ShareLinkEntry)) : Server :=
  { s with state := { s.state with shareLinks } }

/-- The peers that hear of a change of `subject`: the others of its tenant. -/
def audience (s : Server) (subject tenantId : Uuid) : List ConnectedPeer :=
  (s.env.shuffle (s.state.peers.retain (fun peerId peer =>
    peerId ≠ subject && peer.tenantId = tenantId)).values).1

/-- `add_pairing` under the write lock: a grant is stored once. -/
def withGrant (pairings : List PairingGrant) (grant : PairingGrant) : List PairingGrant :=
  if grant ∈ pairings then pairings else pairings ++ [grant]

/-- `remove_pairing` under the write lock. -/
def withoutGrant (pairings : List PairingGrant) (grant : PairingGrant) : List PairingGrant :=
  pairings.filter (· ≠ grant)

def execPersist (s : Server) (snapshot : List PairingGrant) : Except String Unit × Server :=
  match s.state.pairingFile with
  | none => (.ok (), s)
  | some _ =>
    match s.env.persist with
    | .error e => (.error e, s)
    | .ok () => (.ok (), { s with state := { s.state with pairingFile := some snapshot } })

def execFindShareLink (s : Server) (code : String) : ShareLinkLookup × Server :=
  match s.state.shareLinks.lookup code with
  | none => (.unknown, s)
  | some entry =>
    if entry.expiresUnixMs ≤ s.env.now then
      (.expired, s.setShareLinks (s.state.shareLinks.erase code))
    else (.found entry, s)

def execSendLocal (s : Server) (peerId : Uuid) (message : ServerMessage) :
    Option Bool × Server :=
  match s.state.peers.lookup peerId with
  | none => (none, s)
  | some peer => (some (s.env.writable peer.outbound), s.push peer.outbound message)

/-- The next envelope of an instance's subscription, if one has arrived. -/
def execReceive (s : Server) (target : InstanceId) : Option Published × Server :=
  match s.redis.inbox target with
  | [] => (none, s)
  | next :: rest =>
      (some next,
        { s with redis := { s.redis with inbox := Function.update s.redis.inbox target rest } })

def exec : (a : Action) → Server → a.Answer × Server
  | .getPeer peerId, s => (s.state.peers.lookup peerId, s)
  | .listPeers, s => ((s.env.shuffle s.state.peers.values).1, s)
  | .insertPeer peer, s =>
      if (s.state.peers.lookup peer.descriptor.peerId).isSome then (false, s)
      else (true, s.setPeers (s.state.peers.insert peer.descriptor.peerId peer))
  | .removePeer peerId, s =>
      (s.state.peers.lookup peerId, s.setPeers (s.state.peers.erase peerId))
  | .bumpHeartbeat peerId, s =>
      let bump (peer : ConnectedPeer) :=
        { peer with heartbeatCount := (peer.heartbeatCount + 1) % 2 ^ 64 }
      ((s.state.peers.lookup peerId).map (fun peer => (bump peer).heartbeatCount),
        s.setPeers (s.state.peers.adjust peerId bump))
  | .sendLocal peerId message, s => s.execSendLocal peerId message
  | .broadcastLocal subject tenantId message, s =>
      ((), s.pushAll (s.audience subject tenantId) message)
  | .broadcastAll _ message, s => ((), s.pushAll (s.env.shuffle s.state.peers.values).1 message)
  | .reply connection message, s => ((), s.push connection message)
  | .insertPending pending, s =>
      ((), s.setPending (s.state.pendingPairings.insert pending.requestId pending))
  | .takePending requestId, s =>
      (s.state.pendingPairings.lookup requestId,
        s.setPending (s.state.pendingPairings.erase requestId))
  | .pruneSessions now, s =>
      ((), s.setSessions (s.state.sessions.retain (fun _ session =>
        decide (now < session.expiresUnixMillis))))
  | .getSession sessionId, s => (s.state.sessions.lookup sessionId, s)
  | .insertSession sessionId session, s =>
      ((), s.setSessions (s.state.sessions.insert sessionId session))
  | .removeSession sessionId, s =>
      (s.state.sessions.lookup sessionId, s.setSessions (s.state.sessions.erase sessionId))
  | .dropSessionsOf h c, s =>
      ((), s.setSessions (s.state.sessions.retain (fun _ session => !decide (session.IsOf h c))))
  | .dropSessionsFor peerId, s =>
      ((), s.setSessions (s.state.sessions.retain (fun _ session =>
        session.hostPeerId ≠ peerId && session.clientPeerId ≠ peerId)))
  | .isPaired h c, s => (s.state.isPaired h c, s)
  | .addPairing grant, s =>
      let pairings := withGrant s.state.pairings grant
      (pairings, s.setPairings pairings)
  | .removePairing h c, s =>
      let pairings := withoutGrant s.state.pairings ⟨h, c⟩
      ((pairings, decide (pairings.length ≠ s.state.pairings.length)), s.setPairings pairings)
  | .persist snapshot, s => s.execPersist snapshot
  | .insertShareLink code entry, s => ((), s.setShareLinks (s.state.shareLinks.insert code entry))
  | .findShareLink code, s => s.execFindShareLink code
  | .checkAndMark jti exp now, s =>
      let (answer, jtiCache) := s.state.jtiCache.checkAndMark jti exp now
      (answer, { s with state := { s.state with jtiCache } })
  | .denylist jti exp, s =>
      let (answer, jtiCache) := s.state.jtiCache.denylist jti exp
      (answer, { s with state := { s.state with jtiCache } })
  | .now, s => (s.env.now, s)
  | .authorize request, s => (s.env.authorize request, s)
  | .enrollmentLookup deviceId publicKey, s => (s.env.lookup deviceId publicKey, s)
  | .jwksLookup kid, s => (s.env.jwksLookup kid, s)
  | .randomCode, s => (s.env.randomCode, s)
  | .bus command, s =>
      if s.env.redisUp then
        let (answer, redis) := Redis.exec command s.redis
        (.ok answer, { s with redis })
      else (.error "redis connection failed", s)
  | .receive target, s => s.execReceive target

end Server

@[reducible] def machine : Machine signature Server where
  exec := Server.exec

variable {ε α : Type}

theorem run_perform_bind (a : Action) (f : a.Answer → Program signature ε α) (s : Server) :
    machine.run (perform a >>= f) s =
      machine.run (f (Server.exec a s).1) (Server.exec a s).2 := rfl

theorem eval_perform_bind (a : Action) (f : a.Answer → Program signature Empty α) (s : Server) :
    machine.eval (perform a >>= f) s =
      machine.eval (f (Server.exec a s).1) (Server.exec a s).2 := rfl

end Qubox.Signaling
