import Qubox.Signaling.Socket

/-!
# Contracts of the operations

For every operation, the actions it can perform. Most of them are *quiet*: they
read a table, ask the environment, or send a message that is neither a pairing
prompt nor a presence event. Each contract below names the remaining actions of
its operation as hypotheses, so that a proof about some table instantiates
`ensure` with what it needs and never looks into an operation again.
-/

namespace Qubox

/-- Neither a pairing prompt nor a presence event. -/
def ServerMessage.Plain : ServerMessage → Prop
  | .pairingRequested _ => False
  | .presence _ => False
  | _ => True

/-- A share code is made for a host, and a grant of a host revoked, by message. -/
def ClientMessage.ActsForHost : ClientMessage → Prop
  | .createShareLink _ _ | .revokePairing _ _ => True
  | _ => False

namespace Signaling

open Interaction
open Interaction.Program (Upholds Attempted)

/-- Reads of the cluster's tables and deliveries of plain messages. Removing a
stale member from a host set is part of reading it. -/
def BusCommand.Quiet : BusCommand → Prop
  | .getPeer _ | .members _ | .getSession _ | .getPair _ _ | .removeHost _ _ => True
  | .publishTo _ envelope => envelope.message.Plain
  | _ => False

/-- Actions that leave all tables of the instance alone and send nothing but
plain messages. -/
def Action.Quiet : Action → Prop
  | .getPeer _ | .listPeers | .getSession _ | .isPaired _ _ | .persist _ => True
  | .now | .authorize _ | .enrollmentLookup _ _ | .jwksLookup _ | .randomCode => True
  | .sendLocal _ message | .reply _ message => message.Plain
  | .bus command => command.Quiet
  | _ => False

variable {ε ε' α β : Type} {A : (a : Action) → a.Answer → Prop} {E : Action → Prop}
  {Q : α → Prop}

/-! ## Building blocks -/

theorem orFail_upholds (e : ε) (o : Option α) :
    (orFail e o).Upholds A E (fun a => o = some a) := by
  cases o <;> simp [orFail]

theorem require_upholds (b : Bool) (e : ε) :
    (require b e).Upholds A E (fun _ => b = true) := by
  cases b <;> simp [require]

theorem liftExcept_upholds (wrap : ε → ε') (r : Except ε α) :
    (liftExcept wrap r).Upholds A E (fun a => r = .ok a) := by
  cases r <;> simp [liftExcept]

theorem ignore_upholds {p : Program signature ε α} (h : p.Upholds A E Q) :
    (ignore p : Program signature ε' Unit).Upholds A E (fun _ => True) :=
  h.attempt.bind fun _ _ => trivial

/-- Dropping what is known about the result. -/
theorem Upholds.forget {p : Program signature ε α} (h : p.Upholds A E Q) :
    p.Upholds A E (fun _ => True) :=
  h.mono (fun _ _ h => h) (fun _ h => h) fun _ _ => trivial

theorem command_upholds {c : BusCommand} (h : E (.bus c)) :
    (Bus.command c).Upholds A E (fun answer => A (.bus c) (.ok answer)) := by
  refine ⟨h, fun r answered => ?_⟩
  cases r with
  | ok answer => exact answered
  | error e => trivial

theorem Upholds.perform_bind {a : Action} {f : a.Answer → Program signature ε α} (h : E a)
    (rest : ∀ r, A a r → (f r).Upholds A E Q) : (perform a >>= f).Upholds A E Q :=
  ⟨h, rest⟩

theorem Upholds.command_bind {c : BusCommand} {f : c.Answer → Op α} (h : E (.bus c))
    (rest : ∀ answer, A (.bus c) (.ok answer) → (f answer).Upholds A E Q) :
    (Bus.command c >>= f).Upholds A E Q :=
  (command_upholds h).bind rest

variable (cfg : Config) (conn : ConnId)

section Quiet

variable (quiet : ∀ a : Action, a.Quiet → E a)

include quiet

omit quiet in
theorem sendTo_upholds_of {peerId : Uuid} {message : ServerMessage}
    (direct : E (.sendLocal peerId message)) (read : E (.bus (.getPeer peerId)))
    (routed : ∀ target, E (.bus (.publishTo target ⟨peerId, message⟩))) :
    (sendTo cfg peerId message).Upholds A E (fun _ => True) := by
  refine Upholds.perform_bind direct fun sent _ => ?_
  cases sent with
  | some sent => exact Upholds.forget (require_upholds _ _)
  | none =>
      cases cfg.cluster with
      | none => trivial
      | some self =>
          refine Upholds.command_bind read fun found _ => ?_
          refine (orFail_upholds _ _).bind fun remote _ => ?_
          exact Upholds.forget (command_upholds (routed _))

theorem sendTo_upholds {peerId : Uuid} {message : ServerMessage} (plain : message.Plain) :
    (sendTo cfg peerId message).Upholds A E (fun _ => True) :=
  sendTo_upholds_of cfg (quiet _ plain) (quiet _ trivial) fun _ => quiet _ plain

theorem peerTenant_upholds (peerId : Uuid) :
    (peerTenant peerId).Upholds A E (fun _ => True) :=
  ⟨quiet _ trivial, fun _ _ => trivial⟩

theorem peerAccountId_upholds (peerId : Uuid) :
    (peerAccountId peerId).Upholds A E (fun _ => True) :=
  ⟨quiet _ trivial, fun _ _ => trivial⟩

theorem resolveEnrollmentFull_upholds (deviceId : Uuid) (publicKey : PublicKey) :
    (resolveEnrollmentFull cfg deviceId publicKey).Upholds A E (fun _ => True) := by
  unfold resolveEnrollmentFull
  cases cfg.enrollment with
  | openAll => trivial
  | managed =>
      refine Upholds.perform_bind (quiet _ (by trivial)) fun found _ => ?_
      refine (liftExcept_upholds _ _).bind fun found _ => ?_
      refine (orFail_upholds _ _).bind fun info _ => ?_
      exact (require_upholds _ _).bind fun _ _ => trivial

theorem findHostPeerForDevice_upholds (deviceId : Uuid) :
    (findHostPeerForDevice deviceId).Upholds A E (fun _ => True) :=
  ⟨quiet _ trivial, fun _ _ => trivial⟩

theorem collectHosts_upholds (tenantId : Uuid) (ids : List Uuid) :
    (Bus.collectHosts tenantId ids).Upholds A E (fun _ => True) := by
  induction ids with
  | nil => trivial
  | cons peerId ids ih =>
      refine Upholds.command_bind (quiet _ (by trivial)) fun found _ => ?_
      cases found with
      | some peer => exact ih.bind fun _ _ => trivial
      | none => exact Upholds.command_bind (quiet _ (by trivial)) fun _ _ => ih

theorem listHosts_upholds (viewerTenant : Uuid) :
    (listHosts cfg viewerTenant).Upholds A E (fun _ => True) := by
  refine Upholds.perform_bind (quiet _ (by trivial)) fun peers _ => ?_
  dsimp only
  cases cfg.cluster with
  | none => trivial
  | some self =>
      have remote : (Bus.listHosts viewerTenant).Upholds A E (fun _ => True) :=
        Upholds.command_bind (quiet _ (by trivial)) fun ids _ => collectHosts_upholds quiet _ ids
      refine remote.attempt.bind fun answer _ => ?_
      cases answer <;> trivial

/-- The store is asked first; the bus is only asked when the store has no grant. -/
theorem isPairedCluster_upholds (h c : Uuid) :
    (isPairedCluster cfg h c).Upholds A E (fun paired => paired = true →
      A (.isPaired h c) true ∨ (cfg.cluster.isSome ∧ A (.bus (.getPair h c)) (.ok true))) := by
  refine Upholds.perform_bind (quiet _ (by trivial)) fun stored answered => ?_
  cases stored with
  | true => exact fun _ => .inl answered
  | false =>
      cases clustered : cfg.cluster with
      | none => simp
      | some self =>
          have asked : (Bus.command (.getPair h c)).Upholds A E
              (fun paired => A (.bus (.getPair h c)) (.ok paired)) :=
            command_upholds (quiet _ trivial)
          refine asked.attempt.bind fun answer told => ?_
          cases answer with
          | ok paired =>
              rintro rfl
              exact .inr ⟨rfl, told⟩
          | error e => simp

theorem resolveHost_upholds (clientTenant hostPeerId : Uuid) :
    (resolveHost cfg clientTenant hostPeerId).Upholds A E (fun _ => True) := by
  refine Upholds.perform_bind (quiet _ (by trivial)) fun found _ => ?_
  cases found with
  | some host =>
      refine (require_upholds _ _).bind fun _ _ => ?_
      exact (require_upholds _ _).bind fun _ _ => trivial
  | none =>
      cases cfg.cluster with
      | none => trivial
      | some self =>
          refine Upholds.command_bind (quiet _ (by trivial)) fun found _ => ?_
          refine (orFail_upholds _ _).bind fun remote _ => ?_
          refine (require_upholds _ _).bind fun _ _ => ?_
          exact (require_upholds _ _).bind fun _ _ => trivial

theorem gatePairing_upholds (host : PeerDescriptor) (pending : PendingPairing) (requestId : Uuid) :
    (gatePairing cfg host pending requestId).Upholds A E (fun _ => True) := by
  unfold gatePairing
  split
  · refine Upholds.perform_bind (quiet _ (by trivial)) fun answer _ => ?_
    split
    · exact Upholds.bind (ignore_upholds (sendTo_upholds cfg quiet (by trivial))) fun _ _ => trivial
    · trivial
    · trivial
  · trivial

theorem authorizeSession_upholds (client host : PeerDescriptor) (request : StartSessionRequest) :
    (authorizeSession cfg client host request).Upholds A E (fun _ => True) := by
  unfold authorizeSession
  split
  · refine Upholds.perform_bind (quiet _ (by trivial)) fun answer _ => ?_
    split
    · trivial
    · exact Upholds.bind (ignore_upholds (sendTo_upholds cfg quiet (by trivial))) fun _ _ => trivial
    · trivial
    · trivial
  · trivial

theorem mayRevoke_upholds (actor : PeerDescriptor) (hostPeerId : Uuid) :
    (mayRevoke actor hostPeerId).Upholds A E (fun _ => True) := by
  unfold mayRevoke
  split
  · exact ⟨quiet _ trivial, fun _ _ => trivial⟩
  · trivial

theorem findSession_upholds (sessionId : Uuid) :
    (findSession cfg sessionId).Upholds A E (fun _ => True) := by
  refine Upholds.perform_bind (quiet _ (by trivial)) fun found _ => ?_
  cases found with
  | some session => trivial
  | none =>
      cases cfg.cluster with
      | none => trivial
      | some self =>
          exact Upholds.command_bind (quiet _ (by trivial)) fun found _ =>
            Upholds.forget (orFail_upholds _ _)

theorem shareLinkHost_upholds (actor : PeerDescriptor) :
    (shareLinkHost actor).Upholds A E (fun _ => True) := by
  unfold shareLinkHost
  split
  · trivial
  · refine Upholds.perform_bind (quiet _ (by trivial)) fun peers _ => ?_
    exact (orFail_upholds _ _).bind fun _ _ => trivial

theorem verifyBundle_upholds (envelope : SignedBundle) :
    (verifyBundle cfg envelope).Upholds A E (fun _ => True) := by
  refine Upholds.perform_bind (quiet _ (by trivial)) fun key _ => ?_
  refine (liftExcept_upholds _ _).bind fun key _ => ?_
  refine (liftExcept_upholds _ _).bind fun _ _ => ?_
  exact Upholds.forget (liftExcept_upholds _ _)

theorem decodeBundle_upholds (payload : SignedBundle → Except SignedBundleError α)
    (envelope : SignedBundle) :
    (decodeBundle cfg payload envelope).Upholds A E (fun a => payload envelope = .ok a) := by
  unfold decodeBundle
  split
  · refine (verifyBundle_upholds cfg quiet envelope).bind fun _ _ => ?_
    refine Upholds.perform_bind (quiet _ (by trivial)) fun key _ => ?_
    refine (liftExcept_upholds _ _).bind fun key _ => ?_
    refine (liftExcept_upholds _ _).bind fun _ _ => ?_
    refine (liftExcept_upholds _ _).bind fun _ _ => ?_
    exact liftExcept_upholds _ _
  · trivial

theorem verifyIceAllowlist_upholds (envelope : SignedBundle) (now : Nat) :
    (verifyIceAllowlist cfg envelope now).Upholds A E (fun _ => True) := by
  refine (decodeBundle_upholds cfg quiet _ _).bind fun payload _ => ?_
  exact (require_upholds _ _).bind fun _ _ => trivial

theorem sendError_upholds (peer : PeerDescriptor) (code message : String) :
    (sendError cfg peer code message).Upholds A E (fun _ => True) :=
  ignore_upholds (sendTo_upholds cfg quiet (by trivial))

theorem replyError_upholds (code message : String) :
    (replyError conn code message).Upholds A E (fun _ => True) :=
  ⟨quiet _ trivial, fun _ _ => trivial⟩

theorem echoKill_upholds (envelope : SignedBundle) (kill : SignedKill) :
    (echoKill cfg envelope kill).Upholds A E (fun _ => True) := by
  unfold echoKill
  split
  · trivial
  · refine (findHostPeerForDevice_upholds quiet _).bind fun found _ => ?_
    cases found with
    | none => trivial
    | some hostPeerId => exact ignore_upholds (sendTo_upholds cfg quiet (by trivial))

/-! ## Operations that write a table -/

omit quiet in
theorem registerPeer_upholds {self : InstanceId} {peerId tenantId : Uuid}
    {descriptor : PeerDescriptor} {publicKey : Option PublicKey}
    (record : E (.bus (.setPeer peerId ⟨self, tenantId, descriptor, publicKey⟩)))
    (member : E (.bus (.addHost tenantId peerId))) :
    (Bus.registerPeer self peerId tenantId descriptor publicKey).Upholds A E (fun _ => True) := by
  refine Upholds.command_bind record fun _ _ => ?_
  split
  · exact Upholds.forget (command_upholds member)
  · trivial

omit quiet in
theorem recordPeer_upholds {descriptor : PeerDescriptor} {publicKey : Option PublicKey}
    {tenantId : Uuid}
    (record : ∀ self,
      E (.bus (.setPeer descriptor.peerId ⟨self, tenantId, descriptor, publicKey⟩)))
    (member : E (.bus (.addHost tenantId descriptor.peerId))) :
    (recordPeer cfg descriptor publicKey tenantId).Upholds A E (fun _ => True) := by
  unfold recordPeer
  split
  · exact ignore_upholds (registerPeer_upholds (record _) member)
  · trivial

omit quiet in
theorem register_upholds {descriptor : PeerDescriptor} {publicKey : Option PublicKey}
    {tenantId accountId : Uuid}
    (insert : E (.insertPeer ⟨descriptor, conn, publicKey, tenantId, accountId, 0⟩))
    (record : ∀ self,
      E (.bus (.setPeer descriptor.peerId ⟨self, tenantId, descriptor, publicKey⟩)))
    (member : E (.bus (.addHost tenantId descriptor.peerId))) :
    (register cfg descriptor publicKey tenantId accountId conn).Upholds A E (fun _ =>
      A (.insertPeer ⟨descriptor, conn, publicKey, tenantId, accountId, 0⟩) true) := by
  refine Upholds.perform_bind insert fun inserted answered => ?_
  refine (require_upholds _ _).bind fun _ entered => ?_
  subst entered
  exact (recordPeer_upholds cfg record member).mono (fun _ _ h => h) (fun _ h => h)
    fun _ _ => answered

theorem unregisterPeer_upholds {peerId : Uuid} (forgotten : E (.bus (.delPeer peerId)))
    (tenantId : Uuid) (wasHost : Bool) :
    (Bus.unregisterPeer peerId tenantId wasHost).Upholds A E (fun _ => True) := by
  refine Upholds.command_bind forgotten fun _ _ => ?_
  split
  · exact Upholds.forget (command_upholds (quiet _ trivial))
  · trivial

theorem forgetPeer_upholds {peerId : Uuid} (forgotten : E (.bus (.delPeer peerId)))
    (removed : Option ConnectedPeer) :
    (forgetPeer cfg peerId removed).Upholds A E (fun _ => True) := by
  unfold forgetPeer
  split
  · exact ignore_upholds (unregisterPeer_upholds quiet forgotten _ _)
  · trivial

theorem unregister_upholds {peerId : Uuid} (remove : E (.removePeer peerId))
    (forgotten : E (.bus (.delPeer peerId))) :
    (unregister cfg peerId).Upholds A E (fun _ => True) := by
  refine Upholds.perform_bind remove fun removed _ => ?_
  exact (forgetPeer_upholds cfg quiet forgotten removed).bind fun _ _ => trivial

/-- The two actions by which a change of presence is announced. -/
structure Announces (E : Action → Prop) (descriptor : PeerDescriptor) (tenantId : Uuid)
    (connected : Bool) : Prop where
  direct : E (.broadcastLocal descriptor.peerId tenantId (.presence ⟨descriptor, connected⟩))
  published : E (.bus (.publishPresence tenantId
    ⟨Uuid.nil, .presence ⟨descriptor, connected⟩⟩))

omit quiet in
theorem broadcastPresence_upholds {descriptor : PeerDescriptor} {tenantId : Uuid}
    {connected : Bool} (announce : Announces E descriptor tenantId connected) :
    (broadcastPresence cfg descriptor tenantId connected).Upholds A E (fun _ => True) := by
  refine Upholds.perform_bind announce.direct fun _ _ => ?_
  split
  · exact ignore_upholds (command_upholds announce.published)
  · trivial

theorem handleHeartbeat_upholds {peerId : Uuid} (bump : E (.bumpHeartbeat peerId))
    (announce : ∀ peer, A (.getPeer peerId) (some peer) →
      Announces E peer.descriptor peer.tenantId true) :
    (handleHeartbeat cfg peerId).Upholds A E (fun _ => True) := by
  refine Upholds.perform_bind bump fun count _ => ?_
  cases count with
  | none => trivial
  | some count =>
      dsimp only
      split
      · refine Upholds.perform_bind (quiet _ (by trivial)) fun found answered => ?_
        cases found with
        | none => trivial
        | some peer => exact broadcastPresence_upholds cfg (announce peer answered)
      · trivial

omit quiet in
theorem clusterListener_upholds {self : InstanceId} (receive : E (.receive self))
    (fanout : ∀ next, A (.receive self) (some next) → next.envelope.peerId.isNil = true →
      E (.broadcastAll next.origin next.envelope.message))
    (direct : ∀ next, A (.receive self) (some next) → next.envelope.peerId.isNil = false →
      E (.sendLocal next.envelope.peerId next.envelope.message)) :
    (clusterListener self).Upholds A E (fun _ => True) := by
  refine Upholds.perform_bind receive fun next answered => ?_
  cases next with
  | none => trivial
  | some next =>
      dsimp only
      split
      case isTrue presence => exact ⟨fanout next answered presence, fun _ _ => trivial⟩
      case isFalse named =>
          exact Upholds.perform_bind (direct next answered (by simpa using named))
            fun _ _ => trivial

theorem requestPairing_upholds {client : PeerDescriptor} {request : PairingRequest}
    (insert : ∀ account, E (.insertPending
      ⟨request.requestId, request.hostPeerId, client, request.clientLabel, account⟩))
    (prompt : E (.sendLocal request.hostPeerId (.pairingRequested
      ⟨request.requestId, request.hostPeerId, client, request.clientLabel⟩)))
    (routed : ∀ target, E (.bus (.publishTo target ⟨request.hostPeerId, .pairingRequested
      ⟨request.requestId, request.hostPeerId, client, request.clientLabel⟩⟩))) :
    (requestPairing cfg client request).Upholds A E (fun _ => True) := by
  have known : (peerTenantAccount client.peerId).Upholds A E (fun _ => True) :=
    ⟨quiet _ trivial, fun _ _ => trivial⟩
  refine known.bind fun found _ => ?_
  refine (orFail_upholds _ _).bind fun (clientTenant, clientAccountId) _ => ?_
  refine (resolveHost_upholds cfg quiet _ _).bind fun _ _ => ?_
  refine Upholds.perform_bind (insert _) fun _ _ => ?_
  exact sendTo_upholds_of cfg prompt (quiet _ trivial) routed

theorem addPairing_upholds {grant : PairingGrant} (add : E (.addPairing grant)) :
    (addPairing grant).Upholds A E (fun _ => ∃ stored, A (.addPairing grant) stored) := by
  refine Upholds.perform_bind add fun snapshot stored => ?_
  refine Upholds.perform_bind (quiet _ (by trivial)) fun written _ => ?_
  exact (liftExcept_upholds _ _).mono (fun _ _ h => h) (fun _ h => h) fun _ _ => ⟨_, stored⟩

theorem removePairing_upholds {h c : Uuid} (remove : E (.removePairing h c)) :
    (removePairing h c).Upholds A E (fun _ => True) := by
  refine Upholds.perform_bind remove fun (snapshot, removed) _ => ?_
  cases removed with
  | false => trivial
  | true =>
      refine Upholds.perform_bind (quiet _ (by trivial)) fun written _ => ?_
      exact (liftExcept_upholds _ _).bind fun _ _ => trivial

omit quiet in
theorem announcePairing_upholds {grant : PairingGrant}
    (announce : E (.bus (.setPair grant.hostPeerId grant.clientPeerId))) :
    (announcePairing cfg grant).Upholds A E (fun _ => True) := by
  unfold announcePairing
  split
  · exact ignore_upholds (command_upholds announce)
  · trivial

omit quiet in
theorem announceSession_upholds {sessionId : Uuid} {session : RemoteSession}
    (announce : E (.bus (.setSession sessionId session))) :
    (announceSession cfg sessionId session).Upholds A E (fun _ => True) := by
  unfold announceSession
  split
  · exact ignore_upholds (command_upholds announce)
  · trivial

/-- The two actions that make a grant: it is added, and then announced. -/
structure Grants (A : (a : Action) → a.Answer → Prop) (E : Action → Prop) (h c : Uuid) :
    Prop where
  add : E (.addPairing ⟨h, c⟩)
  announce : ∀ stored, A (.addPairing ⟨h, c⟩) stored → E (.bus (.setPair h c))

theorem judgePairing_upholds {host : PeerDescriptor} {decision : PairingDecision}
    {pending : PendingPairing}
    (grants : pending.hostPeerId = host.peerId → decision.approved = true →
      Grants A E pending.hostPeerId pending.client.peerId) :
    (judgePairing cfg host decision pending).Upholds A E (fun _ => True) := by
  refine (require_upholds _ _).bind fun _ _ => ?_
  refine (require_upholds _ _).bind fun _ same => ?_
  split
  case isTrue approved =>
      have granted := grants (of_decide_eq_true same) approved
      refine (gatePairing_upholds cfg quiet _ _ _).bind fun _ _ => ?_
      refine (addPairing_upholds quiet granted.add).bind fun _ ⟨snapshot, stored⟩ => ?_
      refine (announcePairing_upholds cfg (granted.announce snapshot stored)).bind fun _ _ => ?_
      exact Upholds.bind (ignore_upholds (sendTo_upholds cfg quiet (by trivial))) fun _ _ => trivial
  case isFalse =>
      exact Upholds.bind (ignore_upholds (sendTo_upholds cfg quiet (by trivial))) fun _ _ => trivial

theorem decidePairing_upholds {host : PeerDescriptor} {decision : PairingDecision}
    (take : E (.takePending decision.requestId))
    (grants : ∀ pending, A (.takePending decision.requestId) (some pending) →
      pending.hostPeerId = host.peerId → decision.approved = true →
      Grants A E pending.hostPeerId pending.client.peerId) :
    (decidePairing cfg host decision).Upholds A E (fun _ => True) := by
  refine Upholds.perform_bind take fun found answered => ?_
  refine (orFail_upholds _ _).bind fun pending taken => ?_
  subst taken
  exact judgePairing_upholds cfg quiet (grants pending answered)

theorem pruneExpiredSessions_upholds (prune : ∀ now, E (.pruneSessions now)) :
    pruneExpiredSessions.Upholds A E (fun _ => True) :=
  Upholds.perform_bind (quiet _ (by trivial)) fun now _ => ⟨prune now, fun _ _ => trivial⟩

/-- `ensure_paired` ends with the pair known to be paired: the store or the bus
said so, or policy just added the grant. -/
theorem ensurePaired_upholds {h c : Uuid} {policyAutoPair : Bool} (grants : Grants A E h c) :
    (ensurePaired cfg c h policyAutoPair).Upholds A E (fun _ =>
      A (.isPaired h c) true ∨ (cfg.cluster.isSome ∧ A (.bus (.getPair h c)) (.ok true)) ∨
        ∃ stored, A (.addPairing ⟨h, c⟩) stored) := by
  refine (isPairedCluster_upholds cfg quiet h c).bind fun paired known => ?_
  split
  · rcases known ‹_› with stored | announced
    · exact .inl stored
    · exact .inr (.inl announced)
  · split
    · refine (addPairing_upholds quiet grants.add).bind fun _ ⟨snapshot, stored⟩ => ?_
      refine (announcePairing_upholds cfg (grants.announce snapshot stored)).bind fun _ _ => ?_
      exact (ignore_upholds (sendTo_upholds cfg quiet (by trivial))).mono (fun _ _ h => h)
        (fun _ h => h) fun _ _ => .inr (.inr ⟨snapshot, stored⟩)
    · trivial

/-- The session to be stored is one of the pair, and lives for ten minutes from
the reading of the clock. -/
theorem prepareSession_upholds {client host : PeerDescriptor}
    {hostKey clientKey : Option PublicKey} {request : StartSessionRequest}
    {permissions : SessionPermissions} :
    (prepareSession cfg client host hostKey clientKey request permissions).Upholds A E
      (fun result => result.1.IsOf request.targetHostId client.peerId ∧
        ∃ now, A .now now ∧
          result.1.expiresUnixMillis = saturatingAdd now sessionTokenTtlMillis) := by
  refine (orFail_upholds _ _).bind fun transport _ => ?_
  refine (orFail_upholds _ _).bind fun codec _ => ?_
  refine (orFail_upholds _ _).bind fun hostPubkey _ => ?_
  refine (orFail_upholds _ _).bind fun clientPubkey _ => ?_
  refine Upholds.perform_bind (quiet _ (by trivial)) fun issued clock => ?_
  refine Upholds.bind (sendTo_upholds cfg quiet (by trivial)) fun _ _ => ?_
  exact ⟨⟨rfl, rfl⟩, issued, clock, rfl⟩

/-- What is known when `start_session` gets to the point of storing a session. -/
structure Planned (cfg : Config) (A : (a : Action) → a.Answer → Prop) (client : PeerDescriptor)
    (request : StartSessionRequest) (session : ActiveSession) : Prop where
  isOf : session.IsOf request.targetHostId client.peerId
  paired : A (.isPaired request.targetHostId client.peerId) true ∨
    (cfg.cluster.isSome ∧ A (.bus (.getPair request.targetHostId client.peerId)) (.ok true)) ∨
    ∃ stored, A (.addPairing ⟨request.targetHostId, client.peerId⟩) stored
  expires : ∃ now, A .now now ∧
    session.expiresUnixMillis = saturatingAdd now sessionTokenTtlMillis

theorem planSession_upholds {client : PeerDescriptor} {request : StartSessionRequest}
    (prune : ∀ now, E (.pruneSessions now))
    (grants : Grants A E request.targetHostId client.peerId) :
    (planSession cfg client request).Upholds A E
      (fun result => Planned cfg A client request result.1) := by
  refine (pruneExpiredSessions_upholds quiet prune).bind fun _ _ => ?_
  refine Upholds.perform_bind (quiet _ (by trivial)) fun found _ => ?_
  refine (orFail_upholds _ _).bind fun self _ => ?_
  refine (resolveHost_upholds cfg quiet _ _).bind fun (host, hostKey) _ => ?_
  refine (peerAccountId_upholds quiet _).bind fun _ _ => ?_
  refine (authorizeSession_upholds cfg quiet _ _ _).bind fun (permissions, policyAutoPair) _ => ?_
  refine (ensurePaired_upholds cfg quiet grants).bind fun _ known => ?_
  exact (prepareSession_upholds cfg quiet).mono (fun _ _ h => h) (fun _ h => h)
    fun _ prepared => ⟨prepared.1, known, prepared.2⟩

/-- A session is only inserted behind the pairing check. -/
theorem startSession_upholds {client : PeerDescriptor} {request : StartSessionRequest}
    (prune : ∀ now, E (.pruneSessions now))
    (grants : Grants A E request.targetHostId client.peerId)
    (insert : ∀ session, Planned cfg A client request session →
      E (.insertSession request.sessionId session))
    (announce : ∀ session, session.IsOf request.targetHostId client.peerId →
      A (.insertSession request.sessionId session) () → E (.bus (.setSession request.sessionId
        ⟨session.hostPeerId, session.clientPeerId, session.expiresUnixMillis⟩))) :
    (startSession cfg client request).Upholds A E (fun _ => True) := by
  refine (planSession_upholds cfg quiet prune grants).bind fun (session, plan) planned => ?_
  refine Upholds.perform_bind (insert session planned) fun _ stored => ?_
  exact (announceSession_upholds cfg (announce session planned.isOf stored)).bind
    fun _ _ => trivial

theorem revokePairing_upholds {actor : PeerDescriptor} {h c : Uuid}
    (remove : E (.removePairing h c)) (drop : E (.dropSessionsOf h c)) :
    (revokePairing cfg actor h c).Upholds A E (fun _ => True) := by
  refine (mayRevoke_upholds quiet actor h).bind fun allowed _ => ?_
  refine (require_upholds _ _).bind fun _ _ => ?_
  refine (removePairing_upholds quiet remove).bind fun removed _ => ?_
  refine (require_upholds _ _).bind fun _ _ => ?_
  refine Upholds.perform_bind drop fun _ _ => ?_
  refine Upholds.bind (ignore_upholds (sendTo_upholds cfg quiet (by trivial))) fun _ _ => ?_
  exact ignore_upholds (sendTo_upholds cfg quiet (by trivial))

theorem finishKick_upholds {actor : PeerDescriptor} {sessionId : Uuid} {session : ActiveSession}
    {reason : String}
    (putBack : actor.peerId ≠ session.hostPeerId ∧ actor.peerId ≠ session.clientPeerId →
      E (.insertSession sessionId session)) :
    (finishKick cfg actor sessionId session reason).Upholds A E (fun _ => True) := by
  unfold finishKick
  split
  case isTrue stranger => exact Upholds.perform_bind (putBack stranger) fun _ _ => trivial
  case isFalse =>
      refine Upholds.bind (ignore_upholds (sendTo_upholds cfg quiet ?_)) fun _ _ => ?_
      · trivial
      · exact ignore_upholds (sendTo_upholds cfg quiet (by trivial))

/-- A kick re-inserts at most the session it has just removed. -/
theorem kickSession_upholds {actor : PeerDescriptor} {sessionId : Uuid} {reason : String}
    (remove : E (.removeSession sessionId))
    (putBack : ∀ session, A (.removeSession sessionId) (some session) →
      E (.insertSession sessionId session)) :
    (kickSession cfg actor sessionId reason).Upholds A E (fun _ => True) := by
  refine Upholds.perform_bind remove fun found answered => ?_
  refine (orFail_upholds _ _).bind fun session taken => ?_
  subst taken
  exact finishKick_upholds cfg quiet fun _ => putBack session answered

theorem relaySignal_upholds {peer : PeerDescriptor} {signal : RelaySignal}
    (prune : ∀ now, E (.pruneSessions now)) (remove : E (.removeSession signal.sessionId)) :
    (relaySignal cfg peer signal).Upholds A E (fun _ => True) := by
  refine (require_upholds _ _).bind fun _ _ => ?_
  refine (pruneExpiredSessions_upholds quiet prune).bind fun _ _ => ?_
  refine (findSession_upholds cfg quiet _).bind fun session _ => ?_
  refine Upholds.perform_bind (quiet _ (by trivial)) fun now _ => ?_
  split
  · exact Upholds.perform_bind remove fun _ _ => trivial
  · refine (require_upholds _ _).bind fun _ _ => ?_
    refine (isPairedCluster_upholds cfg quiet _ _).bind fun paired _ => ?_
    refine (require_upholds _ _).bind fun _ _ => ?_
    exact sendTo_upholds cfg quiet trivial

theorem createShareLink_upholds {actor : PeerDescriptor} {ttlSecs : Nat}
    {permissions : SessionPermissions} (insert : ∀ code entry, E (.insertShareLink code entry)) :
    (createShareLink actor ttlSecs permissions).Upholds A E (fun _ => True) := by
  refine (shareLinkHost_upholds quiet actor).bind fun (hostPeerId, hostLabel) _ => ?_
  refine Upholds.perform_bind (quiet _ (by trivial)) fun now _ => ?_
  refine Upholds.perform_bind (quiet _ (by trivial)) fun raw _ => ?_
  exact Upholds.perform_bind (insert _ _) fun _ _ => trivial

theorem redeemShareLink_upholds {client : PeerDescriptor} {code : String} (label : String)
    (find : E (.findShareLink code))
    (grants : ∀ entry, A (.findShareLink code) (.found entry) →
      E (.addPairing ⟨entry.hostPeerId, client.peerId⟩)) :
    (redeemShareLink cfg client code label).Upholds A E (fun _ => True) := by
  have looked : (lookupShareCode code).Upholds A E
      (fun entry => A (.findShareLink code) (.found entry)) := by
    refine Upholds.perform_bind find fun found answered => ?_
    cases found with
    | unknown | expired => trivial
    | found entry => exact answered
  refine looked.bind fun entry answered => ?_
  refine (addPairing_upholds quiet (grants entry answered)).bind fun _ _ => ?_
  refine Upholds.bind (ignore_upholds (sendTo_upholds cfg quiet (by trivial))) fun _ _ => ?_
  exact sendTo_upholds cfg quiet trivial

theorem verifyViewerToHost_upholds {envelope : SignedBundle} {hostDeviceId : Uuid} {now : Nat}
    (mark : ∀ jti exp now, E (.checkAndMark jti exp now)) :
    (verifyViewerToHost cfg envelope hostDeviceId now).Upholds A E (fun _ => True) := by
  refine (decodeBundle_upholds cfg quiet _ _).bind fun payload _ => ?_
  refine (require_upholds _ _).bind fun _ _ => ?_
  refine (require_upholds _ _).bind fun _ _ => ?_
  refine Upholds.perform_bind (mark _ _ _) fun fresh _ => ?_
  exact (liftExcept_upholds _ _).bind fun _ _ => trivial

theorem announceKill_upholds (payload : SignedKill) (sessionId : Uuid)
    (session : Option ActiveSession) :
    (announceKill cfg payload sessionId session).Upholds A E (fun _ => True) := by
  cases session with
  | none => trivial
  | some session =>
      refine Upholds.bind (ignore_upholds (sendTo_upholds cfg quiet (by trivial))) fun _ _ => ?_
      exact ignore_upholds (sendTo_upholds cfg quiet (by trivial))

theorem applySignedKill_upholds {envelope : SignedBundle} {now : Nat}
    (remove : ∀ sessionId, E (.removeSession sessionId))
    (deny : ∀ jti exp, E (.denylist jti exp)) :
    (applySignedKill cfg envelope now).Upholds A E
      (fun payload => cfg.payloadSignedKill envelope = .ok payload) := by
  refine (decodeBundle_upholds cfg quiet _ _).bind fun payload decoded => ?_
  refine (require_upholds _ _).bind fun _ _ => ?_
  refine (orFail_upholds _ _).bind fun sessionId _ => ?_
  refine Upholds.perform_bind (remove sessionId) fun session _ => ?_
  refine (announceKill_upholds cfg quiet payload sessionId session).bind fun _ _ => ?_
  exact Upholds.perform_bind (deny _ _) fun _ _ => decoded

theorem verifySessionBundle_upholds {request : StartSessionBundleRequest} {now : Nat}
    (mark : ∀ jti exp now, E (.checkAndMark jti exp now)) :
    (verifySessionBundle cfg request now).Upholds A E (fun _ => True) := by
  refine (verifyViewerToHost_upholds cfg quiet mark).attempt.bind fun viewer _ => ?_
  cases viewer with
  | error e => trivial
  | ok viewer =>
      dsimp only
      split
      · trivial
      · refine (verifyIceAllowlist_upholds cfg quiet _ _).attempt.bind fun allowlist _ => ?_
        cases allowlist <;> trivial

/-! ## Handshake and disconnection -/

/-- What admitting a peer under a tenant does. -/
structure Admits (A : (a : Action) → a.Answer → Prop) (E : Action → Prop) (conn : ConnId)
    (descriptor : PeerDescriptor) (publicKey : Option PublicKey) (tenantId accountId : Uuid) :
    Prop where
  insert : E (.insertPeer ⟨descriptor, conn, publicKey, tenantId, accountId, 0⟩)
  record : ∀ self, E (.bus (.setPeer descriptor.peerId ⟨self, tenantId, descriptor, publicKey⟩))
  member : E (.bus (.addHost tenantId descriptor.peerId))
  announce : A (.insertPeer ⟨descriptor, conn, publicKey, tenantId, accountId, 0⟩) true →
    Announces E descriptor tenantId true

theorem acceptPeer_upholds {descriptor : PeerDescriptor} {publicKey : Option PublicKey}
    {tenantId accountId : Uuid} {welcome : String}
    (admits : Admits A E conn descriptor publicKey tenantId accountId) :
    (acceptPeer cfg conn descriptor publicKey tenantId accountId welcome).Upholds A E
      (fun _ => True) := by
  refine (register_upholds cfg conn admits.insert admits.record admits.member).attempt.bind
    fun registered entered => ?_
  cases registered with
  | ok u =>
      refine Upholds.perform_bind (quiet _ (by trivial)) fun _ _ => ?_
      exact (broadcastPresence_upholds cfg (admits.announce entered)).bind fun _ _ => trivial
  | error e => exact (replyError_upholds conn quiet _ _).bind fun _ _ => trivial

theorem hello_upholds {descriptor : PeerDescriptor}
    (admits : Admits A E conn descriptor none Uuid.nil Uuid.nil) :
    (hello cfg conn descriptor).Upholds A E (fun _ => True) := by
  unfold hello
  split
  · exact (replyError_upholds conn quiet _ _).bind fun _ _ => trivial
  · split
    · exact (replyError_upholds conn quiet _ _).bind fun _ _ => trivial
    · exact acceptPeer_upholds cfg conn quiet admits

theorem signedHello_upholds {signed : SignedHello}
    (admits : ∀ tenantId accountId,
      Admits A E conn signed.descriptor (some signed.publicKey) tenantId accountId) :
    (signedHello cfg conn signed).Upholds A E (fun _ => True) := by
  unfold signedHello
  dsimp only
  split
  · exact (replyError_upholds conn quiet _ _).bind fun _ _ => trivial
  · refine (resolveEnrollmentFull_upholds cfg quiet _ _).attempt.bind fun enrolled _ => ?_
    cases enrolled with
    | ok enrollment => exact acceptPeer_upholds cfg conn quiet (admits _ _)
    | error e =>
        dsimp only
        split
        · exact acceptPeer_upholds cfg conn quiet (admits _ _)
        · exact (replyError_upholds conn quiet _ _).bind fun _ _ => trivial

theorem disconnect_upholds {peer : PeerDescriptor} (remove : E (.removePeer peer.peerId))
    (forgotten : E (.bus (.delPeer peer.peerId))) (drop : E (.dropSessionsFor peer.peerId))
    (announce : ∀ found, A (.getPeer peer.peerId) found →
      Announces E peer ((found.map ConnectedPeer.tenantId).getD Uuid.nil) false) :
    (disconnect cfg peer).Upholds A E (fun _ => True) := by
  have tenant : (peerTenant peer.peerId).Upholds A E (fun tenant => ∃ found,
      A (.getPeer peer.peerId) found ∧ tenant = found.map ConnectedPeer.tenantId) :=
    ⟨quiet _ trivial, fun found answered => ⟨found, answered, rfl⟩⟩
  refine tenant.bind fun tenant asked => ?_
  obtain ⟨found, answered, rfl⟩ := asked
  refine (unregister_upholds cfg quiet remove forgotten).bind fun _ _ => ?_
  refine Upholds.perform_bind drop fun _ _ => ?_
  exact broadcastPresence_upholds cfg (announce found answered)

end Quiet

/-! ## Messages of a registered peer -/

section Arms

variable (quiet : ∀ a : Action, a.Quiet → E a)

include quiet

theorem onCreateShareLink_upholds {peer : PeerDescriptor} {ttlSecs : Nat}
    {permissions : SessionPermissions} (insert : ∀ code entry, E (.insertShareLink code entry)) :
    (onCreateShareLink cfg peer ttlSecs permissions).Upholds A E (fun _ => True) := by
  refine (createShareLink_upholds quiet insert).attempt.bind fun answer _ => ?_
  cases answer with
  | ok link => exact ignore_upholds (sendTo_upholds cfg quiet (by trivial))
  | error e => exact sendError_upholds cfg quiet _ _ _

theorem onRevokePairing_upholds {peer : PeerDescriptor} {h c : Uuid}
    (remove : E (.removePairing h c)) (drop : E (.dropSessionsOf h c)) :
    (onRevokePairing cfg peer h c).Upholds A E (fun _ => True) := by
  refine (revokePairing_upholds cfg quiet remove drop).attempt.bind fun answer _ => ?_
  cases answer with
  | ok u => trivial
  | error e => exact sendError_upholds cfg quiet _ _ _

end Arms

/-- Every action except registering and unregistering, making a share code and
removing a grant. -/
def Action.Ordinary : Action → Prop
  | .insertPeer _ | .removePeer _ | .insertShareLink _ _ | .removePairing _ _ => False
  | _ => True

theorem ordinary_of_quiet (a : Action) (quiet : a.Quiet) : a.Ordinary := by
  cases a
  case insertPeer => exact quiet.elim
  case removePeer => exact quiet.elim
  case insertShareLink => exact quiet.elim
  case removePairing => exact quiet.elim
  all_goals trivial

theorem onBundleAccepted_ordinary (peer : PeerDescriptor) (request : StartSessionRequest)
    (viewer : ViewerToHost) :
    (onBundleAccepted cfg conn peer request viewer).Upholds (fun _ _ => True) Action.Ordinary
      (fun _ => True) := by
  have quiet : ∀ a : Action, a.Quiet → Action.Ordinary a := ordinary_of_quiet
  refine (startSession_upholds cfg quiet (fun _ => trivial) ⟨trivial, fun _ _ => trivial⟩
    (fun _ _ => trivial) fun _ _ _ => trivial).attempt.bind fun answer _ => ?_
  cases answer with
  | error e => exact replyError_upholds conn quiet _ _
  | ok plan =>
      refine Upholds.perform_bind trivial fun _ _ => ?_
      refine (findHostPeerForDevice_upholds quiet _).bind fun found _ => ?_
      cases found with
      | none => exact ⟨trivial, fun _ _ => trivial⟩
      | some hostPeerId =>
          exact Upholds.bind (ignore_upholds (sendTo_upholds cfg quiet (by trivial)))
            fun _ _ => ⟨trivial, fun _ _ => trivial⟩

/-- The arms that do not act for a host. They stay in the loop, except that the
bundle arm may return. -/
theorem handleMessage_ordinary {peer : PeerDescriptor} {message : ClientMessage}
    (other : ¬ message.ActsForHost) :
    (handleMessage cfg conn (some peer) message).Upholds (fun _ _ => True) Action.Ordinary
      (fun flow => flow = .next (some peer) ∨
        (flow = .exit ∧ ∃ request, message = .startSessionWithBundle request)) := by
  have quiet : ∀ a : Action, a.Quiet → Action.Ordinary a := ordinary_of_quiet
  have stays {arm : Proc Unit} (h : arm.Upholds (fun _ _ => True) Action.Ordinary (fun _ => True)) :
      (stay peer arm).Upholds (fun _ _ => True) Action.Ordinary
        (fun flow => flow = .next (some peer) ∨
          (flow = .exit ∧ ∃ request, message = .startSessionWithBundle request)) := by
    refine h.bind fun _ _ => ?_
    exact .inl rfl
  cases message with
  | hello descriptor | signedHello signed => exact stays (replyError_upholds conn quiet _ _)
  | listHosts =>
      refine stays ((peerTenant_upholds quiet _).bind fun tenant _ => ?_)
      refine (listHosts_upholds cfg quiet _).bind fun hosts _ => ?_
      exact ⟨trivial, fun _ _ => trivial⟩
  | requestPairing request =>
      refine stays ((requestPairing_upholds cfg quiet (fun _ => trivial) trivial
        fun _ => trivial).attempt.bind fun answer _ => ?_)
      cases answer with
      | ok u => trivial
      | error e => exact replyError_upholds conn quiet _ _
  | pairingDecision decision =>
      refine stays ((decidePairing_upholds cfg quiet trivial
        fun _ _ _ _ => ⟨trivial, fun _ _ => trivial⟩).attempt.bind fun answer _ => ?_)
      cases answer with
      | ok grant =>
          cases grant with
          | none => trivial
          | some grant => exact ⟨trivial, fun _ _ => trivial⟩
      | error e => exact replyError_upholds conn quiet _ _
  | heartbeat =>
      refine stays ((handleHeartbeat_upholds cfg quiet trivial
        fun _ _ => ⟨trivial, trivial⟩).bind fun _ _ => ?_)
      exact ⟨trivial, fun _ _ => trivial⟩
  | startSession request =>
      refine stays ((startSession_upholds cfg quiet (fun _ => trivial) ⟨trivial, fun _ _ => trivial⟩
        (fun _ _ => trivial) fun _ _ _ => trivial).attempt.bind fun answer _ => ?_)
      cases answer with
      | ok plan => exact ⟨trivial, fun _ _ => trivial⟩
      | error e => exact replyError_upholds conn quiet _ _
  | startSessionWithBundle request =>
      refine Upholds.perform_bind trivial fun now _ => ?_
      refine (verifySessionBundle_upholds cfg quiet fun _ _ _ => trivial).attempt.bind
        fun answer _ => ?_
      cases answer with
      | error e =>
          refine (replyError_upholds conn quiet _ _).bind fun _ _ => ?_
          exact .inr ⟨rfl, request, rfl⟩
      | ok viewer =>
          refine (onBundleAccepted_ordinary cfg conn peer request.request viewer).bind
            fun _ _ => ?_
          exact .inl rfl
  | relaySignal signal =>
      refine stays ((relaySignal_upholds cfg quiet (fun _ => trivial) trivial).attempt.bind
        fun answer _ => ?_)
      cases answer with
      | ok u => trivial
      | error e => exact replyError_upholds conn quiet _ _
  | revokePairing h c => exact absurd trivial other
  | kickSession sessionId reason =>
      refine stays ((kickSession_upholds cfg quiet trivial fun _ _ => trivial).attempt.bind
        fun answer _ => ?_)
      cases answer with
      | ok u => trivial
      | error e => exact sendError_upholds cfg quiet _ _ _
  | createShareLink ttl permissions => exact absurd trivial other
  | redeemShareLink code label =>
      refine stays ((redeemShareLink_upholds cfg quiet label trivial
        fun _ _ => trivial).attempt.bind fun answer _ => ?_)
      cases answer with
      | ok u => trivial
      | error e => exact sendError_upholds cfg quiet _ _ _
  | signedKill envelope =>
      refine stays (Upholds.perform_bind trivial fun now _ => ?_)
      refine (applySignedKill_upholds cfg quiet (fun _ => trivial) fun _ _ => trivial).attempt.bind
        fun answer _ => ?_
      cases answer with
      | error e => exact sendError_upholds cfg quiet _ _ _
      | ok kill =>
          refine (echoKill_upholds cfg quiet envelope kill).bind fun _ _ => ?_
          exact sendError_upholds cfg quiet _ _ _
  | operatorDecision sessionId accept => exact .inl rfl

end Signaling

end Qubox
