import Qubox.Signaling.Relay

/-!
# What a call leaves to others

Two calls whose caller names an entry by an id of its own choice. A pairing
decision takes the request of its id out of the table before it looks at who
decides, so a decision by the wrong peer costs the host its request; a kick by
the wrong peer puts its session back. A session start stores under the id of the
request whatever is there, so it replaces a session of two other peers.

Both defects are stated with their exact condition, on the state the call finds.
`Startable` is the conjunction of the checks that `start_session` makes before it
stores the session, read off that state.
-/

namespace Qubox.Signaling

open Interaction
open Interaction.Program (Upholds)

variable (cfg : Config)

/-! ## A decision by the wrong peer -/

/-- The errors that say the acting peer may not decide. -/
def Failure.BlamesActor : Failure → Prop
  | .onlyHostsApprove | .pairingOfAnotherHost _ => True
  | _ => False

/-- The acting peer is a host, and the pending request is for it. -/
def Decides (actor : PeerDescriptor) (pending : PendingPairing) : Prop :=
  actor.role = .host ∧ pending.hostPeerId = actor.peerId

/-- The requests, the pairing store and the sessions are the same. -/
structure SameTables (before after : SignalingState) : Prop where
  pending : after.pendingPairings = before.pendingPairings
  pairings : after.pairings = before.pairings
  pairingFile : after.pairingFile = before.pairingFile
  sessions : after.sessions = before.sessions

/-- A decision that fails because of who decides leaves the tables as they were. -/
def WrongActorHarmless (actor : PeerDescriptor) (decision : PairingDecision) (s : Server) :
    Prop :=
  ∀ error s', machine.run (decidePairing cfg actor decision) s = (.error error, s') →
    error.BlamesActor → SameTables s.state s'.state

/-- The pending request of the decision is taken out, and then judged. -/
theorem run_decidePairing {actor : PeerDescriptor} {decision : PairingDecision} {s : Server}
    {pending : PendingPairing}
    (found : s.state.pendingPairings.lookup decision.requestId = some pending) :
    machine.run (decidePairing cfg actor decision) s =
      machine.run (judgePairing cfg actor decision pending)
        (s.setPending (s.state.pendingPairings.erase decision.requestId)) := by
  rw [decidePairing, run_perform_bind]
  simp only [Server.exec, found]
  rfl

/-- A decision by the wrong peer takes the request out, and that is all it does. -/
theorem run_decidePairing_wrong {actor : PeerDescriptor} {decision : PairingDecision} {s : Server}
    {pending : PendingPairing}
    (found : s.state.pendingPairings.lookup decision.requestId = some pending)
    (wrong : ¬ Decides actor pending) :
    ∃ error : Failure, error.BlamesActor ∧ machine.run (decidePairing cfg actor decision) s =
      (.error error, s.setPending (s.state.pendingPairings.erase decision.requestId)) := by
  rw [run_decidePairing cfg found, judgePairing]
  by_cases host : actor.role = .host
  · have other : ¬ pending.hostPeerId = actor.peerId := fun own => wrong ⟨host, own⟩
    refine ⟨.pairingOfAnotherHost decision.requestId, trivial, ?_⟩
    simp [host, other, require]
  · refine ⟨.onlyHostsApprove, trivial, ?_⟩
    simp [host, require]

section Errors

variable {ε α β : Type} {allowed : ε → Prop}

theorem ignore_failsWith {ε' : Type} (p : Program signature ε' α) :
    (ignore p : Program signature ε Unit).FailsWith allowed :=
  (Program.attempt_failsWith p).bind fun _ => trivial

end Errors

/-- The host of a request is never blamed: the other errors come from the policy
gate and from the file of the store. -/
theorem judgePairing_failsWith {host : PeerDescriptor} {decision : PairingDecision}
    {pending : PendingPairing} (decides : Decides host pending) :
    (judgePairing cfg host decision pending).FailsWith (fun e => ¬ e.BlamesActor) := by
  obtain ⟨role, own⟩ := decides
  rw [judgePairing]
  simp only [role, own, require, decide_true, if_true, Program.done_bind]
  split
  · refine Program.FailsWith.bind ?_ fun _ => ?_
    · unfold gatePairing
      split
      · intro answer
        cases answer with
        | error e => exact id
        | ok verdict =>
            cases verdict with
            | deny reason => exact (ignore_failsWith _).bind fun _ => id
            | allow permissions autoPair | pending consentId expires => trivial
      · trivial
    · refine Program.FailsWith.bind ?_ fun _ => ?_
      · intro snapshot written
        cases written with
        | ok _ => trivial
        | error e => exact id
      · refine Program.FailsWith.bind ?_ fun _ => (ignore_failsWith _).bind fun _ => trivial
        unfold announcePairing
        split
        · exact ignore_failsWith _
        · trivial
  · exact (ignore_failsWith _).bind fun _ => trivial

theorem wrongActorHarmless_iff (actor : PeerDescriptor) (decision : PairingDecision)
    (s : Server) :
    WrongActorHarmless cfg actor decision s ↔
      ∀ pending, s.state.pendingPairings.lookup decision.requestId = some pending →
        Decides actor pending := by
  constructor
  · intro harmless pending found
    by_contra wrong
    obtain ⟨error, blames, ran⟩ := run_decidePairing_wrong cfg found wrong
    have same := (harmless error _ ran blames).pending
    have gone : (s.state.pendingPairings.erase decision.requestId).lookup decision.requestId =
        none := AList.lookup_erase _ _
    rw [show s.state.pendingPairings.erase decision.requestId = s.state.pendingPairings from same,
      found] at gone
    cases gone
  · intro decides error s' ran blames
    cases found : s.state.pendingPairings.lookup decision.requestId with
    | none =>
        rw [decidePairing, run_perform_bind] at ran
        simp only [Server.exec, found] at ran
        cases ran
        exact blames.elim
    | some pending =>
        rw [run_decidePairing cfg found] at ran
        have other := machine.run_failsWith (judgePairing_failsWith cfg (decides pending found)) ran
        exact absurd blames other

/-! A client answers its own request in place of the host. -/

namespace Sample

def asked : List Step :=
  [.call (.hello 0 host), .call (.hello 1 client), .call (.requestPairing client ⟨9, 1, ""⟩)]

end Sample

theorem ownAnswer_not_harmless :
    ¬ ∀ steps actor decision,
      let s := runSteps Sample.config (Sample.fresh []) steps
      Registered s actor → WrongActorHarmless Sample.config actor decision s := by
  intro always
  have refused : (machine.run (decidePairing Sample.config Sample.client ⟨9, true⟩)
      (runSteps Sample.config (Sample.fresh []) Sample.asked)).1 = .error .onlyHostsApprove := by
    decide
  have same := (always Sample.asked Sample.client ⟨9, true⟩ ⟨1, by decide⟩
    .onlyHostsApprove _ (Prod.ext refused rfl) trivial).pending
  exact absurd (congrArg (AList.lookup 9) same) (by decide)

/-! ## The checks of a session start -/

/-- The host that `resolveHost` returns, with its key. -/
def hostFor? (s : Server) (clientTenant hostPeerId : Uuid) :
    Option (PeerDescriptor × Option PublicKey) :=
  match s.state.peers.lookup hostPeerId with
  | some host =>
      if host.descriptor.role = .host ∧ host.tenantId = clientTenant then
        some (host.descriptor, host.publicKey)
      else none
  | none =>
      if cfg.cluster.isSome ∧ s.env.redisUp then
        (s.redis.peers.lookup hostPeerId).bind (fun remote =>
          if remote.descriptor.role = .host ∧ remote.tenantId = clientTenant then
            some (remote.descriptor, remote.publicKey)
          else none)
      else none

/-- What the authorizer allows: permissions, and whether policy pairs the two. -/
def allowance? (s : Server) (client host : PeerDescriptor) (request : StartSessionRequest) :
    Option (SessionPermissions × Bool) :=
  if cfg.sessionAuthorizer then
    match s.env.authorize ⟨client.deviceId, none, host.deviceId, request.consentId, false⟩ with
    | .ok (.allow permissions autoPair) => some (permissions, autoPair)
    | _ => none
  else some (request.permissions, false)

/-- The pair is paired, here or on the bus, or policy pairs it and the store can
write its file. -/
def becomesPaired (s : Server) (h c : Uuid) (policyAutoPair : Bool) : Bool :=
  s.state.isPaired h c ||
    (cfg.cluster.isSome && s.env.redisUp && s.redis.pairs.contains (h, c)) ||
    (policyAutoPair && (s.state.pairingFile.isNone || s.env.persist.toOption.isSome))

/-- A message to the peer gets on its way: its channel is open, or the bus knows
the instance it is connected to. -/
def reaches (s : Server) (peerId : Uuid) : Bool :=
  match s.state.peers.lookup peerId with
  | some peer => s.env.writable peer.outbound
  | none => cfg.cluster.isSome && s.env.redisUp && (s.redis.peers.lookup peerId).isSome

/-- Every check of `start_session` passes. -/
def Startable (client : PeerDescriptor) (request : StartSessionRequest) (s : Server) : Bool :=
  (s.state.peers.lookup client.peerId).any fun self =>
    (hostFor? cfg s self.tenantId request.targetHostId).any fun (host, hostKey) =>
      (allowance? cfg s client host request).any fun (_, policyAutoPair) =>
        becomesPaired cfg s request.targetHostId client.peerId policyAutoPair &&
          (negotiateTransport client host request.requestedTransport).isSome &&
          (negotiateCodec client host request.preferredCodec).isSome &&
          hostKey.isSome && self.publicKey.isSome && reaches cfg s request.targetHostId

/-! Each check by itself, as the run of its operation. -/

section Checks

variable {s s' : Server}

theorem run_command_bind {α : Type} (c : BusCommand) (f : c.Answer → Op α) (s : Server) :
    machine.run (Bus.command c >>= f) s =
      if s.env.redisUp then
        machine.run (f (Redis.exec c s.redis).1) { s with redis := (Redis.exec c s.redis).2 }
      else (.error (.redis "redis connection failed"), s) := by
  rw [machine.run_bind, Bus.command, run_perform_bind, Server.exec]
  split <;> rfl

theorem run_orFail {ε α : Type} (e : ε) (o : Option α) (s : Server) :
    (machine.run (orFail e o) s).1.toOption = o ∧ (machine.run (orFail e o) s).2 = s := by
  cases o <;> exact ⟨rfl, rfl⟩

theorem run_resolveHost (clientTenant hostPeerId : Uuid) (s : Server) :
    (machine.run (resolveHost cfg clientTenant hostPeerId) s).1.toOption =
        hostFor? cfg s clientTenant hostPeerId ∧
      (machine.run (resolveHost cfg clientTenant hostPeerId) s).2 = s := by
  rw [resolveHost, run_perform_bind, hostFor?]
  simp only [Server.exec]
  cases s.state.peers.lookup hostPeerId with
  | some host =>
      by_cases role : host.descriptor.role = .host <;>
        by_cases same : host.tenantId = clientTenant <;>
        exact ⟨by simp [role, same, require, Except.toOption], by simp [role, same, require]⟩
  | none =>
      cases cfg.cluster with
      | none => exact ⟨rfl, rfl⟩
      | some self =>
          simp only [Option.isSome_some, true_and]
          rw [run_command_bind (.getPeer hostPeerId)]
          cases s.env.redisUp with
          | false => exact ⟨rfl, rfl⟩
          | true =>
              simp only [if_true, Redis.exec]
              cases s.redis.peers.lookup hostPeerId with
              | none => exact ⟨rfl, rfl⟩
              | some remote =>
                  by_cases role : remote.descriptor.role = .host <;>
                    by_cases same : remote.tenantId = clientTenant <;>
                    exact ⟨by simp [role, same, require, orFail, Except.toOption],
                      by simp [role, same, require, orFail]⟩

/-- The authorizer is only asked; a session that needs consent is refused. -/
theorem run_authorizeSession (client host : PeerDescriptor) (request : StartSessionRequest)
    (s : Server) :
    (machine.run (authorizeSession cfg client host request) s).1.toOption =
        allowance? cfg s client host request ∧
      ∀ a s', machine.run (authorizeSession cfg client host request) s = (.ok a, s') → s' = s := by
  unfold authorizeSession allowance?
  split
  · rw [run_perform_bind]
    simp only [Server.exec]
    cases s.env.authorize ⟨client.deviceId, none, host.deviceId, request.consentId, false⟩ with
    | error e => exact ⟨rfl, fun _ _ ran => by cases ran⟩
    | ok verdict =>
        cases verdict with
        | allow permissions autoPair =>
            refine ⟨rfl, fun _ _ ran => ?_⟩
            cases ran
            rfl
        | deny reason => exact ⟨rfl, fun _ _ ran => by cases ran⟩
        | pending consentId expires =>
            simp only [machine.run_bind, run_ignore, Machine.resume_ok]
            exact ⟨rfl, fun _ _ ran => by cases ran⟩
  · refine ⟨rfl, fun _ _ ran => ?_⟩
    cases ran
    rfl

theorem run_isPairedCluster (h c : Uuid) (s : Server) :
    machine.run (isPairedCluster cfg h c) s =
      (.ok (s.state.isPaired h c ||
        (cfg.cluster.isSome && s.env.redisUp && s.redis.pairs.contains (h, c))), s) := by
  have read : Server.exec (.isPaired h c) s = (s.state.isPaired h c, s) := rfl
  rw [isPairedCluster, run_perform_bind, read]
  cases stored : s.state.isPaired h c with
  | true =>
      simp only [if_true, Bool.true_or]
      rfl
  | false =>
      simp only [Bool.false_eq_true, if_false, Bool.false_or]
      cases cfg.cluster with
      | none => rfl
      | some self =>
          simp only [machine.run_bind, machine.run_attempt]
          cases up : s.env.redisUp with
          | false => simp [Bus.command, Server.exec, up, liftExcept, perform, Program.perform]
          | true =>
              simp [Bus.command, Server.exec, up, liftExcept, perform, Program.perform, Redis.exec]

/-- What the checks read that come after the pairing check. -/
def directory (s : Server) :
    AList (fun _ : Uuid => ConnectedPeer) × AList (fun _ : Uuid => RemotePeer) × Env :=
  (s.state.peers, s.redis.peers, s.env)

/-- The action leaves the two registers of peers and the environment alone. -/
def KeepsDirectory (a : Action) : Prop := ∀ s, directory (Server.exec a s).2 = directory s

theorem directory_exec (a : Action) (s : Server) : directory (Server.exec a s).2 =
    (a.onPeers s.state.peers, (a.onRedis s.env.redisUp s.redis).peers, s.env) := by
  rw [directory, Server.exec_peers, Server.exec_redis, Server.exec_env]

theorem keepsDirectory_of_quiet (a : Action) (quiet : a.Quiet) : KeepsDirectory a := by
  intro s
  rw [directory_exec]
  cases a
  case bus command =>
    have same : (Redis.exec command s.redis).2.peers = s.redis.peers := by
      cases command <;> first | exact quiet.elim | rfl
    simp only [Action.onPeers, Action.onRedis, directory]
    split
    · rw [same]
    · rfl
  all_goals first | exact quiet.elim | rfl

theorem run_ignored_returns {ε : Type} (p : Program signature ε Unit) (s : Server) :
    (machine.run (ignore p : Op Unit) s).1.toOption.isSome = true := by
  rw [run_ignore]
  rfl

/-- A pairing is added if the store has no file, or can write it. -/
theorem run_addPairing (grant : PairingGrant) (s : Server) :
    (machine.run (addPairing grant) s).1.toOption =
      if s.state.pairingFile.isNone || s.env.persist.toOption.isSome then some () else none := by
  rw [addPairing, run_perform_bind, run_perform_bind]
  simp only [Server.exec, Server.execPersist, Server.setPairings]
  cases s.state.pairingFile with
  | none => rfl
  | some file => cases s.env.persist <;> rfl

/-- The pairing check passes when the pair is paired or gets paired, and leaves
what the later checks read. -/
theorem run_ensurePaired (c h : Uuid) (policyAutoPair : Bool) (s : Server) :
    (machine.run (ensurePaired cfg c h policyAutoPair) s).1.toOption.isSome =
        becomesPaired cfg s h c policyAutoPair ∧
      directory (machine.run (ensurePaired cfg c h policyAutoPair) s).2 = directory s := by
  constructor
  · rw [ensurePaired, machine.run_bind, run_isPairedCluster, Machine.resume_ok, becomesPaired]
    cases s.state.isPaired h c || (cfg.cluster.isSome && s.env.redisUp &&
      s.redis.pairs.contains (h, c)) with
    | true => rfl
    | false =>
        cases policyAutoPair with
        | false => rfl
        | true =>
            simp only [Bool.false_eq_true, if_false, if_true, Bool.false_or, Bool.true_and]
            rw [machine.run_bind_returns (fun _ => true) (run_addPairing _ s) ?_]
            · cases s.state.pairingFile.isNone || s.env.persist.toOption.isSome <;> rfl
            · intro _ t _
              unfold announcePairing
              split
              · rw [machine.run_bind, run_ignore, Machine.resume_ok]
                exact run_ignored_returns _ _
              · exact run_ignored_returns _ _
  · refine machine.run_frame directory (Upholds.forget (ensurePaired_upholds cfg
      keepsDirectory_of_quiet ⟨fun _ => rfl, fun _ _ t => ?_⟩)) s
    rw [directory_exec]
    simp only [Action.onPeers, Action.onRedis, directory]
    split <;> rfl

theorem run_sendTo (peerId : Uuid) (message : ServerMessage) (s : Server) :
    (machine.run (sendTo cfg peerId message) s).1.toOption.isSome = reaches cfg s peerId := by
  rw [sendTo, run_perform_bind, reaches]
  simp only [Server.exec, Server.execSendLocal]
  cases s.state.peers.lookup peerId with
  | some peer =>
      cases writable : s.env.writable peer.outbound <;>
        simp [require, writable, Except.toOption]
  | none =>
      cases cfg.cluster with
      | none => rfl
      | some self =>
          simp only [Bus.deliver, Option.isSome_some, Bool.true_and]
          rw [run_command_bind (.getPeer peerId)]
          cases up : s.env.redisUp with
          | false => rfl
          | true =>
              simp only [if_true, Redis.exec, Bool.true_and]
              cases s.redis.peers.lookup peerId with
              | none => rfl
              | some remote => simp [orFail, Bus.command, Server.exec, up, liftExcept, perform,
                  Program.perform, Except.toOption]

theorem reaches_congr {s s' : Server} (same : directory s' = directory s) (peerId : Uuid) :
    reaches cfg s' peerId = reaches cfg s peerId := by
  simp only [directory, Prod.mk.injEq] at same
  obtain ⟨peers, registry, env⟩ := same
  rw [reaches, reaches, peers, registry, env]

/-- The plan is made when codec, transport and both keys are there and the host
hears of the session. -/
theorem run_prepareSession (client host : PeerDescriptor) (hostKey clientKey : Option PublicKey)
    (request : StartSessionRequest) (permissions : SessionPermissions) (s : Server) :
    (machine.run (prepareSession cfg client host hostKey clientKey request permissions)
        s).1.toOption.isSome = ((negotiateTransport client host request.requestedTransport).isSome &&
          (negotiateCodec client host request.preferredCodec).isSome &&
          hostKey.isSome && clientKey.isSome && reaches cfg s request.targetHostId) := by
  rw [prepareSession]
  cases negotiateTransport client host request.requestedTransport with
  | none => rfl
  | some transport =>
      cases negotiateCodec client host request.preferredCodec with
      | none => rfl
      | some codec =>
          cases hostKey with
          | none => rfl
          | some hostPubkey =>
              cases clientKey with
              | none => rfl
              | some clientPubkey =>
                  simp only [orFail, Program.done_bind, Option.isSome_some, Bool.true_and]
                  rw [run_perform_bind]
                  simp only [Server.exec]
                  rw [machine.run_bind_returns (fun _ => true) rfl fun _ _ _ => rfl,
                    ← run_sendTo cfg request.targetHostId _ s]
                  cases (machine.run (sendTo cfg request.targetHostId _) s).1 <;> rfl

/-- `planSession` with the expired sessions already gone. -/
def planPruned (client : PeerDescriptor) (request : StartSessionRequest) :
    Op (ActiveSession × SessionPlan) := do
  let self ← orFail (.clientNotConnected client.peerId) (← perform (.getPeer client.peerId))
  let (host, hostKey) ← resolveHost cfg self.tenantId request.targetHostId
  let _ ← peerAccountId client.peerId
  let (permissions, policyAutoPair) ← authorizeSession cfg client host request
  ensurePaired cfg client.peerId request.targetHostId policyAutoPair
  prepareSession cfg client host hostKey self.publicKey request permissions

/-- The sessions that are still valid when the clock is read. -/
def Server.pruned (s : Server) : Server := (Server.exec (.pruneSessions s.env.now) s).2

theorem run_planSession (client : PeerDescriptor) (request : StartSessionRequest) (s : Server) :
    machine.run (planSession cfg client request) s =
      machine.run (planPruned cfg client request) s.pruned := rfl

theorem run_planPruned_returns (client : PeerDescriptor) (request : StartSessionRequest)
    (s : Server) : (machine.run (planPruned cfg client request) s).1.toOption.isSome =
      Startable cfg client request s := by
  rw [planPruned, run_perform_bind, Startable]
  refine machine.run_bind_returns _ (run_orFail _ _ _).1 fun self s₁ ran => ?_
  obtain rfl : s = s₁ := (run_orFail _ _ s).2.symm.trans (congrArg Prod.snd ran)
  refine machine.run_bind_returns _ (run_resolveHost cfg _ _ _).1 fun (host, hostKey) s₂ ran => ?_
  obtain rfl : s = s₂ := (run_resolveHost cfg _ _ s).2.symm.trans (congrArg Prod.snd ran)
  rw [machine.run_bind, peerAccountId, run_perform_bind]
  refine machine.run_bind_returns _ (run_authorizeSession cfg _ _ _ _).1
    fun (permissions, policyAutoPair) s₃ ran => ?_
  obtain rfl := (run_authorizeSession cfg _ _ _ _).2 _ _ ran
  obtain ⟨paired, kept⟩ := run_ensurePaired cfg client.peerId request.targetHostId policyAutoPair s₃
  -- the rest reads the same registers as the state before the pairing
  rw [machine.run_bind_returns (fun _ => _) rfl fun _ s₄ ran => by
    rw [run_prepareSession, reaches_congr cfg ((congrArg directory
      (congrArg Prod.snd ran)).symm.trans kept)]]
  cases returned : (machine.run (ensurePaired cfg client.peerId request.targetHostId
      policyAutoPair) s₃).1 with
  | error e =>
      rw [returned] at paired
      simp [← paired, Except.toOption]
  | ok u =>
      rw [returned] at paired
      simp [← paired, Except.toOption, Bool.and_assoc]

end Checks

/-! ## A session started under the id of another -/

/-- Every unexpired session of another pair is still stored under its id. -/
def SparesOthers (client : PeerDescriptor) (request : StartSessionRequest) (s s' : Server) :
    Prop :=
  ∀ id session, s.state.sessions.lookup id = some session →
    s.env.now < session.expiresUnixMillis →
    ¬ session.IsOf request.targetHostId client.peerId → s'.state.sessions.lookup id = some session

/-- The id of the request is that of an unexpired session of another pair. -/
def Collides (client : PeerDescriptor) (request : StartSessionRequest) (s : Server) : Prop :=
  ∃ session ∈ s.state.sessions.lookup request.sessionId,
    s.env.now < session.expiresUnixMillis ∧ ¬ session.IsOf request.targetHostId client.peerId

theorem planPruned_keepsSessions (client : PeerDescriptor) (request : StartSessionRequest) :
    (planPruned cfg client request).Upholds (fun _ _ => True) KeepsSessions
      (fun result => result.1.IsOf request.targetHostId client.peerId) := by
  have quiet := keepsSessions_of_quiet
  refine Upholds.perform_bind (fun _ => rfl) fun found _ => ?_
  refine (orFail_upholds _ _).bind fun self _ => ?_
  refine (resolveHost_upholds cfg quiet _ _).bind fun (host, hostKey) _ => ?_
  refine (peerAccountId_upholds quiet _).bind fun _ _ => ?_
  refine (authorizeSession_upholds cfg quiet _ _ _).bind fun (permissions, policyAutoPair) _ => ?_
  refine (ensurePaired_upholds cfg quiet ⟨fun _ => rfl, fun _ _ _ => rfl⟩).bind fun _ _ => ?_
  exact (prepareSession_upholds cfg quiet).mono (fun _ _ h => h) (fun _ h => h)
    fun _ prepared => prepared.1

/-- An unexpired session survives the pruning. -/
theorem lookup_pruned {s : Server} {id : Uuid} {session : ActiveSession}
    (found : s.state.sessions.lookup id = some session)
    (valid : s.env.now < session.expiresUnixMillis) :
    s.pruned.state.sessions.lookup id = some session := by
  rw [Server.pruned, Server.exec_sessions, Action.onSessions]
  exact AList.lookup_retain_eq_some.mpr ⟨found, decide_eq_true valid⟩

/-- A call that stops at a check has only pruned; one that passes them all has
stored one session more, of its own pair. -/
theorem run_startSession_sessions (client : PeerDescriptor) (request : StartSessionRequest)
    (s : Server) :
    if Startable cfg client request s then
      ∃ session : ActiveSession, session.IsOf request.targetHostId client.peerId ∧
        (machine.run (startSession cfg client request) s).2.state.sessions =
          s.pruned.state.sessions.insert request.sessionId session
    else (machine.run (startSession cfg client request) s).2.state.sessions =
      s.pruned.state.sessions := by
  have returns : (machine.run (planPruned cfg client request) s.pruned).1.toOption.isSome =
      Startable cfg client request s := run_planPruned_returns cfg client request s.pruned
  have kept := run_keepsSessions (planPruned_keepsSessions cfg client request) s.pruned
  have own := (machine.run_invariant (I := fun _ => True)
    (planPruned_keepsSessions cfg client request) (fun _ _ keeps _ => ⟨trivial, trivial⟩)
    (s := s.pruned) trivial).2
  rw [startSession, machine.run_bind, run_planSession]
  rcases ran : machine.run (planPruned cfg client request) s.pruned with ⟨e | ⟨session, plan⟩, s₁⟩
  · rw [ran] at returns kept
    rw [← returns]
    exact kept
  · rw [ran] at returns kept own
    rw [← returns]
    refine ⟨session, own _ rfl, ?_⟩
    rw [Machine.resume_ok, run_perform_bind]
    have announced : (do
        announceSession cfg request.sessionId
          ⟨session.hostPeerId, session.clientPeerId, session.expiresUnixMillis⟩
        return plan : Op SessionPlan).Upholds (fun _ _ => True) KeepsSessions (fun _ => True) :=
      (announceSession_upholds cfg fun _ => rfl).bind fun _ _ => trivial
    rw [run_keepsSessions announced, Server.exec_sessions, Action.onSessions, kept]

theorem startSession_sparesOthers_iff (client : PeerDescriptor) (request : StartSessionRequest)
    (s : Server) :
    SparesOthers client request s (machine.run (startSession cfg client request) s).2 ↔
      ¬ (Collides client request s ∧ Startable cfg client request s = true) := by
  have sessions := run_startSession_sessions cfg client request s
  constructor
  · rintro spares ⟨⟨session, found, valid, other⟩, startable⟩
    rw [if_pos startable] at sessions
    obtain ⟨started, own, stored⟩ := sessions
    have still := spares _ session found valid other
    rw [stored, AList.lookup_insert] at still
    cases still
    exact other own
  · intro free id session found valid other
    split at sessions
    case isTrue startable =>
      obtain ⟨started, -, stored⟩ := sessions
      have apart : id ≠ request.sessionId := by
        rintro rfl
        exact free ⟨⟨session, found, valid, other⟩, startable⟩
      rw [stored, AList.lookup_insert_ne apart]
      exact lookup_pruned found valid
    case isFalse =>
      rw [sessions]
      exact lookup_pruned found valid

/-! Two clients of one host pick the same session id. -/

namespace Sample

def atOneHost : List Step :=
  [.call (.signedHello 0 ⟨host, 5, []⟩), .call (.signedHello 1 ⟨client, 6, []⟩),
    .call (.signedHello 2 ⟨peer 3 .client, 7, []⟩),
    .call (.startSession client { sessionId := 9, targetHostId := 1 })]

end Sample

theorem sameId_not_sparesOthers :
    ¬ ∀ steps client request,
      let s := runSteps Sample.config (Sample.fresh [⟨1, 2⟩, ⟨1, 3⟩]) steps
      Registered s client → SparesOthers client request s
        (machine.run (startSession Sample.config client request) s).2 := by
  intro always
  have spares := always Sample.atOneHost (Sample.peer 3 .client)
    { sessionId := 9, targetHostId := 1 } ⟨2, by decide⟩
  have before : ((runSteps Sample.config (Sample.fresh [⟨1, 2⟩, ⟨1, 3⟩])
      Sample.atOneHost).state.sessions.lookup 9).map (fun session =>
        (session.clientPeerId, session.expiresUnixMillis)) = some (2, 601000) := by
    decide
  obtain ⟨session, found, entry⟩ := Option.map_eq_some_iff.mp before
  obtain ⟨client, expires⟩ := Prod.mk.inj entry
  have still := spares 9 session found (by rw [expires]; decide) fun own => by
    have other := own.2.symm.trans client
    revert other
    decide
  -- what is stored under the id is now the session of the second client
  have after := congrArg (Option.map ActiveSession.clientPeerId) still
  rw [Option.map_some, client] at after
  revert after
  decide

end Qubox.Signaling
