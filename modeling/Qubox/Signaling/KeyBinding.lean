import Qubox.Signaling.Call

/-!
# Grants and keys

A grant names two peer ids. The keys with which the peers had connected when it
was made are not part of it, and an id that is free again may be registered with
another key. A session credential names the keys under which its two peers are
registered when the session is started.

`OneKey` says of a move that it registers an id with one given key only, at this
instance or in the registry of the cluster. If that holds for both ids of a
grant, and both were registered when the grant was added, every session that
rests on the grant is for the keys that made it.
-/

namespace Qubox.Signaling

open Interaction
open Interaction.Program (Upholds)

/-- The key under which an id is registered: with this instance, or else in the
registry of the cluster. -/
def registeredKey? (cfg : Config) (s : Server) (id : Uuid) : Option PublicKey :=
  match s.state.peers.lookup id with
  | some peer => peer.publicKey
  | none =>
      if cfg.cluster.isSome then (s.redis.peers.lookup id).bind RemotePeer.publicKey else none

/-- All peers connect with a signed hello. -/
def AllSigned (moves : List ServerMove) : Prop :=
  ∀ conn descriptor, .call (.hello conn descriptor) ∉ moves

/-- A `start_session` stores its session, after which it returns `Ok`. -/
def Starts (P : ServerPool) (m : ServerMove) (session : ActiveSession) : Prop :=
  ∃ i client request, m = .step i ∧
    P.threads[i]?.map Thread.call = some (.startSession client request) ∧
    Performs P (.step i) (.insertSession request.sessionId session)

/-- A session of the pair that is started while its grant stands is for the keys
under which both were registered when the grant was added. -/
def KeysBound (cfg : Config) (P₀ : ServerPool) (moves : List ServerMove) (h c : Uuid) : Prop :=
  AllSigned moves →
  ∀ before grant between start after, moves = before ++ grant :: between ++ start :: after →
    let granted := (system cfg).schedule P₀ before
    let started := (system cfg).schedule P₀ (before ++ grant :: between)
    Performs granted grant (.addPairing ⟨h, c⟩) → ⟨h, c⟩ ∉ granted.shared.state.pairings →
    (system cfg).Along (fun P m => ¬ Performs P m (.removePairing h c))
      ((system cfg).move granted grant) between →
    ∀ session, Starts started start session → session.IsOf h c →
      registeredKey? cfg granted.shared h = some session.hostCredential.hostPubkey ∧
      registeredKey? cfg granted.shared c = some session.hostCredential.clientPubkey

/-- The key with which an action registers the id, at this instance or in the
registry of the cluster. An id that is taken is not registered again. -/
def newKey? (id : Uuid) (s : Server) : Action → Option (Option PublicKey)
  | .insertPeer peer =>
      if peer.descriptor.peerId = id ∧ s.state.peers.lookup id = none then some peer.publicKey
      else none
  | .bus (.setPeer id' record) => if id' = id then some record.publicKey else none
  | _ => none

/-- The move registers the id with this key or not at all, here or elsewhere in
the cluster. -/
def OneKey (id : Uuid) (key : PublicKey) (P : ServerPool) : ServerMove → Prop
  | .step i => ∀ a ∈ P.next? (.step i : ServerMove), ∀ new ∈ newKey? id P.shared a, new = some key
  | .disturb (.redis r) => ∀ record ∈ r.peers.lookup id, record.publicKey = some key
  | _ => True

/-- Both ids keep their keys, and are registered when their grant is added. -/
structure Attributable (cfg : Config) (h c : Uuid) (hostKey clientKey : PublicKey)
    (P : ServerPool) (m : ServerMove) : Prop where
  host : OneKey h hostKey P m
  client : OneKey c clientKey P m
  present : Performs P m (.addPairing ⟨h, c⟩) →
    (registeredKey? cfg P.shared h).isSome ∧ (registeredKey? cfg P.shared c).isSome

/-- Every registration under the id carries the key. -/
structure KeyIs (id : Uuid) (key : PublicKey) (s : Server) : Prop where
  here : ∀ peer, s.state.peers.lookup id = some peer → peer.publicKey = some key
  elsewhere : ∀ record, s.redis.peers.lookup id = some record → record.publicKey = some key

/-! ## An id with one key -/

section KeyIs

variable {id : Uuid} {key : PublicKey} {s : Server}

/-- What is read about the id agrees with the key. -/
def Agrees (id : Uuid) (key : PublicKey) : (a : Action) → a.Answer → Prop
  | .getPeer id', some peer => id' = id → peer.publicKey = some key
  | .bus (.getPeer id'), .ok (some record) => id' = id → record.publicKey = some key
  | _, _ => True

theorem KeyIs.registeredKey? {cfg : Config} (keyIs : KeyIs id key s)
    (registered : (registeredKey? cfg s id).isSome) :
    Signaling.registeredKey? cfg s id = some key := by
  unfold Signaling.registeredKey? at registered ⊢
  cases found : s.state.peers.lookup id with
  | some peer => exact keyIs.here peer found
  | none =>
      simp only [found] at registered
      dsimp only
      split
      case isTrue clustered =>
        rw [if_pos clustered] at registered
        obtain ⟨key', named⟩ := Option.isSome_iff_exists.mp registered
        obtain ⟨record, stored, -⟩ := Option.bind_eq_some_iff.mp named
        rw [stored]
        exact keyIs.elsewhere record stored
      case isFalse single => simp [single] at registered

theorem KeyIs.agrees (keyIs : KeyIs id key s) (a : Action) :
    Agrees id key a (Server.exec a s).1 := by
  cases a
  case getPeer id' =>
    cases found : s.state.peers.lookup id' with
    | none => simp [Agrees, Server.exec, found]
    | some peer =>
        simp only [Agrees, Server.exec, found]
        rintro rfl
        exact keyIs.here peer found
  case bus command =>
    cases command
    case getPeer id' =>
      cases up : s.env.redisUp with
      | false => simp [Agrees, Server.exec, up]
      | true =>
          cases found : s.redis.peers.lookup id' with
          | none => simp [Agrees, Server.exec, up, Redis.exec, found]
          | some record =>
              simp only [Agrees, Server.exec, up, if_true, Redis.exec, found]
              rintro rfl
              exact keyIs.elsewhere record found
    all_goals trivial
  all_goals trivial

theorem KeyIs.exec {a : Action} (keyIs : KeyIs id key s)
    (oneKey : ∀ new ∈ newKey? id s a, new = some key) : KeyIs id key (Server.exec a s).2 where
  here peer found := by
    rw [Server.exec_peers] at found
    rcases Action.lookup_onPeers found with ⟨old, count, before, rfl⟩ | ⟨rfl, same, free⟩
    · exact keyIs.here old before
    · exact oneKey _ (if_pos ⟨same, free⟩)
  elsewhere record found := by
    rw [Server.exec_redis] at found
    rcases Action.lookup_onRedis found with before | rfl
    · exact keyIs.elsewhere record before
    · exact oneKey _ (if_pos rfl)

end KeyIs

/-! ## The keys of a credential -/

section Contracts

variable {A : (a : Action) → a.Answer → Prop} {E : Action → Prop}

/-- A registration of the host was read that carries the key. -/
def HostKeyRead (A : (a : Action) → a.Answer → Prop) (hostPeerId : Uuid) (key : PublicKey) : Prop :=
  (∃ host, A (.getPeer hostPeerId) (some host) ∧ host.publicKey = some key) ∨
    ∃ remote, A (.bus (.getPeer hostPeerId)) (.ok (some remote)) ∧ remote.publicKey = some key

/-- The credential of a session names the keys that were read for its peers. -/
structure Keyed (A : (a : Action) → a.Answer → Prop) (session : ActiveSession) : Prop where
  host : HostKeyRead A session.hostPeerId session.hostCredential.hostPubkey
  client : ∃ self, A (.getPeer session.clientPeerId) (some self) ∧
    self.publicKey = some session.hostCredential.clientPubkey

variable (cfg : Config) (quiet : ∀ a : Action, a.Quiet → E a)

include quiet

theorem resolveHost_keyRead (clientTenant hostPeerId : Uuid) :
    (resolveHost cfg clientTenant hostPeerId).Upholds A E
      (fun host => ∀ key, host.2 = some key → HostKeyRead A hostPeerId key) := by
  refine Upholds.perform_bind (quiet _ (by trivial)) fun found read => ?_
  cases found with
  | some host =>
      refine (require_upholds _ _).bind fun _ _ => ?_
      exact (require_upholds _ _).bind fun _ _ key named => .inl ⟨host, read, named⟩
  | none =>
      cases cfg.cluster with
      | none => trivial
      | some self =>
          refine Upholds.command_bind (quiet _ (by trivial)) fun found asked => ?_
          refine (orFail_upholds _ _).bind fun remote present => ?_
          subst present
          refine (require_upholds _ _).bind fun _ _ => ?_
          exact (require_upholds _ _).bind fun _ _ key named => .inr ⟨remote, asked, named⟩

theorem prepareSession_keys {client host : PeerDescriptor} {hostKey clientKey : Option PublicKey}
    {request : StartSessionRequest} {permissions : SessionPermissions} :
    (prepareSession cfg client host hostKey clientKey request permissions).Upholds A E
      (fun result => result.1.IsOf request.targetHostId client.peerId ∧
        hostKey = some result.1.hostCredential.hostPubkey ∧
        clientKey = some result.1.hostCredential.clientPubkey) := by
  refine (orFail_upholds _ _).bind fun transport _ => ?_
  refine (orFail_upholds _ _).bind fun codec _ => ?_
  refine (orFail_upholds _ _).bind fun hostPubkey ofHost => ?_
  refine (orFail_upholds _ _).bind fun clientPubkey ofClient => ?_
  refine Upholds.perform_bind (quiet _ (by trivial)) fun issued _ => ?_
  refine Upholds.bind (sendTo_upholds cfg quiet (by trivial)) fun _ _ => ?_
  exact ⟨⟨rfl, rfl⟩, ofHost, ofClient⟩

theorem planSession_keyed {client : PeerDescriptor} {request : StartSessionRequest}
    (prune : ∀ now, E (.pruneSessions now))
    (grants : Grants A E request.targetHostId client.peerId) :
    (planSession cfg client request).Upholds A E (fun result => Keyed A result.1) := by
  refine (pruneExpiredSessions_upholds quiet prune).bind fun _ _ => ?_
  refine Upholds.perform_bind (quiet _ (by trivial)) fun found read => ?_
  refine (orFail_upholds _ _).bind fun self present => ?_
  subst present
  refine (resolveHost_keyRead cfg quiet _ _).bind fun (host, hostKey) hostRead => ?_
  refine (peerAccountId_upholds quiet _).bind fun _ _ => ?_
  refine (authorizeSession_upholds cfg quiet _ _ _).bind fun (permissions, policyAutoPair) _ => ?_
  refine (ensurePaired_upholds cfg quiet grants).bind fun _ _ => ?_
  refine (prepareSession_keys cfg quiet).mono (fun _ _ h => h) (fun _ h => h) ?_
  rintro ⟨session, plan⟩ ⟨⟨ofHost, ofClient⟩, hostNamed, clientNamed⟩
  exact ⟨ofHost ▸ hostRead _ hostNamed, self, ofClient ▸ read, clientNamed⟩

theorem startSession_keyed {client : PeerDescriptor} {request : StartSessionRequest}
    (prune : ∀ now, E (.pruneSessions now))
    (grants : Grants A E request.targetHostId client.peerId)
    (insert : ∀ session, Keyed A session → E (.insertSession request.sessionId session))
    (announce : ∀ session, E (.bus (.setSession request.sessionId session))) :
    (startSession cfg client request).Upholds A E (fun _ => True) := by
  refine (planSession_keyed cfg quiet prune grants).bind fun (session, plan) keyed => ?_
  refine Upholds.perform_bind (insert session keyed) fun _ _ => ?_
  exact (announceSession_upholds cfg (announce _)).bind fun _ _ => trivial

end Contracts

/-! ## Runs -/

section Runs

variable (cfg : Config) {h c : Uuid} {hostKey clientKey : PublicKey}

/-- A credential issued for the pair names its two keys. -/
def CredentialIs (h c : Uuid) (hostKey clientKey : PublicKey) (session : ActiveSession) : Prop :=
  session.IsOf h c → session.hostCredential.hostPubkey = hostKey ∧
    session.hostCredential.clientPubkey = clientKey

/-- A session stored by a `start_session` is for the keys of the pair. A kick may
put back what it has removed, which is not a new session. -/
def Issues (h c : Uuid) (hostKey clientKey : PublicKey) : Call → Action → Prop
  | .startSession _ _, .insertSession _ session => CredentialIs h c hostKey clientKey session
  | _, _ => True

/-- What both peers' readings agree on. -/
def AgreeBoth (h c : Uuid) (hostKey clientKey : PublicKey) (a : Action) (r : a.Answer) : Prop :=
  Agrees h hostKey a r ∧ Agrees c clientKey a r

theorem Keyed.credentialIs {session : ActiveSession}
    (keyed : Keyed (AgreeBoth h c hostKey clientKey) session) :
    CredentialIs h c hostKey clientKey session := by
  rintro ⟨rfl, rfl⟩
  obtain ⟨self, read, clientNamed⟩ := keyed.client
  refine ⟨?_, Option.some.inj (clientNamed.symm.trans (read.2 rfl))⟩
  rcases keyed.host with ⟨host, read, named⟩ | ⟨remote, read, named⟩
  · exact Option.some.inj (named.symm.trans (read.1 rfl))
  · exact Option.some.inj (named.symm.trans (read.1 rfl))

theorem body_issues (call : Call) : (call.body cfg).Upholds (AgreeBoth h c hostKey clientKey)
    (Issues h c hostKey clientKey call) (fun _ => True) := by
  cases call
  case startSession client request =>
    have quiet (a : Action) (still : a.Quiet) :
        Issues h c hostKey clientKey (.startSession client request) a := by
      cases a
      case insertSession => exact still.elim
      all_goals trivial
    exact (startSession_keyed cfg quiet (fun _ => trivial) ⟨trivial, fun _ _ => trivial⟩
      (fun _ keyed => keyed.credentialIs) fun _ => trivial).settle _
  all_goals
    refine (Call.body_may cfg _).mono (fun _ _ _ => trivial) (fun a _ => ?_) fun _ _ => trivial
    trivial

/-- Both ids have their one key, and every call in progress keeps to it. -/
abbrev KeysHold (h c : Uuid) (hostKey clientKey : PublicKey) : ServerPool → Prop :=
  System.Holds (fun s => KeyIs h hostKey s ∧ KeyIs c clientKey s)
    (fun t => t.rest.Upholds (AgreeBoth h c hostKey clientKey)
      (Issues h c hostKey clientKey t.call) (fun _ => True))

theorem KeyIs.disturb {id : Uuid} {key : PublicKey} {P : ServerPool} {x : Disturbance}
    (keyIs : KeyIs id key P.shared) (oneKey : OneKey id key P (.disturb x)) :
    KeyIs id key (x.apply P.shared) := by
  cases x with
  | env e => exact ⟨keyIs.here, keyIs.elsewhere⟩
  | redis r => exact ⟨keyIs.here, oneKey⟩

theorem KeysHold.move {P : ServerPool} {m : ServerMove}
    (attributable : Attributable cfg h c hostKey clientKey P m)
    (hold : KeysHold h c hostKey clientKey P) :
    KeysHold h c hostKey clientKey ((system cfg).move P m) := by
  refine System.Holds.move (system cfg) hold (fun call _ => body_issues cfg call) ?_ ?_
  · rintro x rfl
    exact ⟨hold.shared.1.disturb attributable.host, hold.shared.2.disturb attributable.client⟩
  · rintro i call a k rfl found
    have performs : Performs P (.step i) a := Pool.next?_step found
    refine ⟨⟨hold.shared.1.exec (attributable.host a performs),
      hold.shared.2.exec (attributable.client a performs)⟩, ?_⟩
    refine (hold.threads _ (List.mem_of_getElem? found)).2 _ ?_
    exact ⟨hold.shared.1.agrees a, hold.shared.2.agrees a⟩

/-- A session that is started is for the keys of the pair. -/
theorem KeysHold.starts {P : ServerPool} {m : ServerMove} {session : ActiveSession}
    (hold : KeysHold h c hostKey clientKey P) (starts : Starts P m session) :
    CredentialIs h c hostKey clientKey session := by
  obtain ⟨i, client, request, rfl, called, performs⟩ := starts
  obtain ⟨⟨call, rest⟩, found, rfl⟩ := Option.map_eq_some_iff.mp called
  obtain ⟨t, found', next⟩ := Option.bind_eq_some_iff.mp performs
  obtain rfl := Option.some.inj (found.symm.trans found')
  cases rest with
  | done u | fail e => cases next
  | act a k =>
      obtain rfl := Option.some.inj next
      exact (hold.threads _ (List.mem_of_getElem? found)).1

theorem keysBound_of_attributable {s : Server} {moves : List ServerMove}
    (hostStart : KeyIs h hostKey s) (clientStart : KeyIs c clientKey s)
    (attributable : (system cfg).Along (Attributable cfg h c hostKey clientKey) (idle s) moves) :
    KeysBound cfg (idle s) moves h c := by
  intro _ before grant between start after split granted started adds _ _ session starts isOf
  have initial : KeysHold h c hostKey clientKey (idle s) :=
    ⟨⟨hostStart, clientStart⟩, by simp [idle]⟩
  rw [split, List.append_assoc, System.along_append] at attributable
  obtain ⟨first, here, rest⟩ := attributable
  have atGrant : KeysHold h c hostKey clientKey granted :=
    (system cfg).schedule_invariant (fun _ _ => KeysHold.move cfg) initial first
  have atStart : KeysHold h c hostKey clientKey started := by
    have upTo : (system cfg).Along (Attributable cfg h c hostKey clientKey) granted
        (grant :: between) :=
      ⟨here, ((system cfg).along_append.mp rest).1⟩
    rw [show started = (system cfg).schedule granted (grant :: between) from
      (system cfg).schedule_append _ _ _]
    exact (system cfg).schedule_invariant (fun _ _ => KeysHold.move cfg) atGrant upTo
  obtain ⟨hostNamed, clientNamed⟩ := atStart.starts starts isOf
  obtain ⟨hostHere, clientHere⟩ := here.present adds
  rw [hostNamed, clientNamed]
  exact ⟨atGrant.shared.1.registeredKey? hostHere, atGrant.shared.2.registeredKey? clientHere⟩

end Runs

/-! ## A reconnection with another key -/

instance (id : Uuid) (key : PublicKey) (P : ServerPool) :
    (m : ServerMove) → Decidable (OneKey id key P m)
  | .call _ => .isTrue trivial
  | .step i => @Option.decidableForallMem _ _
      (fun a => Option.decidableForallMem (newKey? id P.shared a)) (P.next? (.step i : ServerMove))
  | .disturb (.env _) => .isTrue trivial
  | .disturb (.redis r) => Option.decidableForallMem (r.peers.lookup id)

instance (cfg : Config) (h c : Uuid) (hostKey clientKey : PublicKey) (P : ServerPool)
    (m : ServerMove) : Decidable (Attributable cfg h c hostKey clientKey P m) :=
  decidable_of_iff (OneKey h hostKey P m ∧ OneKey c clientKey P m ∧
      (Performs P m (.addPairing ⟨h, c⟩) →
        (registeredKey? cfg P.shared h).isSome ∧ (registeredKey? cfg P.shared c).isSome))
    ⟨fun ⟨host, client, present⟩ => ⟨host, client, present⟩,
      fun ⟨host, client, present⟩ => ⟨host, client, present⟩⟩

namespace Sample

/-- Host and client connect, and the host approves the client. -/
def approvedPair : List ServerMove :=
  [.call (.signedHello 0 ⟨host, 5, []⟩), .step 0, .step 0, .step 0,
    .call (.signedHello 1 ⟨client, 6, []⟩), .step 1, .step 1, .step 1,
    .call (.requestPairing client ⟨9, 1, ""⟩), .step 2, .step 2, .step 2, .step 2,
    .call (.decidePairing host ⟨9, true⟩), .step 3, .step 3, .step 3, .step 3]

/-- The client leaves, and comes back with this key. -/
def reconnection (key : PublicKey) : List ServerMove :=
  [.call (.disconnect client), .step 4, .step 4, .step 4, .step 4,
    .call (.signedHello 2 ⟨client, key, []⟩), .step 5, .step 5, .step 5]

def startOfSession : List ServerMove :=
  .call (.startSession client ⟨7, 1, none, none, none, {}, false, none⟩) ::
    List.replicate 9 (.step 6)

/-- The session started by a client that has come back with this key. -/
def sessionOf (key : PublicKey) : ActiveSession :=
  let credential := issueCredential config 7 5 key 1000 601000
  ⟨1, 2, .nativeQuic, .h264, credential, credential, 601000, {}⟩

end Sample

/-- The run of a client that leaves after its approval and comes back with this key. -/
def returningClient (key : PublicKey) : List ServerMove :=
  Sample.approvedPair ++ Sample.reconnection key ++ Sample.startOfSession

theorem sameKey_keysBound :
    ((system Sample.config).schedule (idle (Sample.fresh []))
        (returningClient 6)).shared.state.sessions.lookup 7 = some (Sample.sessionOf 6) ∧
      KeysBound Sample.config (idle (Sample.fresh [])) (returningClient 6) 1 2 := by
  have attributable : (system Sample.config).Along (Attributable Sample.config 1 2 5 6)
      (idle (Sample.fresh [])) (returningClient 6) := by
    decide
  refine ⟨by decide +kernel, ?_⟩
  exact keysBound_of_attributable _ ⟨nofun, nofun⟩ ⟨nofun, nofun⟩ attributable

/-- The grant was made with the key 6, and a session is started with the key 8. -/
theorem otherKey_not_keysBound :
    ¬ KeysBound Sample.config (idle (Sample.fresh [])) (returningClient 8) 1 2 := by
  intro bound
  have allSigned : AllSigned (returningClient 8) := by
    intro conn descriptor
    simp [returningClient, Sample.approvedPair, Sample.reconnection, Sample.startOfSession]
  have keys := bound allSigned ((returningClient 8).take 15) (.step 3)
    (((returningClient 8).drop 16).take 20) (.step 6) [] rfl (by decide)
    (by decide) (by decide) (Sample.sessionOf 8)
    ⟨6, Sample.client, _, rfl, by rfl, by decide +kernel⟩ ⟨rfl, rfl⟩
  exact absurd keys.2 (by decide)

end Qubox.Signaling
