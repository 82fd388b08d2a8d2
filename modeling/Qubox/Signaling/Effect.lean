import Qubox.Signaling.Action

/-!
# Effects of the atomic steps, table by table

Each table of an instance is changed by a handful of actions. The functions
`onPeers`, `onPending`, `onSessions` and `onPairings` say what an action does to
one table, `onRedis` what it does to the shared part, and the `exec_` lemmas that
this is all that happens to it. Proofs about a table go through them and do not
unfold `Server.exec`.
-/

namespace Qubox.Signaling

/-- The four tables that the results of this development speak about. -/
structure Tables where
  peers : AList (fun _ : Uuid => ConnectedPeer)
  pendingPairings : AList (fun _ : Uuid => PendingPairing)
  sessions : AList (fun _ : Uuid => ActiveSession)
  pairings : List PairingGrant

def SignalingState.tables (state : SignalingState) : Tables :=
  ⟨state.peers, state.pendingPairings, state.sessions, state.pairings⟩

/-- A fan-out only adds to the inboxes. -/
theorem Redis.fanout_eq (r : Redis) (message : Published) :
    ∃ inbox, r.fanout message = { r with inbox } := by
  suffices ∀ targets : List InstanceId,
      ∃ inbox, targets.foldl (fun r target => r.deliverTo target message) r = { r with inbox } from
    this r.subscribers
  intro targets
  induction targets generalizing r with
  | nil => exact ⟨r.inbox, rfl⟩
  | cons target targets ih => exact ih (r.deliverTo target message)

namespace Server

/-- Whatever a single push leaves alone, a loop of pushes leaves alone. -/
theorem pushAll_frame {τ : Type} (view : Server → τ)
    (keeps : ∀ s c m, view (s.push c m) = view s) (s : Server) (peers : List ConnectedPeer)
    (m : ServerMessage) : view (s.pushAll peers m) = view s := by
  induction peers generalizing s with
  | nil => rfl
  | cons peer peers ih => exact (ih (s.push peer.outbound m)).trans (keeps s _ m)

theorem execSendLocal_frame {τ : Type} (view : Server → τ)
    (keeps : ∀ s c m, view (s.push c m) = view s) (s : Server) (peerId : Uuid)
    (m : ServerMessage) : view (s.execSendLocal peerId m).2 = view s := by
  unfold execSendLocal
  split
  · rfl
  · exact keeps s _ m

@[simp] theorem push_env (s : Server) (c : ConnId) (m : ServerMessage) :
    (s.push c m).env = s.env := by
  unfold push
  split <;> rfl

@[simp] theorem push_redis (s : Server) (c : ConnId) (m : ServerMessage) :
    (s.push c m).redis = s.redis := by
  unfold push
  split <;> rfl

@[simp] theorem push_tables (s : Server) (c : ConnId) (m : ServerMessage) :
    (s.push c m).state.tables = s.state.tables := by
  unfold push
  split <;> rfl

theorem execPersist_state (s : Server) (snapshot : List PairingGrant) :
    ∃ file, (s.execPersist snapshot).2 =
      { s with state := { s.state with pairingFile := file } } := by
  unfold execPersist
  split
  · exact ⟨_, rfl⟩
  · split <;> exact ⟨_, rfl⟩

theorem execFindShareLink_state (s : Server) (code : String) :
    ∃ links, (s.execFindShareLink code).2 = s.setShareLinks links := by
  unfold execFindShareLink
  split
  · exact ⟨_, rfl⟩
  · split <;> exact ⟨_, rfl⟩

theorem execReceive_state (s : Server) (target : InstanceId) :
    ∃ redis, (s.execReceive target).2 = { s with redis } := by
  unfold execReceive
  split <;> exact ⟨_, rfl⟩

end Server

namespace Action

def onPeers : Action → AList (fun _ : Uuid => ConnectedPeer) → AList (fun _ : Uuid => ConnectedPeer)
  | .insertPeer peer, peers =>
      if (peers.lookup peer.descriptor.peerId).isSome then peers
      else peers.insert peer.descriptor.peerId peer
  | .removePeer peerId, peers => peers.erase peerId
  | .bumpHeartbeat peerId, peers => peers.adjust peerId (fun peer =>
      { peer with heartbeatCount := (peer.heartbeatCount + 1) % 2 ^ 64 })
  | _, peers => peers

def onPending : Action → AList (fun _ : Uuid => PendingPairing) →
    AList (fun _ : Uuid => PendingPairing)
  | .insertPending pending, table => table.insert pending.requestId pending
  | .takePending requestId, table => table.erase requestId
  | _, table => table

def onSessions : Action → AList (fun _ : Uuid => ActiveSession) →
    AList (fun _ : Uuid => ActiveSession)
  | .pruneSessions time, sessions =>
      sessions.retain (fun _ session => decide (time < session.expiresUnixMillis))
  | .insertSession sessionId session, sessions => sessions.insert sessionId session
  | .removeSession sessionId, sessions => sessions.erase sessionId
  | .dropSessionsOf h c, sessions => sessions.retain (fun _ session => !decide (session.IsOf h c))
  | .dropSessionsFor peerId, sessions => sessions.retain (fun _ session =>
      session.hostPeerId ≠ peerId && session.clientPeerId ≠ peerId)
  | _, sessions => sessions

def onPairings : Action → List PairingGrant → List PairingGrant
  | .addPairing grant, pairings => Server.withGrant pairings grant
  | .removePairing h c, pairings => Server.withoutGrant pairings ⟨h, c⟩
  | _, pairings => pairings

/-- A registration in the table was there before, up to its heartbeat count,
unless the action makes it. -/
theorem lookup_onPeers {a : Action} {peers : AList (fun _ : Uuid => ConnectedPeer)} {id : Uuid}
    {peer : ConnectedPeer} (found : (a.onPeers peers).lookup id = some peer) :
    (∃ old count, peers.lookup id = some old ∧ peer = { old with heartbeatCount := count }) ∨
      (a = .insertPeer peer ∧ peer.descriptor.peerId = id ∧ peers.lookup id = none) := by
  cases a
  case insertPeer new =>
    rw [onPeers] at found
    split at found
    case isTrue => exact .inl ⟨peer, peer.heartbeatCount, found, rfl⟩
    case isFalse free =>
      rw [AList.lookup_insert_ite] at found
      split at found
      case isTrue same =>
        cases found
        subst same
        exact .inr ⟨rfl, rfl, Option.not_isSome_iff_eq_none.mp free⟩
      case isFalse => exact .inl ⟨peer, peer.heartbeatCount, found, rfl⟩
  case removePeer id' =>
    rw [onPeers, AList.lookup_erase_ite] at found
    split at found
    · cases found
    · exact .inl ⟨peer, peer.heartbeatCount, found, rfl⟩
  case bumpHeartbeat id' =>
    rw [onPeers, AList.lookup_adjust] at found
    split at found
    case isTrue same =>
      subst same
      obtain ⟨old, before, rfl⟩ := Option.map_eq_some_iff.mp found
      exact .inl ⟨old, _, before, rfl⟩
    case isFalse => exact .inl ⟨peer, peer.heartbeatCount, found, rfl⟩
  all_goals exact .inl ⟨peer, peer.heartbeatCount, found, rfl⟩

/-- A request in the table was there before, unless the action stores it. -/
theorem lookup_onPending {a : Action} {table : AList (fun _ : Uuid => PendingPairing)} {r : Uuid}
    {p : PendingPairing} (found : (a.onPending table).lookup r = some p) :
    table.lookup r = some p ∨ (a = .insertPending p ∧ p.requestId = r) := by
  cases a
  case insertPending pending =>
    rw [onPending, AList.lookup_insert_ite] at found
    split at found
    case isTrue same =>
      cases found
      exact .inr ⟨rfl, same.symm⟩
    case isFalse => exact .inl found
  case takePending id =>
    rw [onPending, AList.lookup_erase_ite] at found
    split at found
    · cases found
    · exact .inl found
  all_goals exact .inl found

/-- A session in the table was there before, unless the action stores it. -/
theorem lookup_onSessions {a : Action} {sessions : AList (fun _ : Uuid => ActiveSession)}
    {id : Uuid} {session : ActiveSession}
    (found : (a.onSessions sessions).lookup id = some session) :
    sessions.lookup id = some session ∨ a = .insertSession id session := by
  cases a
  case insertSession id' session' =>
    rw [onSessions, AList.lookup_insert_ite] at found
    split at found
    case isTrue same =>
      cases found
      exact .inr (same ▸ rfl)
    case isFalse => exact .inl found
  case removeSession id' =>
    rw [onSessions, AList.lookup_erase_ite] at found
    split at found
    · cases found
    · exact .inl found
  case pruneSessions time => exact .inl (AList.lookup_retain_eq_some.mp found).1
  case dropSessionsOf h c => exact .inl (AList.lookup_retain_eq_some.mp found).1
  case dropSessionsFor peerId => exact .inl (AList.lookup_retain_eq_some.mp found).1
  all_goals exact .inl found

/-- A grant in the store was there before, unless the action adds it. -/
theorem mem_onPairings {a : Action} {pairings : List PairingGrant} {grant : PairingGrant}
    (member : grant ∈ a.onPairings pairings) : grant ∈ pairings ∨ a = .addPairing grant := by
  cases a
  case addPairing grant' =>
    simp only [onPairings, Server.withGrant] at member
    split at member
    · exact .inl member
    · rcases List.mem_append.mp member with before | new
      · exact .inl before
      · rw [List.mem_singleton.mp new]
        exact .inr rfl
  case removePairing h c => exact .inl (List.mem_of_mem_filter member)
  all_goals exact .inl member

/-- Commands reach Redis while it is up; the listener takes an envelope. -/
def onRedis (up : Bool) : Action → Redis → Redis
  | .bus command, r => if up then (Redis.exec command r).2 else r
  | .receive target, r =>
      { r with inbox := Function.update r.inbox target (r.inbox target).tail }
  | _, r => r

/-- An entry of the cluster's registry was there before, unless the action makes it. -/
theorem lookup_onRedis {up : Bool} {a : Action} {r : Redis} {id : Uuid} {record : RemotePeer}
    (found : (a.onRedis up r).peers.lookup id = some record) :
    r.peers.lookup id = some record ∨ a = .bus (.setPeer id record) := by
  cases a
  case bus command =>
    rw [onRedis] at found
    split at found
    · cases command
      case setPeer id' record' =>
        rw [Redis.exec, AList.lookup_insert_ite] at found
        split at found
        case isTrue same =>
          cases found
          exact .inr (same ▸ rfl)
        case isFalse => exact .inl found
      case delPeer id' =>
        rw [Redis.exec, AList.lookup_erase_ite] at found
        split at found
        · cases found
        · exact .inl found
      case publishPresence origin envelope =>
        obtain ⟨inbox, same⟩ := r.fanout_eq ⟨envelope, some origin⟩
        simp only [Redis.exec, same] at found
        exact .inl found
      all_goals exact .inl found
    · exact .inl found
  all_goals exact .inl found

end Action

namespace Server

variable (a : Action) (s : Server)

@[simp] theorem exec_env : (exec a s).2.env = s.env := by
  cases a
  case insertPeer peer =>
    simp only [exec]
    split <;> rfl
  case bus command =>
    simp only [exec]
    split <;> rfl
  case persist snapshot =>
    obtain ⟨file, h⟩ := s.execPersist_state snapshot
    simp only [exec, h]
  case findShareLink code =>
    obtain ⟨links, h⟩ := s.execFindShareLink_state code
    simp only [exec, h, setShareLinks]
  case receive target =>
    obtain ⟨redis, h⟩ := s.execReceive_state target
    simp only [exec, h]
  case sendLocal peerId m => exact execSendLocal_frame env push_env s peerId m
  case broadcastLocal subject tenant m => exact pushAll_frame env push_env s _ m
  case broadcastAll origin m => exact pushAll_frame env push_env s _ m
  case reply c m => exact push_env s c m
  all_goals rfl

theorem exec_tables : (exec a s).2.state.tables =
    ⟨a.onPeers s.state.peers, a.onPending s.state.pendingPairings,
      a.onSessions s.state.sessions, a.onPairings s.state.pairings⟩ := by
  cases a
  case insertPeer peer =>
    simp only [exec, Action.onPeers]
    split <;> rfl
  case bus command =>
    simp only [exec]
    split <;> rfl
  case persist snapshot =>
    obtain ⟨file, h⟩ := s.execPersist_state snapshot
    simp only [exec, h]
    rfl
  case findShareLink code =>
    obtain ⟨links, h⟩ := s.execFindShareLink_state code
    simp only [exec, h]
    rfl
  case receive target =>
    obtain ⟨redis, h⟩ := s.execReceive_state target
    simp only [exec, h]
    rfl
  case sendLocal peerId m => exact execSendLocal_frame (·.state.tables) push_tables s peerId m
  case broadcastLocal subject tenant m => exact pushAll_frame (·.state.tables) push_tables s _ m
  case broadcastAll origin m => exact pushAll_frame (·.state.tables) push_tables s _ m
  case reply c m => exact push_tables s c m
  all_goals rfl

theorem exec_peers : (exec a s).2.state.peers = a.onPeers s.state.peers :=
  congrArg Tables.peers (exec_tables a s)

theorem exec_pending : (exec a s).2.state.pendingPairings = a.onPending s.state.pendingPairings :=
  congrArg Tables.pendingPairings (exec_tables a s)

theorem exec_sessions : (exec a s).2.state.sessions = a.onSessions s.state.sessions :=
  congrArg Tables.sessions (exec_tables a s)

theorem exec_pairings : (exec a s).2.state.pairings = a.onPairings s.state.pairings :=
  congrArg Tables.pairings (exec_tables a s)

theorem exec_redis : (exec a s).2.redis = a.onRedis s.env.redisUp s.redis := by
  cases a
  case insertPeer peer =>
    simp only [exec]
    split <;> rfl
  case bus command =>
    simp only [exec, Action.onRedis]
    split <;> rfl
  case persist snapshot =>
    obtain ⟨file, h⟩ := s.execPersist_state snapshot
    simp only [exec, h]
    rfl
  case findShareLink code =>
    obtain ⟨links, h⟩ := s.execFindShareLink_state code
    simp only [exec, h]
    rfl
  case receive target =>
    simp only [exec, execReceive, Action.onRedis]
    split
    case h_1 empty => rw [empty, List.tail_nil, ← empty, Function.update_eq_self]
    case h_2 next rest more => rw [more, List.tail_cons]
  case sendLocal peerId m => exact execSendLocal_frame redis push_redis s peerId m
  case broadcastLocal subject tenant m => exact pushAll_frame redis push_redis s _ m
  case broadcastAll origin m => exact pushAll_frame redis push_redis s _ m
  case reply c m => exact push_redis s c m
  all_goals rfl

/-! ## Messages -/

/-- What an action tries to put on which channel. -/
def sends (s : Server) : Action → List (ConnId × ServerMessage)
  | .sendLocal peerId m => (s.state.peers.lookup peerId).toList.map (fun p => (p.outbound, m))
  | .broadcastLocal subject tenantId m =>
      (s.audience subject tenantId).map (fun p => (p.outbound, m))
  | .broadcastAll _ m => (s.env.shuffle s.state.peers.values).1.map (fun p => (p.outbound, m))
  | .reply c m => [(c, m)]
  | _ => []

theorem push_outbound (c : ConnId) (m : ServerMessage) : (s.push c m).state.outbound =
    s.state.outbound ++ [(c, m)].filter (fun sent => s.env.writable sent.1) := by
  unfold push
  split <;> simp [*]

theorem pushAll_outbound (peers : List ConnectedPeer) (m : ServerMessage) :
    (s.pushAll peers m).state.outbound = s.state.outbound ++
      (peers.map (fun p => (p.outbound, m))).filter (fun sent => s.env.writable sent.1) := by
  induction peers generalizing s with
  | nil => simp [pushAll]
  | cons peer peers ih =>
      have rest := ih (s.push peer.outbound m)
      simp only [push_outbound, push_env, List.append_assoc, ← List.filter_append] at rest
      simpa [pushAll] using rest

/-- The outbound log grows by the messages whose channel is still writable. -/
theorem exec_outbound : (exec a s).2.state.outbound =
    s.state.outbound ++ (s.sends a).filter (fun sent => s.env.writable sent.1) := by
  cases a
  case insertPeer peer =>
    simp only [exec]
    split <;> simp [sends, setPeers]
  case bus command =>
    simp only [exec]
    split <;> simp [sends]
  case persist snapshot =>
    obtain ⟨file, h⟩ := s.execPersist_state snapshot
    simp [exec, h, sends]
  case findShareLink code =>
    obtain ⟨links, h⟩ := s.execFindShareLink_state code
    simp [exec, h, sends, setShareLinks]
  case receive target =>
    obtain ⟨redis, h⟩ := s.execReceive_state target
    simp [exec, h, sends]
  case sendLocal peerId m =>
    cases found : s.state.peers.lookup peerId with
    | none => simp [exec, execSendLocal, found, sends]
    | some peer => simpa [exec, execSendLocal, found, sends] using s.push_outbound peer.outbound m
  case broadcastLocal subject tenant m => exact s.pushAll_outbound _ m
  case broadcastAll origin m => exact s.pushAll_outbound _ m
  case reply c m => exact s.push_outbound c m
  all_goals simp [exec, sends, setPeers, setPending, setSessions, setPairings, setShareLinks]

end Server

end Qubox.Signaling
