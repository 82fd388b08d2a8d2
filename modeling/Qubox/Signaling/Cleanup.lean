import Qubox.Library.Protocol
import Qubox.Signaling.Hub
import Qubox.Signaling.Ownership

/-!
# What a socket leaves behind

`handle_socket` unregisters its peer and drops the sessions of the peer in the
block behind its loop. An operation of another socket may be at any of its await
points while that block runs.

Two things escape the block. A bundle that is rejected leaves the handler by
`return`. And `start_session` stores its session without another look at the two
peers: one of them may have gone since it was checked, with its sessions dropped
by then. A refused kick puts a session back in the same way. `Orderly` excludes
both. Then every entry of `peers` belongs to a socket in its loop, and a session
of a peer whose sessions were dropped before belongs to a socket that has
registered the peer again, and has not yet dropped them.
-/

namespace Qubox.Signaling

open Interaction
open Interaction.Program (Upholds Conforms)

/-- The channel of a socket's handler. -/
def Task.channel? : Task → Option ConnId
  | .socket conn _ => some conn
  | .listener _ => none

/-- The two peers of a session. -/
def ActiveSession.peers (session : ActiveSession) : List Uuid :=
  [session.hostPeerId, session.clientPeerId]

/-- The session that an action stores. -/
def Action.session? : Action → Option ActiveSession
  | .insertSession _ session => some session
  | _ => none

/-- The peer whose sessions an action drops. -/
def Action.dropped? : Action → Option Uuid
  | .dropSessionsFor peerId => some peerId
  | _ => none

/-- The error that an action reports on the socket's own channel. -/
def Action.reported? : Action → Option ErrorMessage
  | .reply _ (.error error) => some error
  | _ => none

/-- The codes under which the bundle arm reports a rejection. -/
def rejections : List String := ["bundle_rejected", "ice_allowlist_rejected"]

def Action.Rejects (a : Action) : Prop := ∃ error ∈ a.reported?, error.code ∈ rejections

instance (a : Action) : Decidable a.Rejects :=
  inferInstanceAs (Decidable (∃ error ∈ a.reported?, error.code ∈ rejections))

/-- The peer id under which an event registers the socket. -/
def newcomer? : Event signature → Option Uuid
  | ⟨.insertPeer peer, true⟩ => some peer.descriptor.peerId
  | _ => none

/-! ## Runs of sockets -/

namespace Cleanup

section Statement

/-- The peers whose sessions have been dropped. -/
def dropped (past : List (Event signature)) : List Uuid :=
  past.filterMap fun e => e.action.dropped?

/-- The peer ids that are registered. -/
def registered (past : List (Event signature)) : List Uuid := past.filterMap newcomer?

/-- A peer of the session whose sessions have been dropped is registered again. -/
def Timely (past : List (Event signature)) (s : Server) (session : ActiveSession) : Prop :=
  ∀ p ∈ session.peers, p ∈ dropped past → (s.state.peers.lookup p).isSome

instance (past : List (Event signature)) (p : Uuid) : Decidable (p ∈ dropped past) :=
  decidable_of_iff _ List.elem_iff

instance (past : List (Event signature)) (s : Server) (session : ActiveSession) :
    Decidable (Timely past s session) :=
  List.decidableBAll _ session.peers

/-- The step neither rejects a bundle, nor stores a session too late. -/
def Orderly (past : List (Event signature)) (P : SocketPool) (m : SocketMove) : Prop :=
  ∀ a ∈ P.next? m, ¬ a.Rejects ∧ ∀ session ∈ a.session?, Timely past P.shared session

instance (past : List (Event signature)) (P : SocketPool) (m : SocketMove) :
    Decidable (Orderly past P m) :=
  inferInstanceAs (Decidable (∀ a ∈ P.next? m, ¬ a.Rejects ∧
    ∀ session ∈ a.session?, Timely past P.shared session))

/-- Every websocket has a channel of its own. -/
def OwnChannels (P : SocketPool) : Prop :=
  P.threads.Pairwise fun t u => ∀ conn ∈ t.call.channel?, conn ∉ u.call.channel?

instance (P : SocketPool) : Decidable (OwnChannels P) :=
  inferInstanceAs (Decidable (List.Pairwise _ _))

/-- The handler of the socket has returned. -/
def Returned (P : SocketPool) (i : Nat) (conn : ConnId) : Prop :=
  ∃ t ∈ P.threads[i]?, t.call.channel? = some conn ∧ t.rest.outcome?.isSome

instance (P : SocketPool) (i : Nat) (conn : ConnId) : Decidable (Returned P i conn) :=
  inferInstanceAs (Decidable (∃ t ∈ P.threads[i]?, t.call.channel? = some conn ∧ _))

/-- There is an entry that the socket of this channel has registered. -/
def LeavesEntry (s : Server) (conn : ConnId) : Prop :=
  ∃ id peer, s.state.peers.lookup id = some peer ∧ peer.outbound = conn

/-- There is a session of a peer that the socket has registered. -/
def LeavesSession (s : Server) (own : List (Event signature)) : Prop :=
  ∃ p ∈ registered own, ∃ id session,
    s.state.sessions.lookup id = some session ∧ p ∈ session.peers

/-- Another socket has registered a peer of the socket `i`, and its handler has
not returned. -/
def Reconnected (P : SocketPool) (own : Nat → List (Event signature)) (i : Nat) : Prop :=
  ∃ p ∈ registered (own i), ∃ j t, j ≠ i ∧ p ∈ registered (own j) ∧
    P.threads[j]? = some t ∧ t.rest.InProgress

end Statement

/-! ## The stations of a handler -/

/-- How far a handler is with its peer: its entry is there, or only its sessions
are, or nothing is. -/
inductive Standing where
  | outside
  | registered (peerId : Uuid)
  | leaving (peerId : Uuid)
  | gone (peerId : Uuid)
  deriving DecidableEq

namespace Standing

def peer? : Standing → Option Uuid
  | .outside => none
  | .registered p | .leaving p | .gone p => some p

/-- The handler may return. -/
def Settled : Standing → Prop
  | .outside | .gone _ => True
  | .registered _ | .leaving _ => False

def Allows (channel : Option ConnId) (standing : Standing) : Action → Prop
  | .insertPeer peer => standing = .outside ∧ channel = some peer.outbound
  | .removePeer id => standing = .registered id
  | .dropSessionsFor id => ∀ p, standing = .leaving p → id = p
  | _ => True

def after (standing : Standing) : (a : Action) → a.Answer → Standing
  | .insertPeer peer, true => .registered peer.descriptor.peerId
  | .removePeer id, _ => .leaving id
  | .dropSessionsFor _, _ =>
      match standing with
      | .leaving p => .gone p
      | _ => standing
  | _, _ => standing

variable {channel : Option ConnId} {standing : Standing} {a : Action}

/-- Everything a handler does to its own standing. -/
theorem Allows.cases (allowed : standing.Allows channel a) (r : a.Answer) :
    (∃ peer, standing = .outside ∧ a = .insertPeer peer ∧ channel = some peer.outbound) ∨
    (∃ p, standing = .registered p ∧ a = .removePeer p) ∨
    (∃ p, standing = .leaving p ∧ a = .dropSessionsFor p) ∨
    (KeepsPeers a ∧ (∀ p, standing = .leaving p → a.dropped? = none) ∧
      standing.after a r = standing ∧ newcomer? ⟨a, r⟩ = none) := by
  cases a
  case insertPeer peer => exact .inl ⟨peer, allowed.1, rfl, allowed.2⟩
  case removePeer id => exact .inr (.inl ⟨id, allowed, rfl⟩)
  case dropSessionsFor id =>
    cases standing with
    | leaving p =>
        obtain rfl := allowed p rfl
        exact .inr (.inr (.inl ⟨id, rfl, rfl⟩))
    | outside | registered _ | gone _ => exact .inr (.inr (.inr ⟨trivial, nofun, rfl, rfl⟩))
  all_goals exact .inr (.inr (.inr ⟨trivial, fun _ _ => rfl, rfl, rfl⟩))

end Standing

/-- No rejection is answered, so none is expected to go on. -/
def serving (channel : Option ConnId) : Protocol signature Standing where
  allows := Standing.Allows channel
  expects _ a _ := ¬ a.Rejects
  after := Standing.after

/-! ## Every handler keeps to the stations -/

/-- The station of a handler in its loop. -/
def Standing.of : Option PeerDescriptor → Standing
  | none => .outside
  | some peer => .registered peer.peerId

/-- How the handling of a frame may end, rejections apart. -/
def Ends (registered : Option PeerDescriptor) (standing : Standing) : Flow → Prop
  | .next registered' => standing = .of registered'
  | .leave => standing = .of registered
  | .exit => False

theorem Standing.of_ne_leaving {registered : Option PeerDescriptor} (p : Uuid) :
    Standing.of registered ≠ .leaving p := by
  cases registered <;> nofun

theorem dropped_of_quiet (a : Action) (quiet : a.Quiet) : a.dropped? = none := by
  cases a
  case dropSessionsFor => exact quiet.elim
  all_goals rfl

abbrev Spared (a : Action) (_ : a.Answer) : Prop := ¬ a.Rejects

section Conforms

variable {ε α : Type} {channel : Option ConnId} {standing : Standing} {E : Action → Prop}
  {Q : α → Prop}

theorem Standing.stays (enough : ∀ a, E a → KeepsPeers a)
    (drops : ∀ p, standing = .leaving p → ∀ a, E a → a.dropped? = none) (a : Action) (h : E a) :
    standing.Allows channel a ∧ ∀ r, standing.after a r = standing := by
  have keeps := enough a h
  cases a
  case insertPeer => exact keeps.elim
  case removePeer => exact keeps.elim
  case dropSessionsFor id =>
    cases standing with
    | leaving p => cases drops p rfl _ h
    | outside | registered _ | gone _ => exact ⟨nofun, fun _ => rfl⟩
  all_goals exact ⟨trivial, fun _ => rfl⟩

/-- A part of the handler that neither registers nor unregisters. -/
theorem conforms_of_upholds {p : Program signature ε α} (upholds : p.Upholds Spared E Q)
    (enough : ∀ a, E a → KeepsPeers a)
    (drops : ∀ p, standing = .leaving p → ∀ a, E a → a.dropped? = none) :
    p.Conforms (serving channel) (fun later a => later = standing ∧ Q a) standing :=
  Upholds.conforms (A := serving channel)
    (upholds.mono (fun _ _ h => h) (Standing.stays enough drops) fun _ h => h)

theorem conforms_of_keepsPeers {p : Program signature ε α} (keeps : p.Upholds Spared KeepsPeers Q)
    (staying : ∀ p, standing ≠ .leaving p) :
    p.Conforms (serving channel) (fun later a => later = standing ∧ Q a) standing :=
  conforms_of_upholds keeps (fun _ h => h) fun p same => absurd same (staying p)

variable (cfg : Config) (conn : ConnId)

/-! ### The handshake -/

theorem answered_conforms (code message : String) {registered : Option PeerDescriptor} {flow : Flow}
    (ends : Ends registered (.of registered) flow) :
    (do replyError conn code message; return flow : Proc Flow).Conforms (serving channel)
      (Ends registered) (.of registered) := by
  have told : (replyError conn code message : Proc Unit).Upholds Spared KeepsPeers
      (fun _ => True) :=
    ⟨trivial, fun _ _ => trivial⟩
  refine (conforms_of_keepsPeers told Standing.of_ne_leaving).bind fun later _ same => ?_
  rw [same.1]
  exact ends

/-- The record of a registration in the cluster fails with nothing. -/
theorem recordPeer_failsWith (d : PeerDescriptor) (pk : Option PublicKey) (t : Uuid) :
    (recordPeer cfg d pk t).FailsWith (fun _ => False) := by
  unfold recordPeer
  split
  · exact (Program.attempt_failsWith _).bind fun _ => trivial
  · trivial

theorem acceptPeer_conforms (d : PeerDescriptor) (pk : Option PublicKey) (t a : Uuid)
    (welcome : String) :
    (acceptPeer cfg conn d pk t a welcome).Conforms (serving (some conn)) (Ends none) .outside := by
  refine ⟨⟨rfl, rfl⟩, fun inserted _ => ?_⟩
  cases inserted with
  | false => exact answered_conforms conn _ _ rfl
  | true =>
      have recorded : ((recordPeer cfg d pk t).attempt : Proc _).Upholds Spared KeepsPeers
          (fun r => Program.Attempted (fun _ => True) r ∧ ∀ e, r = .error e → False) :=
        (recordPeer_upholds cfg (fun _ => trivial) trivial).attempt_failing
          (recordPeer_failsWith cfg d pk t)
      refine (conforms_of_keepsPeers recorded (by rintro _ ⟨⟩)).bind fun later answer known => ?_
      obtain ⟨rfl, -, failed⟩ := known
      cases answer with
      | error e => exact (failed e rfl).elim
      | ok u =>
          have announced : (do
              perform (.reply conn (.welcome ⟨d.peerId, welcome⟩))
              broadcastPresence cfg d t true : Proc Unit).Upholds Spared KeepsPeers
                (fun _ => True) :=
            Upholds.perform_bind trivial fun _ _ =>
              broadcastPresence_upholds cfg ⟨trivial, trivial⟩
          exact (conforms_of_keepsPeers announced (by rintro _ ⟨⟩)).bind fun _ _ same => same.1

/-- What a handler can do before it has registered its peer. -/
theorem handshake_conforms (message : ClientMessage) :
    (handleMessage cfg conn none message).Conforms (serving (some conn)) (Ends none) .outside := by
  cases message
  case hello descriptor =>
    rw [handleMessage, hello]
    split
    · exact answered_conforms conn _ _ rfl
    · split
      · exact answered_conforms conn _ _ rfl
      · exact acceptPeer_conforms cfg conn _ _ _ _ _
  case signedHello signed =>
    rw [handleMessage, signedHello]
    split
    · exact answered_conforms conn _ _ rfl
    · have asked : ((resolveEnrollmentFull cfg signed.descriptor.deviceId
          signed.publicKey).attempt : Proc _).Upholds Spared KeepsPeers _ :=
        (resolveEnrollmentFull_upholds cfg keepsPeers_of_quiet _ _).attempt
      refine (conforms_of_keepsPeers asked (by rintro _ ⟨⟩)).bind fun later enrolled same => ?_
      obtain ⟨rfl, -⟩ := same
      cases enrolled with
      | ok enrollment => exact acceptPeer_conforms cfg conn _ _ _ _ _
      | error e =>
          dsimp only
          split
          · exact acceptPeer_conforms cfg conn _ _ _ _ _
          · exact answered_conforms conn _ _ rfl
  all_goals exact answered_conforms conn _ _ rfl

/-! ### The loop -/

/-- The checks of the bundle arm fail under the codes of a rejection. -/
theorem verifySessionBundle_failsWith (request : StartSessionBundleRequest) (now : Nat) :
    (verifySessionBundle cfg request now).FailsWith (fun e => e.1 ∈ rejections) := by
  unfold verifySessionBundle
  refine (Program.attempt_failsWith _).bind fun viewer => ?_
  cases viewer with
  | error e => exact .head _
  | ok viewer =>
      dsimp only
      split
      · trivial
      · refine (Program.attempt_failsWith _).bind fun allowlist => ?_
        cases allowlist with
        | error e => exact .tail _ (.head _)
        | ok payload => trivial

/-- Without a rejection the bundle arm stays in the loop. -/
theorem onStartSessionWithBundle_upholds (peer : PeerDescriptor)
    (request : StartSessionBundleRequest) :
    (onStartSessionWithBundle cfg conn peer request).Upholds Spared KeepsPeers
      (fun flow => flow = .next (some peer)) := by
  refine Upholds.perform_bind trivial fun now _ => ?_
  have checked : ((verifySessionBundle cfg request now).attempt : Proc _).Upholds Spared KeepsPeers
      (fun r => Program.Attempted (fun _ => True) r ∧ ∀ e, r = .error e → e.1 ∈ rejections) :=
    (verifySessionBundle_upholds cfg keepsPeers_of_quiet fun _ _ _ => trivial).attempt_failing
      (verifySessionBundle_failsWith cfg request now)
  refine checked.bind fun answer known => ?_
  cases answer with
  | ok viewer =>
      have accepted := onBundleAccepted_ordinary cfg conn peer request.request viewer
      refine (accepted.mono (fun _ _ _ => trivial) keepsPeers_of_ordinary fun _ h => h).bind
        fun _ _ => ?_
      exact rfl
  | error e => exact ⟨trivial, fun _ spared => absurd ⟨_, rfl, known.2 e rfl⟩ spared⟩

theorem handleMessage_upholds (peer : PeerDescriptor) (message : ClientMessage) :
    (handleMessage cfg conn (some peer) message).Upholds Spared KeepsPeers
      (fun flow => flow = .next (some peer)) := by
  by_cases bundle : ∃ request, message = .startSessionWithBundle request
  · obtain ⟨request, rfl⟩ := bundle
    exact onStartSessionWithBundle_upholds cfg conn peer request
  · refine (handleMessage_keepsPeers cfg conn peer message).mono (fun _ _ _ => trivial)
      (fun _ h => h) fun flow ends => ?_
    exact ends.resolve_right fun exits => bundle exits.2

theorem handleFrame_conforms (registered : Option PeerDescriptor) (frame : Frame) :
    (handleFrame cfg conn registered frame).Conforms (serving (some conn)) (Ends registered)
      (.of registered) := by
  cases frame with
  | readError | close | ping | pong => exact rfl
  | binary => exact answered_conforms conn _ _ rfl
  | text payload =>
      simp only [handleFrame]
      cases cfg.decodeMessage payload with
      | error e => exact answered_conforms conn _ _ rfl
      | ok message =>
          cases registered with
          | none => exact handshake_conforms cfg conn message
          | some peer =>
              refine (conforms_of_keepsPeers (handleMessage_upholds cfg conn peer message)
                Standing.of_ne_leaving).imp fun later flow known => ?_
              obtain ⟨rfl, rfl⟩ := known
              exact rfl

/-! ### The block behind the loop -/

/-- Between the removal of the entry and that of the sessions the record in the
cluster is deleted. -/
theorem unregister_conforms (p : Uuid) :
    (unregister cfg p).Conforms (serving channel) (fun later _ => later = .leaving p)
      (.registered p) := by
  refine ⟨rfl, fun removed _ => ?_⟩
  have forgotten : (forgetPeer cfg p removed).Upholds Spared
      (fun a => KeepsPeers a ∧ Action.dropped? a = none) (fun _ => True) :=
    forgetPeer_upholds cfg (fun a quiet => ⟨keepsPeers_of_quiet a quiet, dropped_of_quiet a quiet⟩)
      ⟨trivial, rfl⟩ removed
  exact (conforms_of_upholds forgotten (fun _ h => h.1) fun _ _ _ h => h.2).bind
    fun _ _ same => same.1

theorem closeSocket_conforms (registered : Option PeerDescriptor) :
    (closeSocket cfg registered).Conforms (serving channel) (fun later _ => later.Settled)
      (.of registered) := by
  cases registered with
  | none => trivial
  | some peer =>
      refine ⟨trivial, fun found _ => ?_⟩
      refine (unregister_conforms cfg peer.peerId).bind fun later _ leaving => ?_
      subst leaving
      refine ⟨fun _ same => Standing.leaving.inj same, fun _ _ => ?_⟩
      have announced (tenantId : Uuid) :
          (broadcastPresence cfg peer tenantId false).Upholds Spared KeepsPeers (fun _ => True) :=
        broadcastPresence_upholds cfg ⟨trivial, trivial⟩
      refine (conforms_of_keepsPeers (announced _) (by rintro _ ⟨⟩)).imp fun later _ same => ?_
      rw [same.1]
      trivial

theorem handleSocket_conforms (registered : Option PeerDescriptor) (frames : List Frame) :
    (handleSocket cfg conn registered frames).Conforms (serving (some conn))
      (fun later _ => later.Settled) (.of registered) := by
  induction frames generalizing registered with
  | nil => exact closeSocket_conforms cfg registered
  | cons frame frames ih =>
      refine (handleFrame_conforms cfg conn registered frame).bind fun later flow ends => ?_
      cases flow with
      | next registered' =>
          rw [ends]
          exact ih registered'
      | leave =>
          rw [ends]
          exact closeSocket_conforms cfg registered
      | exit => exact ends.elim

theorem task_conforms (task : Task) :
    (task.body cfg).Conforms (serving task.channel?) (fun later _ => later.Settled) .outside := by
  cases task with
  | socket conn frames => exact handleSocket_conforms cfg conn none frames
  | listener self =>
      have listens : (clusterListener self).Upholds Spared KeepsPeers (fun _ => True) :=
        clusterListener_upholds trivial (fun _ _ _ => trivial) fun _ _ _ => trivial
      refine (conforms_of_keepsPeers listens (by rintro _ ⟨⟩)).imp fun later _ same => ?_
      rw [same.1]
      trivial

end Conforms

/-! ## The tables and the stations -/

/-- The station of a handler after its events. -/
def standingAfter (past : List (Event signature)) : Standing :=
  past.foldl (fun standing e => standing.after e.action e.answer) .outside

@[simp] theorem standingAfter_concat (past : List (Event signature)) (a : Action)
    (r : a.Answer) : standingAfter (past ++ [⟨a, r⟩]) = (standingAfter past).after a r := by
  simp [standingAfter]

/-- A handler has registered the peer it stands for and no other, and has dropped
its sessions by the time the peer is gone. -/
structure Serves (past : List (Event signature)) (t : Thread signature Empty Task) : Prop where
  entered : registered past = (standingAfter past).peer?.toList
  drops : ∀ p, standingAfter past = .gone p → p ∈ dropped past
  rest : t.rest.Conforms (serving t.call.channel?) (fun later _ => later.Settled)
    (standingAfter past)

theorem Serves.act {past : List (Event signature)} {task : Task} {a : Action}
    {k : a.Answer → Proc Unit} (serves : Serves past ⟨task, .act a k⟩) (spared : ¬ a.Rejects)
    (r : a.Answer) : Serves (past ++ [⟨a, r⟩]) ⟨task, k r⟩ := by
  obtain ⟨entered, drops, allowed, rest⟩ := serves
  have next : (k r).Conforms (serving task.channel?) (fun later _ => later.Settled)
      (standingAfter (past ++ [⟨a, r⟩])) := by
    rw [standingAfter_concat]
    exact rest r spared
  refine ⟨?_, fun p gone => ?_, next⟩
  · have grown : registered (past ++ [⟨a, r⟩]) = registered past ++ registered [⟨a, r⟩] :=
      List.filterMap_append
    rw [grown, entered, standingAfter_concat]
    rcases allowed.cases r with ⟨peer, outside, rfl, -⟩ | ⟨p, same, rfl⟩ | ⟨p, same, rfl⟩ |
      ⟨-, -, stays, none⟩
    · rw [outside]
      cases r <;> rfl
    · rw [same]
      rfl
    · rw [same]
      rfl
    · rw [stays]
      simp [registered, none]
  · have grown : dropped (past ++ [⟨a, r⟩]) = dropped past ++ dropped [⟨a, r⟩] :=
      List.filterMap_append
    rw [grown]
    rw [standingAfter_concat] at gone
    rcases allowed.cases r with ⟨peer, outside, rfl, -⟩ | ⟨q, same, rfl⟩ | ⟨q, same, rfl⟩ |
      ⟨-, -, stays, -⟩
    · rw [outside] at gone
      cases r <;> cases gone
    · rw [same] at gone
      cases gone
    · rw [same] at gone
      cases gone
      exact List.mem_append_right _ (.head _)
    · rw [stays] at gone
      exact List.mem_append_left _ (drops p gone)

/-- Every entry is one of a handler in its loop, under its channel. A session of a
peer whose sessions have been dropped before belongs to a handler that has the
entry of the peer, or is about to drop its sessions. -/
structure Tidy (s : Server) (standing : Nat → Standing) (channel : Nat → Option ConnId)
    (earlier : Uuid → Prop) : Prop where
  entry : ∀ id peer, s.state.peers.lookup id = some peer →
    ∃ i, standing i = .registered id ∧ channel i = some peer.outbound
  session : ∀ id session, s.state.sessions.lookup id = some session → ∀ p ∈ session.peers,
    earlier p → (s.state.peers.lookup p).isSome ∨ ∃ i, standing i = .leaving p

theorem Tidy.congr {s s' : Server} {standing : Nat → Standing} {channel channel' : Nat → Option ConnId}
    {earlier : Uuid → Prop} (tidy : Tidy s standing channel earlier) (same : s'.state = s.state)
    (channels : ∀ i conn, channel i = some conn → channel' i = some conn) :
    Tidy s' standing channel' earlier := by
  refine ⟨fun id peer found => ?_, fun id session found => ?_⟩
  · rw [same] at found
    obtain ⟨i, owner, under⟩ := tidy.entry id peer found
    exact ⟨i, owner, channels i _ under⟩
  · rw [same] at found ⊢
    exact tidy.session id session found

/-- An entry goes only by its removal. -/
theorem isSome_onPeers {a : Action} {peers : AList (fun _ : Uuid => ConnectedPeer)} {p : Uuid}
    (present : (peers.lookup p).isSome) :
    ((a.onPeers peers).lookup p).isSome ∨ a = .removePeer p := by
  cases a
  case insertPeer peer =>
    rw [Action.onPeers]
    split
    · exact .inl present
    · rw [AList.lookup_insert_ite]
      split
      · exact .inl rfl
      · exact .inl present
  case removePeer id =>
    by_cases same : p = id
    · exact .inr (same ▸ rfl)
    · rw [Action.onPeers, AList.lookup_erase_ite, if_neg same]
      exact .inl present
  case bumpHeartbeat id =>
    rw [Action.onPeers, AList.lookup_adjust]
    split
    case isTrue same =>
      rw [Option.isSome_map, ← same]
      exact .inl present
    case isFalse => exact .inl present
  all_goals exact .inl present

/-- A session of the peer is not kept when its sessions are dropped. -/
theorem not_mem_of_dropped {sessions : AList (fun _ : Uuid => ActiveSession)} {p id : Uuid}
    {session : ActiveSession}
    (kept : ((Action.dropSessionsFor p).onSessions sessions).lookup id = some session) :
    p ∉ session.peers := by
  have others := (AList.lookup_retain_eq_some.mp kept).2
  simp only [decide_not, Bool.and_eq_true, Bool.not_eq_eq_eq_not, Bool.not_true,
    decide_eq_false_iff_not] at others
  simp [ActiveSession.peers, Ne.symm others.1, Ne.symm others.2]

section Act

variable {s : Server} {standing : Nat → Standing} {channel : Nat → Option ConnId}
  {earlier : Uuid → Prop} {i : Nat} {a : Action}

/-- The standings after an action of the handler `i`. -/
def moved (standing : Nat → Standing) (i : Nat) (a : Action) (r : a.Answer) : Nat → Standing :=
  Function.update standing i ((standing i).after a r)

theorem Tidy.entry_act (tidy : Tidy s standing channel earlier)
    (allowed : (standing i).Allows (channel i) a) {id : Uuid} {peer : ConnectedPeer}
    (found : (Server.exec a s).2.state.peers.lookup id = some peer) :
    ∃ j, moved standing i a (Server.exec a s).1 j = .registered id ∧
      channel j = some peer.outbound := by
  rw [Server.exec_peers] at found
  rcases Action.lookup_onPeers found with ⟨old, count, before, rfl⟩ | ⟨rfl, rfl, free⟩
  · obtain ⟨j, owner, same⟩ := tidy.entry id old before
    refine ⟨j, ?_, same⟩
    by_cases other : j = i
    · subst other
      rw [moved, Function.update_self]
      rcases allowed.cases (Server.exec a s).1 with
        ⟨_, outside, -⟩ | ⟨p, registered, rfl⟩ | ⟨p, leaving, -⟩ | ⟨-, -, stays, -⟩
      · cases owner.symm.trans outside
      · cases owner.symm.trans registered
        simp [Action.onPeers] at found
      · cases owner.symm.trans leaving
      · rw [stays, owner]
    · rw [moved, Function.update_of_ne other, owner]
  · have entered : (Server.exec (.insertPeer peer) s).1 = true := by
      simp [Server.exec, free]
    rcases allowed.cases (Server.exec (.insertPeer peer) s).1 with
      ⟨_, outside, ⟨⟩, same⟩ | ⟨_, -, ⟨⟩⟩ | ⟨_, -, ⟨⟩⟩ | ⟨keeps, -⟩
    · refine ⟨i, ?_, same⟩
      rw [moved, Function.update_self, outside, entered]
      rfl
    · exact keeps.elim

theorem Tidy.session_act (tidy : Tidy s standing channel earlier)
    (allowed : (standing i).Allows (channel i) a)
    (timely : ∀ session ∈ a.session?, ∀ p ∈ session.peers, earlier p →
      (s.state.peers.lookup p).isSome)
    {id : Uuid} {session : ActiveSession}
    (found : (Server.exec a s).2.state.sessions.lookup id = some session) {p : Uuid}
    (member : p ∈ session.peers) (before : earlier p ∨ a.dropped? = some p) :
    ((Server.exec a s).2.state.peers.lookup p).isSome ∨
      ∃ j, moved standing i a (Server.exec a s).1 j = .leaving p := by
  rw [Server.exec_sessions] at found
  rw [Server.exec_peers]
  rcases Action.lookup_onSessions found with old | rfl
  · rcases before with early | now
    · rcases tidy.session id session old p member early with present | ⟨j, leaving⟩
      · refine (isSome_onPeers present).imp_right ?_
        rintro rfl
        refine ⟨i, ?_⟩
        rw [moved, Function.update_self]
        rcases allowed.cases (Server.exec (.removePeer p) s).1 with
          ⟨_, -, ⟨⟩, -⟩ | ⟨_, registered, ⟨⟩⟩ | ⟨_, -, ⟨⟩⟩ | ⟨keeps, -⟩
        · rw [registered]
          rfl
        · exact keeps.elim
      · refine .inr ⟨j, ?_⟩
        by_cases other : j = i
        · subst other
          rw [moved, Function.update_self]
          rcases allowed.cases (Server.exec a s).1 with
            ⟨_, outside, -⟩ | ⟨_, registered, -⟩ | ⟨q, leaving', rfl⟩ | ⟨-, -, stays, -⟩
          · cases leaving.symm.trans outside
          · cases leaving.symm.trans registered
          · cases leaving.symm.trans leaving'
            exact absurd member (not_mem_of_dropped found)
          · rw [stays, leaving]
        · rw [moved, Function.update_of_ne other, leaving]
    · cases a
      case dropSessionsFor q =>
        cases now
        exact absurd member (not_mem_of_dropped found)
      all_goals cases now
  · exact .inl (timely session rfl p member (before.resolve_right nofun))

end Act

/-! ## Runs -/

section Runs

variable {cfg : Config} {past : List (Event signature)} {own : Nat → List (Event signature)}
  {P : SocketPool}

/-- The channel of the handler at an index. -/
def channelAt (P : SocketPool) (i : Nat) : Option ConnId :=
  P.threads[i]?.bind fun t => t.call.channel?

/-- What holds after every orderly run. -/
structure Kept (past : List (Event signature)) (own : Nat → List (Event signature))
    (P : SocketPool) : Prop where
  serves : System.HoldsSince (fun _ => True) Serves own P
  tidy : Tidy P.shared (fun i => standingAfter (own i)) (channelAt P) (fun p => p ∈ dropped past)

/-- The channels do not change when a handler acts. -/
theorem channelAt_set {i : Nat} {task : Task} {rest rest' : Proc Unit} {s : Server}
    (found : P.threads[i]? = some ⟨task, rest⟩) :
    channelAt ⟨s, P.threads.set i ⟨task, rest'⟩⟩ = channelAt P := by
  funext j
  simp only [channelAt, List.getElem?_set]
  split
  case isTrue here =>
    subst here
    rw [if_pos (List.getElem?_eq_some_iff.mp found).1, found]
    rfl
  case isFalse => rfl

theorem Kept.serves_move {m : SocketMove} (kept : Kept past own P) (orderly : Orderly past P m) :
    System.HoldsSince (fun _ => True) Serves
      (fun i => own i ++ (sockets cfg).performedBy i P m) ((sockets cfg).move P m) := by
  refine kept.serves.move (sockets cfg) ?_ (fun _ _ => trivial) ?_
  · rintro task rfl
    exact ⟨rfl, nofun, task_conforms cfg task⟩
  · rintro i task a k rfl found
    have spared := (orderly a (Pool.next?_step found)).1
    exact ⟨trivial, (kept.serves.threads i _ found).act spared _⟩

theorem Kept.tidy_act {i : Nat} {task : Task} {a : Action} {k : a.Answer → Proc Unit}
    (kept : Kept past own P) (found : P.threads[i]? = some ⟨task, .act a k⟩)
    (timely : ∀ session ∈ a.session?, Timely past P.shared session) :
    Tidy ((sockets cfg).move P (.step i)).shared
      (fun j => standingAfter (own j ++ (sockets cfg).performedBy j P (.step i)))
      (channelAt ((sockets cfg).move P (.step i)))
      (fun p => p ∈ dropped (past ++ (sockets cfg).performed P (.step i))) := by
  have allowed : (standingAfter (own i)).Allows task.channel? a :=
    (kept.serves.threads i _ found).rest.1
  have here : channelAt P i = task.channel? := by
    rw [channelAt, found, Option.bind_some]
  rw [← here] at allowed
  have standings : (fun j => standingAfter (own j ++ (sockets cfg).performedBy j P (.step i))) =
      moved (fun j => standingAfter (own j)) i a (Server.exec a P.shared).1 := by
    funext j
    rw [(sockets cfg).performedBy_step found, moved, Function.update_apply]
    by_cases same : j = i
    · subst same
      rw [if_pos rfl, if_pos rfl, standingAfter_concat]
    · rw [if_neg (Ne.symm same), if_neg same, List.append_nil]
  rw [standings, System.performed_act _ found]
  simp only [System.move, System.advance_act _ found]
  rw [channelAt_set found]
  refine ⟨fun id peer => kept.tidy.entry_act allowed, fun id session there p member before => ?_⟩
  refine kept.tidy.session_act allowed timely there member ?_
  simpa [dropped] using before

theorem Kept.move {m : SocketMove} (kept : Kept past own P) (orderly : Orderly past P m) :
    Kept (past ++ (sockets cfg).performed P m) (fun i => own i ++ (sockets cfg).performedBy i P m)
      ((sockets cfg).move P m) := by
  refine ⟨kept.serves_move orderly, ?_⟩
  cases m with
  | call task =>
      simp only [System.performedBy, System.performed, List.append_nil]
      refine kept.tidy.congr rfl fun i conn same => ?_
      obtain ⟨t, found, known⟩ := Option.bind_eq_some_iff.mp same
      have old : (P.threads ++ [⟨task, (sockets cfg).body task⟩])[i]? = some t :=
        (List.getElem?_append_left (List.getElem?_eq_some_iff.mp found).1).trans found
      exact Option.bind_eq_some_iff.mpr ⟨t, old, known⟩
  | disturb x =>
      simp only [System.performedBy, System.performed, List.append_nil]
      exact kept.tidy.congr (x.apply_state _) fun _ _ same => same
  | step i =>
      rcases (sockets cfg).step_cases P i with ⟨same, nothing⟩ | ⟨task, a, k, found⟩
      · simp only [System.move, same, System.performedBy, nothing, ite_self, List.append_nil]
        exact kept.tidy
      · exact kept.tidy_act found (orderly a (Pool.next?_step found)).2

/-- The induction over runs. -/
theorem kept_of_orderly {s : Server} {moves : List SocketMove} (nobody : s.state.peers = ∅)
    (orderly : (sockets cfg).AlongTrace Orderly [] ⟨s, []⟩ moves) :
    Kept ((sockets cfg).trace ⟨s, []⟩ moves)
      (fun i => (sockets cfg).ownTrace i ⟨s, []⟩ moves) ((sockets cfg).schedule ⟨s, []⟩ moves) := by
  have start : Kept [] (fun _ => []) ⟨s, []⟩ := by
    refine ⟨⟨trivial, by simp, fun _ _ => rfl⟩, ?_, ?_⟩
    · intro id peer found
      simp [nobody] at found
    · intro id session _ p _ early
      cases early
  exact orderly.invariant (sockets cfg) (fun _ _ _ _ ok kept => kept.move ok) start

theorem Serves.settled {own : List (Event signature)} {t : Thread signature Empty Task}
    (serves : Serves own t) (ended : t.rest.outcome?.isSome) : (standingAfter own).Settled := by
  obtain ⟨task, rest⟩ := t
  cases rest with
  | done u => exact serves.rest
  | fail e => exact e.elim
  | act a k => cases ended

/-- A handler that stands for a peer without being done with it is in progress. -/
theorem Kept.inProgress (kept : Kept past own P) {j : Nat} {p : Uuid}
    (stands : (standingAfter (own j)).peer? = some p)
    (unsettled : ¬ (standingAfter (own j)).Settled) :
    p ∈ registered (own j) ∧ ∃ t, P.threads[j]? = some t ∧ t.rest.InProgress := by
  rcases found : P.threads[j]? with _ | t
  · have nothing := kept.serves.uncalled j (List.getElem?_eq_none_iff.mp found)
    rw [nothing] at stands
    cases stands
  · have serves := kept.serves.threads j t found
    refine ⟨?_, t, rfl, ?_⟩
    · rw [serves.entered, stands]
      exact .head _
    · exact Option.not_isSome_iff_eq_none.mp fun ended => unsettled (serves.settled ended)

theorem OwnChannels.unique (apart : OwnChannels P) {i j : Nat} {conn : ConnId}
    (here : channelAt P i = some conn) (there : channelAt P j = some conn) : i = j := by
  obtain ⟨t, ti, tc⟩ := Option.bind_eq_some_iff.mp here
  obtain ⟨u, uj, uc⟩ := Option.bind_eq_some_iff.mp there
  obtain ⟨within, rfl⟩ := List.getElem?_eq_some_iff.mp ti
  obtain ⟨within', rfl⟩ := List.getElem?_eq_some_iff.mp uj
  have pairs := List.pairwise_iff_getElem.mp apart
  rcases Nat.lt_trichotomy i j with before | same | after
  · exact absurd uc (pairs i j within within' before conn tc)
  · exact same
  · exact absurd tc (pairs j i within' within after conn uc)

/-- A settled handler that has registered a peer has dropped its sessions. -/
theorem Serves.gone {own : List (Event signature)} {t : Thread signature Empty Task}
    (serves : Serves own t) (settled : (standingAfter own).Settled) {p : Uuid}
    (mine : p ∈ registered own) : p ∈ dropped own := by
  refine serves.drops p ?_
  rw [serves.entered] at mine
  revert mine settled
  cases standingAfter own with
  | outside => exact fun _ mine => nomatch mine
  | registered q | leaving q => exact fun settled _ => settled.elim
  | gone q =>
      intro _ mine
      rw [List.mem_singleton.mp mine]

end Runs

/-- Once the handler of a socket has returned, no entry of the socket is there,
and no session of its peer, unless the peer has connected again. -/
theorem leavesNothing_of_orderly (cfg : Config) {s : Server} (nobody : s.state.peers = ∅)
    {moves : List SocketMove} (orderly : (sockets cfg).AlongTrace Orderly [] ⟨s, []⟩ moves)
    (apart : OwnChannels ((sockets cfg).schedule ⟨s, []⟩ moves)) {i : Nat} {conn : ConnId}
    (returned : Returned ((sockets cfg).schedule ⟨s, []⟩ moves) i conn) :
    let P := (sockets cfg).schedule ⟨s, []⟩ moves
    let own (i : Nat) := (sockets cfg).ownTrace i ⟨s, []⟩ moves
    ¬ LeavesEntry P.shared conn ∧ (¬ Reconnected P own i → ¬ LeavesSession P.shared (own i)) := by
  intro P own
  have kept : Kept _ own P := kept_of_orderly nobody orderly
  obtain ⟨t, here, channel, ended⟩ := returned
  have serves : Serves (own i) t := kept.serves.threads i t here
  have settled := serves.settled ended
  refine ⟨?_, ?_⟩
  · rintro ⟨id, peer, found, rfl⟩
    obtain ⟨j, owner, under⟩ := kept.tidy.entry id peer found
    obtain rfl := apart.unique (Option.bind_eq_some_iff.mpr ⟨t, here, channel⟩) under
    rw [owner] at settled
    exact settled
  · rintro alone ⟨p, mine, id, session, found, member⟩
    -- whoever still has to do with the peer is another socket of it
    have nobodyElse (j : Nat) (stands : (standingAfter (own j)).peer? = some p)
        (unsettled : ¬ (standingAfter (own j)).Settled) : False := by
      obtain ⟨again, t, there, running⟩ := kept.inProgress stands unsettled
      refine alone ⟨p, mine, j, t, ?_, again, there, running⟩
      rintro rfl
      exact unsettled settled
    obtain ⟨e, event, drops⟩ := List.mem_filterMap.mp (serves.gone settled mine)
    have early : p ∈ dropped ((sockets cfg).trace ⟨s, []⟩ moves) :=
      List.mem_filterMap.mpr ⟨e, System.ownTrace_subset _ i _ _ event, drops⟩
    rcases kept.tidy.session id session found p member early with present | ⟨j, leaving⟩
    · obtain ⟨peer, there⟩ := Option.isSome_iff_exists.mp present
      obtain ⟨j, owner, -⟩ := kept.tidy.entry p peer there
      exact nobodyElse j (by rw [owner]; rfl) (by rw [owner]; exact not_false)
    · exact nobodyElse j (by rw [leaving]; rfl) (by rw [leaving]; exact not_false)

/-! ## A host, its client and a bundle that nobody can verify -/

namespace Sample

open Signaling.Sample

def signedText (peerId : Uuid) (role : String) (key : Nat) : String :=
  "\x7b\"type\":\"signed_hello\",\"payload\":\x7b\"descriptor\":\x7b" ++
    "\"device_id\":\"" ++ peerId.toText ++ "\",\"peer_id\":\"" ++ peerId.toText ++
    "\",\"device_name\":\"device\",\"role\":\"" ++ role ++ "\",\"os\":\"linux\"," ++
    "\"capabilities\":\x7b\"transports\":[\"native_quic\"],\"capture\":[]," ++
    "\"encoders\":[\"h264\"],\"decoders\":[\"h264\"],\"notes\":[]\x7d\x7d," ++
    "\"public_key\":[" ++ String.join (List.replicate 31 "0,") ++ toString key ++ "]," ++
    "\"signature\":[]\x7d\x7d"

/-- The fields of a request of session 7 with host 1. -/
def sessionFields : String :=
  "\"session_id\":\"00000000-0000-0000-0000-000000000007\"," ++
    "\"target_host_id\":\"00000000-0000-0000-0000-000000000001\"," ++
    "\"requested_transport\":null,\"preferred_codec\":null,\"video\":null"

def startText : String :=
  "\x7b\"type\":\"start_session\",\"payload\":\x7b" ++ sessionFields ++ "\x7d\x7d"

def bundleText : String :=
  "\x7b\"type\":\"start_session_with_bundle\",\"payload\":\x7b" ++ sessionFields ++
    ",\"viewerBundle\":\x7b\"kid\":\"k\",\"v\":1,\"payload\":\"\",\"sig\":\"\"\x7d\x7d\x7d"

def request : StartSessionRequest := { sessionId := 7, targetHostId := 1 }

def bundleRequest : StartSessionBundleRequest := ⟨request, ⟨"k", 1, "", ""⟩, none⟩

/-- The messages of the host 1 and the client 2. -/
def decoding : Config :=
  { config with decodeMessage := fun text =>
      if text = signedText 1 "host" 5 then .ok (.signedHello ⟨host, 5, []⟩)
      else if text = signedText 2 "client" 6 then .ok (.signedHello ⟨client, 6, []⟩)
      else if text = startText then .ok (.startSession request)
      else if text = bundleText then .ok (.startSessionWithBundle bundleRequest)
      else .error "expected value at line 1 column 1" }

/-- The host may have sessions with the client, and nobody is connected. -/
def empty : SocketPool := ⟨fresh [⟨1, 2⟩], []⟩

/-- The host sends these frames after its hello. -/
def hostSocket (frames : List Frame) : Task := .socket 0 (.text (signedText 1 "host" 5) :: frames)

/-- The host connects, and then the client, which will ask for a session. -/
def connect (frames : List Frame) : List SocketMove :=
  .call (hostSocket frames) ::
    .call (.socket 1 [.text (signedText 2 "client" 6), .text startText]) ::
    (List.replicate 3 (.step 0) ++ List.replicate 3 (.step 1))

/-- The session is stored before the host leaves. -/
def stored : List SocketMove :=
  connect [.binary, .text "\x7b", .ping, .close] ++ List.replicate 10 (.step 1) ++
    List.replicate 6 (.step 0)

/-- The host leaves while the session is about to be stored. -/
def late : List SocketMove :=
  connect [.close] ++ List.replicate 8 (.step 1) ++ List.replicate 4 (.step 0) ++ [.step 1]

/-- The host sends a bundle, and this instance knows no key of the cloud. -/
def rejected : List SocketMove := connect [.text bundleText] ++ List.replicate 2 (.step 0)

def after (moves : List SocketMove) : SocketPool := (sockets decoding).schedule empty moves

def events (moves : List SocketMove) (i : Nat) : List (Event signature) :=
  (sockets decoding).ownTrace i empty moves

end Sample

/-- The host has left its entry after a bundle, and a session when it was late. -/
theorem rejectedBundle_leavesEntry :
    (Returned (Sample.after Sample.rejected) 0 0 ∧
        LeavesEntry (Sample.after Sample.rejected).shared 0) ∧
      Returned (Sample.after Sample.late) 0 0 ∧
        LeavesSession (Sample.after Sample.late).shared (Sample.events Sample.late 0) := by
  refine ⟨⟨by decide +kernel, ?_⟩, by decide +kernel, 1, by decide +kernel, 7, ?_⟩
  · have entry : ((Sample.after Sample.rejected).shared.state.peers.lookup 1).any
        (fun peer => peer.outbound = 0) := by
      decide +kernel
    obtain ⟨peer, found, ofSocket⟩ := (Option.any_eq_true _ _).mp entry
    exact ⟨1, peer, found, of_decide_eq_true ofSocket⟩
  · have session : ((Sample.after Sample.late).shared.state.sessions.lookup 7).any
        (fun session => 1 ∈ session.peers) := by
      decide +kernel
    obtain ⟨session, found, named⟩ := (Option.any_eq_true _ _).mp session
    exact ⟨session, found, of_decide_eq_true named⟩

/-- Of two sockets with different peers neither is the other's successor. -/
theorem not_reconnected_of_other {P : SocketPool} {own : Nat → List (Event signature)}
    {p q : Uuid} (two : P.threads.length = 2) (host : registered (own 0) = [p])
    (client : registered (own 1) = [q]) (different : p ≠ q) : ¬ Reconnected P own 0 := by
  rintro ⟨r, mine, j, t, other, again, found, -⟩
  rw [host, List.mem_singleton] at mine
  subst mine
  obtain ⟨within, -⟩ := List.getElem?_eq_some_iff.mp found
  obtain rfl : j = 1 := by omega
  rw [client, List.mem_singleton] at again
  exact different again

/-- The host leaves nothing, though a session of it was there. -/
theorem closed_leavesNothing :
    ((Sample.after (Sample.stored.take 17)).shared.state.sessions.lookup 7).isSome ∧
      ¬ LeavesEntry (Sample.after Sample.stored).shared 0 ∧
        ¬ LeavesSession (Sample.after Sample.stored).shared (Sample.events Sample.stored 0) := by
  have orderly : (sockets Sample.decoding).AlongTrace Orderly [] Sample.empty Sample.stored := by
    decide +kernel
  have returned : Returned (Sample.after Sample.stored) 0 0 := by decide +kernel
  have nothing := leavesNothing_of_orderly Sample.decoding (s := Signaling.Sample.fresh [⟨1, 2⟩])
    rfl orderly (by decide +kernel) returned
  have alone : ¬ Reconnected (Sample.after Sample.stored) (Sample.events Sample.stored) 0 :=
    not_reconnected_of_other (p := 1) (q := 2) (by decide +kernel) (by decide +kernel)
      (by decide +kernel) (by decide)
  exact ⟨by decide +kernel, nothing.1, nothing.2 alone⟩

end Cleanup

end Qubox.Signaling
