import Qubox.Signaling.Call

/-!
# Sockets

A hub is a server with the sockets it has accepted. Each socket is either still
in the loop of `handle_socket`, with the peer it has registered, or has
returned. Frames of different sockets come in any order, but they are handled
one at a time: a frame, with the block behind the loop when it ends the loop, is
one step. The handlers of the source interleave at their await points, which is
`sockets` of `Qubox.Signaling.Ownership`.

`Consistent` ties the peers table to the sockets: every entry belongs to the
socket that registered it, and every socket in the loop still has its entry.
-/

namespace Qubox.Signaling

open Interaction
open Interaction.Program (Upholds Attempted)

inductive Socket where
  | running (registered : Option PeerDescriptor)
  | returned (registered : Option PeerDescriptor)
  deriving DecidableEq

structure Hub where
  server : Server
  sockets : AList (fun _ : ConnId => Socket)

inductive HubEvent where
  | accept (conn : ConnId)
  | frame (conn : ConnId) (frame : Frame)
  | endOfStream (conn : ConnId)
  | listen (self : InstanceId)
  | disturb (x : Disturbance)

namespace Hub

variable (cfg : Config)

def fresh (server : Server) : Hub := ⟨server, ∅⟩

def setSocket (hub : Hub) (conn : ConnId) (socket : Socket) : Hub :=
  { hub with sockets := hub.sockets.insert conn socket }

/-- The end of the loop, and the return of the handler. -/
def leave (hub : Hub) (conn : ConnId) (registered : Option PeerDescriptor) : Hub :=
  match registered with
  | some peer =>
      { hub with server := (machine.eval (disconnect cfg peer) hub.server).2 }.setSocket conn
        (.returned (some peer))
  | none => hub.setSocket conn (.returned none)

def handle (hub : Hub) (conn : ConnId) (registered : Option PeerDescriptor) (frame : Frame) :
    Hub :=
  let (flow, server) := machine.eval (handleFrame cfg conn registered frame) hub.server
  let hub := { hub with server }
  match flow with
  | .next registered => hub.setSocket conn (.running registered)
  | .leave => hub.leave cfg conn registered
  | .exit => hub.setSocket conn (.returned registered)

def step (hub : Hub) : HubEvent → Hub
  | .accept conn =>
      match hub.sockets.lookup conn with
      | none => hub.setSocket conn (.running none)
      | some _ => hub
  | .frame conn frame =>
      match hub.sockets.lookup conn with
      | some (.running registered) => hub.handle cfg conn registered frame
      | _ => hub
  | .endOfStream conn =>
      match hub.sockets.lookup conn with
      | some (.running registered) => hub.leave cfg conn registered
      | _ => hub
  | .listen self => { hub with server := (machine.eval (clusterListener self) hub.server).2 }
  | .disturb x => { hub with server := x.apply hub.server }

def run (hub : Hub) (events : List HubEvent) : Hub := events.foldl (step cfg) hub

end Hub

/-! ## Who is registered by whom -/

/-- Descriptor and channel of the entry under an id. -/
def registration (s : Server) (id : Uuid) : Option (PeerDescriptor × ConnId) :=
  (s.state.peers.lookup id).map (fun peer => (peer.descriptor, peer.outbound))

/-- Every action except registering and unregistering. -/
def KeepsPeers : Action → Prop
  | .insertPeer _ => False
  | .removePeer _ => False
  | _ => True

theorem keepsPeers_of_quiet (a : Action) (quiet : a.Quiet) : KeepsPeers a := by
  cases a
  case insertPeer => exact quiet.elim
  case removePeer => exact quiet.elim
  all_goals trivial

theorem keepsPeers_of_ordinary (a : Action) (ordinary : a.Ordinary) : KeepsPeers a := by
  cases a
  case insertPeer => exact ordinary.elim
  case removePeer => exact ordinary.elim
  all_goals trivial

/-- A heartbeat counts, and that is all that happens to an entry. -/
theorem exec_registration {a : Action} (keeps : KeepsPeers a) (s : Server) :
    registration (Server.exec a s).2 = registration s := by
  funext id
  simp only [registration, Server.exec_peers]
  cases a
  case insertPeer => exact keeps.elim
  case removePeer => exact keeps.elim
  case bumpHeartbeat peerId =>
    rw [Action.onPeers, AList.lookup_adjust]
    split
    case isTrue same =>
      subst same
      simp [Function.comp_def]
    case isFalse => rfl
  all_goals rfl

theorem run_registration {ε α : Type} {Q : α → Prop} {p : Program signature ε α}
    (keeps : p.Upholds (fun _ _ => True) KeepsPeers Q) (s : Server) :
    registration (machine.run p s).2 = registration s :=
  machine.run_frame registration (keeps.mono (fun _ _ h => h)
    (fun _ ok => exec_registration ok) fun _ _ => trivial) s

theorem eval_registration {α : Type} {Q : α → Prop} {p : Proc α}
    (keeps : p.Upholds (fun _ _ => True) KeepsPeers Q) (s : Server) :
    Q (machine.eval p s).1 ∧ registration (machine.eval p s).2 = registration s := by
  have kept := machine.run_invariant (I := fun s' => registration s' = registration s) (s := s)
    keeps (fun a s' ok same => ⟨trivial, (exec_registration ok s').trans same⟩) rfl
  rw [machine.run_eq_eval] at kept
  exact ⟨kept.2 _ rfl, kept.1⟩

section Arms

variable (cfg : Config) (conn : ConnId)

/-- No arm of a registered peer registers or unregisters anybody. All of them
stay in the loop, except that the bundle arm may return. -/
theorem handleMessage_keepsPeers (peer : PeerDescriptor) (message : ClientMessage) :
    (handleMessage cfg conn (some peer) message).Upholds (fun _ _ => True) KeepsPeers
      (fun flow => flow = .next (some peer) ∨
        (flow = .exit ∧ ∃ request, message = .startSessionWithBundle request)) := by
  have quiet : ∀ a : Action, a.Quiet → KeepsPeers a := keepsPeers_of_quiet
  by_cases acts : message.ActsForHost
  · cases message with
    | createShareLink ttl permissions =>
        refine (onCreateShareLink_upholds cfg quiet fun _ _ => trivial).bind fun _ _ => ?_
        exact .inl rfl
    | revokePairing h c =>
        refine (onRevokePairing_upholds cfg quiet trivial trivial).bind fun _ _ => ?_
        exact .inl rfl
    | _ => exact acts.elim
  · exact (handleMessage_ordinary cfg conn acts).mono (fun _ _ h => h) keepsPeers_of_ordinary
      fun _ h => h

/-! ## Handshakes -/

theorem run_recordPeer (d : PeerDescriptor) (pk : Option PublicKey) (t : Uuid) (s : Server) :
    (machine.run (recordPeer cfg d pk t) s).1 = .ok () ∧
      registration (machine.run (recordPeer cfg d pk t) s).2 = registration s := by
  refine ⟨?_, run_registration (recordPeer_upholds cfg (fun _ => trivial) trivial) s⟩
  unfold recordPeer
  split
  · rw [run_ignore]
  · rfl

/-- A registration takes a free id or fails without a trace. -/
theorem run_register (d : PeerDescriptor) (pk : Option PublicKey) (t a : Uuid) (s : Server) :
    (registration s d.peerId = none ∧
      (machine.run (register cfg d pk t a conn) s).1 = .ok () ∧
      registration (machine.run (register cfg d pk t a conn) s).2 =
        Function.update (registration s) d.peerId (some (d, conn))) ∨
    ((machine.run (register cfg d pk t a conn) s).1 = .error (.alreadyConnected d.peerId) ∧
      registration (machine.run (register cfg d pk t a conn) s).2 = registration s) := by
  by_cases occupied : (s.state.peers.lookup d.peerId).isSome
  · refine .inr ?_
    have refused : Server.exec (.insertPeer ⟨d, conn, pk, t, a, 0⟩) s = (false, s) := by
      simp only [Server.exec, occupied, if_true]
    rw [register, run_perform_bind, refused]
    exact ⟨rfl, rfl⟩
  · refine .inl ⟨by simpa [registration] using occupied, ?_⟩
    have entered : Server.exec (.insertPeer ⟨d, conn, pk, t, a, 0⟩) s =
        (true, s.setPeers (s.state.peers.insert d.peerId ⟨d, conn, pk, t, a, 0⟩)) := by
      simp only [Server.exec, occupied, if_false, Bool.false_eq_true]
    have written : registration (s.setPeers (s.state.peers.insert d.peerId
        ⟨d, conn, pk, t, a, 0⟩)) = Function.update (registration s) d.peerId (some (d, conn)) := by
      funext id
      simp only [registration, Server.setPeers, AList.lookup_insert_ite, Function.update_apply]
      split <;> rfl
    rw [register, run_perform_bind, entered, ← written]
    exact run_recordPeer cfg d pk t _

/-- How a handshake ends: the peer is registered under the socket's channel, or
the loop is left with the table as it was. -/
def Greeted (s s' : Server) (flow : Flow) : Prop :=
  (∃ d, flow = .next (some d) ∧ registration s d.peerId = none ∧
    registration s' = Function.update (registration s) d.peerId (some (d, conn))) ∨
  (flow = .leave ∧ registration s' = registration s)

/-- A refusal is a reply and a `break`. -/
theorem refused_greeted (code message : String) (s : Server) :
    Greeted conn s (machine.eval (do replyError conn code message; return Flow.leave) s).2
      (machine.eval (do replyError conn code message; return Flow.leave) s).1 :=
  .inr ⟨rfl, exec_registration (a := .reply conn _) trivial s⟩

theorem Greeted.of_registration {s s' s'' : Server} {flow : Flow}
    (same : registration s = registration s') (greeted : Greeted conn s s'' flow) :
    Greeted conn s' s'' flow := by
  unfold Greeted at *
  rwa [same] at greeted

theorem acceptPeer_greeted (d : PeerDescriptor) (pk : Option PublicKey) (t a : Uuid)
    (welcome : String) (s : Server) :
    Greeted conn s (machine.eval (acceptPeer cfg conn d pk t a welcome) s).2
      (machine.eval (acceptPeer cfg conn d pk t a welcome) s).1 := by
  have announced : (do
      perform (.reply conn (.welcome ⟨d.peerId, welcome⟩))
      broadcastPresence cfg d t true
      return Flow.next (some d) : Proc Flow).Upholds (fun _ _ => True) KeepsPeers
        (fun flow => flow = .next (some d)) := by
    refine Upholds.perform_bind trivial fun _ _ => ?_
    exact (broadcastPresence_upholds cfg ⟨trivial, trivial⟩).bind fun _ _ => rfl
  rw [acceptPeer, machine.eval_bind, machine.eval_attempt]
  rcases run_register cfg conn d pk t a s with ⟨free, ok, entered⟩ | ⟨error, same⟩
  · rw [ok]
    obtain ⟨flow, kept⟩ := eval_registration announced
      (machine.run (register cfg d pk t a conn) s).2
    exact .inl ⟨d, flow, free, kept.trans entered⟩
  · rw [error]
    exact (refused_greeted conn _ _ _).of_registration conn same

theorem handleMessage_greeted (message : ClientMessage) (s : Server) :
    Greeted conn s (machine.eval (handleMessage cfg conn none message) s).2
      (machine.eval (handleMessage cfg conn none message) s).1 := by
  cases message
  case hello descriptor =>
    rw [handleMessage, hello]
    split
    · exact refused_greeted conn _ _ s
    · split
      · exact refused_greeted conn _ _ s
      · exact acceptPeer_greeted cfg conn _ _ _ _ _ s
  case signedHello signed =>
    rw [handleMessage, signedHello]
    split
    · exact refused_greeted conn _ _ s
    · rw [machine.eval_bind, machine.eval_attempt]
      have asked := run_registration (resolveEnrollmentFull_upholds cfg keepsPeers_of_quiet
        signed.descriptor.deviceId signed.publicKey) s
      refine Greeted.of_registration conn asked ?_
      cases (machine.run (resolveEnrollmentFull cfg signed.descriptor.deviceId
          signed.publicKey) s).1 with
      | ok enrolled => exact acceptPeer_greeted cfg conn _ _ _ _ _ _
      | error e =>
          dsimp only
          split
          · exact acceptPeer_greeted cfg conn _ _ _ _ _ _
          · exact refused_greeted conn _ _ _
  all_goals exact refused_greeted conn _ _ s

/-! ## Disconnection -/

/-- The block behind the loop removes the entry of its peer and no other. -/
theorem disconnect_registration (peer : PeerDescriptor) (s : Server) :
    registration (machine.eval (disconnect cfg peer) s).2 =
      Function.update (registration s) peer.peerId none := by
  have quiet : ∀ a : Action, a.Quiet → KeepsPeers a := keepsPeers_of_quiet
  have erased : registration (Server.exec (.removePeer peer.peerId) s).2 =
      Function.update (registration s) peer.peerId none := by
    funext id
    simp only [registration, Server.exec_peers, Action.onPeers, AList.lookup_erase_ite,
      Function.update_apply]
    split <;> rfl
  have unregistered : registration (machine.eval (unregister cfg peer.peerId) s).2 =
      Function.update (registration s) peer.peerId none := by
    rw [unregister, eval_perform_bind, machine.eval_bind, ← erased]
    exact (eval_registration (forgetPeer_upholds cfg quiet trivial _) _).2
  have announced (t : Uuid) : (do
      removeSessionsFor peer.peerId
      broadcastPresence cfg peer t false : Proc Unit).Upholds (fun _ _ => True) KeepsPeers
        (fun _ => True) :=
    Upholds.perform_bind trivial fun _ _ => broadcastPresence_upholds cfg ⟨trivial, trivial⟩
  rw [disconnect, machine.eval_bind, machine.eval_bind, ← unregistered]
  exact (eval_registration (announced _) _).2

/-- The block behind the loop leaves no session of its peer. -/
theorem disconnect_sessions (peer : PeerDescriptor) (s : Server) (id : Uuid)
    (session : ActiveSession)
    (kept : (machine.eval (disconnect cfg peer) s).2.state.sessions.lookup id = some session) :
    session.hostPeerId ≠ peer.peerId ∧ session.clientPeerId ≠ peer.peerId := by
  have announced (t : Uuid) (s : Server) :
      (machine.eval (broadcastPresence cfg peer t false) s).2.state.sessions =
        s.state.sessions := by
    have frame := machine.run_frame (fun s => s.state.sessions)
      (broadcastPresence_upholds (A := fun _ _ => True) cfg
        ⟨Server.exec_sessions _, Server.exec_sessions _⟩ :
        (broadcastPresence cfg peer t false).Upholds _ _ _) s
    rwa [machine.run_eq_eval] at frame
  rw [disconnect, machine.eval_bind, machine.eval_bind, machine.eval_bind, announced] at kept
  have dropped := (AList.lookup_retain_eq_some.mp kept).2
  simpa using dropped

end Arms

/-! ## One frame -/

/-- The frame is a `StartSessionWithBundle` of a registered peer whose viewer
bundle or ICE allowlist does not verify. -/
def Rejected (cfg : Config) (s : Server) (registered : Option PeerDescriptor) (frame : Frame) :
    Prop :=
  registered.isSome ∧ ∃ payload request, frame = .text payload ∧
    cfg.decodeMessage payload = .ok (.startSessionWithBundle request) ∧
    ∃ error, (machine.run (verifySessionBundle cfg request s.env.now) s).1 = .error error

theorem bundle_exit_iff (cfg : Config) (conn : ConnId) (peer : PeerDescriptor)
    (request : StartSessionBundleRequest) (s : Server) :
    (machine.eval (handleMessage cfg conn (some peer) (.startSessionWithBundle request)) s).1 =
        .exit ↔
      ∃ error, (machine.run (verifySessionBundle cfg request s.env.now) s).1 = .error error := by
  rw [handleMessage, onStartSessionWithBundle, eval_perform_bind, machine.eval_bind,
    machine.eval_attempt]
  have clock : Server.exec .now s = (s.env.now, s) := rfl
  rw [clock]
  cases (machine.run (verifySessionBundle cfg request s.env.now) s).1 with
  | error e => exact ⟨fun _ => ⟨e, rfl⟩, fun _ => rfl⟩
  | ok viewer =>
      refine ⟨fun exit => ?_, nofun⟩
      rw [machine.eval_bind] at exit
      cases exit

/-- What handling one frame can do to the loop and to the peers table. -/
theorem handleFrame_cases (cfg : Config) (conn : ConnId) (registered : Option PeerDescriptor)
    (frame : Frame) (s : Server) :
    let flow := (machine.eval (handleFrame cfg conn registered frame) s).1
    let s' := (machine.eval (handleFrame cfg conn registered frame) s).2
    ((flow = .next registered ∨ flow = .leave) ∧ ¬ Rejected cfg s registered frame ∧
      registration s' = registration s) ∨
    (∃ d, registered = none ∧ flow = .next (some d) ∧ registration s d.peerId = none ∧
      registration s' = Function.update (registration s) d.peerId (some (d, conn))) ∨
    (flow = .exit ∧ Rejected cfg s registered frame ∧ registration s' = registration s) := by
  have noText (other : ∀ payload, frame ≠ .text payload) : ¬ Rejected cfg s registered frame := by
    rintro ⟨-, payload, request, rfl, -⟩
    exact other payload rfl
  cases frame with
  | readError | close => exact .inl ⟨.inr rfl, noText nofun, rfl⟩
  | ping | pong => exact .inl ⟨.inl rfl, noText nofun, rfl⟩
  | binary =>
      exact .inl ⟨.inl rfl, noText nofun, exec_registration (a := .reply conn _) trivial s⟩
  | text payload =>
      cases decoded : cfg.decodeMessage payload with
      | error e =>
          simp only [handleFrame, decoded]
          refine .inl ⟨.inl rfl, ?_, exec_registration (a := .reply conn _) trivial s⟩
          rintro ⟨-, _, request, ⟨⟩, valid, -⟩
          cases decoded.symm.trans valid
      | ok message =>
          simp only [handleFrame, decoded]
          cases registered with
          | none =>
              rcases handleMessage_greeted cfg conn message s with ⟨d, flow, free, written⟩ |
                ⟨flow, same⟩
              · exact .inr (.inl ⟨d, rfl, flow, free, written⟩)
              · exact .inl ⟨.inr flow, fun rejected => Bool.noConfusion rejected.1, same⟩
          | some peer =>
              obtain ⟨flow, same⟩ :=
                eval_registration (handleMessage_keepsPeers cfg conn peer message) s
              rcases flow with flow | ⟨flow, request, rfl⟩
              · refine .inl ⟨.inl flow, ?_, same⟩
                rintro ⟨-, _, request, ⟨⟩, valid, error⟩
                cases decoded.symm.trans valid
                cases flow.symm.trans ((bundle_exit_iff cfg conn peer request s).mpr error)
              · exact .inr (.inr ⟨flow, ⟨rfl, payload, request, rfl, decoded,
                  (bundle_exit_iff cfg conn peer request s).mp flow⟩, same⟩)

/-! ## Entries and sockets -/

/-- Every entry belongs to the socket that registered it, and every registered
socket in the loop still has its entry. -/
structure Consistent (entry : Uuid → Option (PeerDescriptor × ConnId))
    (socket : ConnId → Option Socket) : Prop where
  owned : ∀ id d conn, entry id = some (d, conn) → d.peerId = id ∧
    (socket conn = some (.running (some d)) ∨ socket conn = some (.returned (some d)))
  present : ∀ conn d, socket conn = some (.running (some d)) → entry d.peerId = some (d, conn)

namespace Consistent

variable {entry : Uuid → Option (PeerDescriptor × ConnId)} {socket : ConnId → Option Socket}
  {conn : ConnId} {d : PeerDescriptor}

/-- A socket in the loop only owns the entry it has registered. -/
theorem owner (h : Consistent entry socket) {r : Option PeerDescriptor} {id : Uuid}
    (running : socket conn = some (.running r)) (found : entry id = some (d, conn)) :
    r = some d ∧ d.peerId = id := by
  obtain ⟨same, owned | owned⟩ := h.owned id d conn found
  · rw [running] at owned
    cases owned
    exact ⟨rfl, same⟩
  · rw [running] at owned
    cases owned

theorem accept (h : Consistent entry socket) (unused : socket conn = none) :
    Consistent entry (Function.update socket conn (some (.running none))) := by
  refine ⟨fun id d' c found => ?_, fun c d' running => ?_⟩
  · obtain ⟨same, owned⟩ := h.owned id d' c found
    have other : c ≠ conn := by
      rintro rfl
      simp [unused] at owned
    simpa [Function.update_of_ne other] using ⟨same, owned⟩
  · by_cases other : c = conn
    · subst other
      simp at running
    · rw [Function.update_of_ne other] at running
      exact h.present c d' running

/-- A handler that returns without unregistering. -/
theorem exit (h : Consistent entry socket) {r : Option PeerDescriptor}
    (running : socket conn = some (.running r)) :
    Consistent entry (Function.update socket conn (some (.returned r))) := by
  refine ⟨fun id d' c found => ?_, fun c d' running' => ?_⟩
  · by_cases same : c = conn
    · subst same
      obtain ⟨rfl, ofId⟩ := h.owner running found
      exact ⟨ofId, .inr (by simp)⟩
    · simpa [Function.update_of_ne same] using h.owned id d' c found
  · by_cases same : c = conn
    · subst same
      simp at running'
    · rw [Function.update_of_ne same] at running'
      exact h.present c d' running'

/-- A handler that unregisters its peer and returns. -/
theorem leave (h : Consistent entry socket) (running : socket conn = some (.running (some d))) :
    Consistent (Function.update entry d.peerId none)
      (Function.update socket conn (some (.returned (some d)))) := by
  refine ⟨fun id d' c found => ?_, fun c d' running' => ?_⟩
  · by_cases gone : id = d.peerId
    · simp [gone] at found
    · rw [Function.update_of_ne gone] at found
      have other : c ≠ conn := by
        rintro rfl
        obtain ⟨same, ofId⟩ := h.owner running found
        cases same
        exact gone ofId.symm
      simpa [Function.update_of_ne other] using h.owned id d' c found
  · by_cases same : c = conn
    · subst same
      simp at running'
    · rw [Function.update_of_ne same] at running'
      have found := h.present c d' running'
      have other : d'.peerId ≠ d.peerId := by
        intro clash
        rw [clash, h.present conn d running] at found
        cases found
        exact same rfl
      rwa [Function.update_of_ne other]

/-- A handler that registers its peer. -/
theorem greet (h : Consistent entry socket) (running : socket conn = some (.running none))
    (free : entry d.peerId = none) :
    Consistent (Function.update entry d.peerId (some (d, conn)))
      (Function.update socket conn (some (.running (some d)))) := by
  refine ⟨fun id d' c found => ?_, fun c d' running' => ?_⟩
  · by_cases new : id = d.peerId
    · subst new
      obtain ⟨rfl, rfl⟩ : d = d' ∧ conn = c := by simpa using found
      simp
    · rw [Function.update_of_ne new] at found
      have other : c ≠ conn := by
        rintro rfl
        cases (h.owner running found).1
      simpa [Function.update_of_ne other] using h.owned id d' c found
  · by_cases same : c = conn
    · subst same
      obtain rfl : d = d' := by simpa using running'
      simp
    · rw [Function.update_of_ne same] at running'
      have found := h.present c d' running'
      have other : d'.peerId ≠ d.peerId := by
        intro clash
        simp [clash, free] at found
      rwa [Function.update_of_ne other]

end Consistent

namespace Hub

variable (cfg : Config)

/-- The sockets of a hub as a function. -/
def socketAt (hub : Hub) (conn : ConnId) : Option Socket := hub.sockets.lookup conn

theorem setSocket_socketAt (hub : Hub) (conn : ConnId) (socket : Socket) :
    (hub.setSocket conn socket).socketAt = Function.update hub.socketAt conn (some socket) := by
  funext c
  simp only [socketAt, setSocket, AList.lookup_insert_ite, Function.update_apply]

def WellFormed (hub : Hub) : Prop := Consistent (registration hub.server) hub.socketAt

theorem fresh_wellFormed {s : Server} (nobody : s.state.peers = ∅) : (fresh s).WellFormed := by
  refine ⟨fun id d conn found => ?_, fun conn d running => ?_⟩
  · simp [registration, fresh, nobody] at found
  · simp [socketAt, fresh] at running

theorem leave_wellFormed {hub : Hub} {conn : ConnId} {registered : Option PeerDescriptor}
    (h : hub.WellFormed) (running : hub.socketAt conn = some (.running registered)) :
    (hub.leave cfg conn registered).WellFormed := by
  unfold WellFormed leave
  cases registered with
  | none =>
      rw [setSocket_socketAt]
      exact Consistent.exit h running
  | some peer =>
      dsimp only
      rw [setSocket_socketAt]
      change Consistent (registration (machine.eval (disconnect cfg peer) hub.server).2) _
      rw [disconnect_registration]
      exact Consistent.leave h running

theorem handle_wellFormed {hub : Hub} {conn : ConnId} {registered : Option PeerDescriptor}
    {frame : Frame} (h : hub.WellFormed)
    (running : hub.socketAt conn = some (.running registered)) :
    (hub.handle cfg conn registered frame).WellFormed := by
  have cases := handleFrame_cases cfg conn registered frame hub.server
  unfold handle
  generalize machine.eval (handleFrame cfg conn registered frame) hub.server = handled at cases ⊢
  obtain ⟨flow, server⟩ := handled
  dsimp only at cases ⊢
  rcases cases with ⟨rfl | rfl, -, same⟩ | ⟨d, rfl, rfl, free, written⟩ | ⟨rfl, -, same⟩
  · unfold WellFormed
    rw [setSocket_socketAt]
    change Consistent (registration server) (Function.update hub.socketAt _ _)
    rwa [same, ← running, Function.update_eq_self]
  · refine leave_wellFormed cfg ?_ running
    unfold WellFormed
    change Consistent (registration server) _
    rw [same]
    exact h
  · unfold WellFormed
    rw [setSocket_socketAt]
    change Consistent (registration server) (Function.update hub.socketAt _ _)
    rw [written]
    exact Consistent.greet h running free
  · unfold WellFormed
    rw [setSocket_socketAt]
    change Consistent (registration server) (Function.update hub.socketAt _ _)
    rw [same]
    exact Consistent.exit h running

theorem step_wellFormed {hub : Hub} (h : hub.WellFormed) (event : HubEvent) :
    (hub.step cfg event).WellFormed := by
  cases event with
  | accept conn =>
      simp only [step]
      split
      case h_1 unused =>
          unfold WellFormed
          rw [setSocket_socketAt]
          exact Consistent.accept h unused
      case h_2 => exact h
  | frame conn frame =>
      simp only [step]
      split
      case h_1 running => exact handle_wellFormed cfg h running
      case h_2 => exact h
  | endOfStream conn =>
      simp only [step]
      split
      case h_1 running => exact leave_wellFormed cfg h running
      case h_2 => exact h
  | listen self =>
      have keeps : (clusterListener self).Upholds (fun _ _ => True) KeepsPeers (fun _ => True) :=
        clusterListener_upholds trivial (fun _ _ _ => trivial) fun _ _ _ => trivial
      have kept := (eval_registration keeps hub.server).2
      change Consistent (registration (machine.eval (clusterListener self) hub.server).2) _
      rw [kept]
      exact h
  | disturb x =>
      change Consistent (registration (x.apply hub.server)) _
      have same : registration (x.apply hub.server) = registration hub.server := by
        funext id
        simp [registration]
      rw [same]
      exact h

theorem run_wellFormed {hub : Hub} (h : hub.WellFormed) (events : List HubEvent) :
    (hub.run cfg events).WellFormed := by
  induction events generalizing hub with
  | nil => exact h
  | cons event events ih => exact ih (step_wellFormed cfg h event)

end Hub

end Qubox.Signaling
