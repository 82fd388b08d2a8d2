import Qubox.Signaling.Journal

/-!
# Relayed signals

A handler invokes an operation for the peer it has registered, and for nobody
else. `Authentic` says this of a run, and `hub_reaches` that every run of the
sockets is such a run: a frame is one call between a few quiet steps.

On a single instance a relayed signal then has a live and authorised session
behind it. The journal explains the session, and the checks of `relay_signal`
give the rest.
-/

namespace Qubox.Signaling

open Interaction
open Interaction.Program (Upholds)

/-- The peer is in the table with this descriptor. -/
def Registered (s : Server) (d : PeerDescriptor) : Prop :=
  ∃ conn, registration s d.peerId = some (d, conn)

/-- The peer for which a handler makes the call, once it is registered. -/
def Call.caller? : Call → Option PeerDescriptor
  | .disconnect peer | .requestPairing peer _ | .decidePairing peer _ => some peer
  | .startSession peer _ | .revokePairing peer _ _ | .kickSession peer _ _ => some peer
  | .relaySignal peer _ | .createShareLink peer _ _ | .redeemShareLink peer _ _ => some peer
  | _ => none

def Step.Authentic (s : Server) : Step → Prop
  | .call c => ∀ d, c.caller? = some d → Registered s d
  | _ => True

/-- Every call of the run is made for a registered peer. -/
def Authentic (cfg : Config) : Server → List Step → Prop
  | _, [] => True
  | s, step :: steps => step.Authentic s ∧ Authentic cfg (step.after cfg s) steps

section Runs

variable {cfg : Config} {s s' s'' : Server}

theorem runSteps_append (first second : List Step) :
    runSteps cfg s (first ++ second) = runSteps cfg (runSteps cfg s first) second :=
  List.foldl_append

theorem authentic_append {first second : List Step} : Authentic cfg s (first ++ second) ↔
    Authentic cfg s first ∧ Authentic cfg (runSteps cfg s first) second := by
  induction first generalizing s with
  | nil => simp [Authentic, runSteps]
  | cons step first ih =>
      simp only [List.cons_append, Authentic, ih, and_assoc]
      rfl

/-- An authentic run leads from one server to the other. -/
def Reaches (cfg : Config) (s s' : Server) : Prop :=
  ∃ steps, Authentic cfg s steps ∧ runSteps cfg s steps = s'

theorem Reaches.refl (s : Server) : Reaches cfg s s := ⟨[], trivial, rfl⟩

theorem Reaches.trans (first : Reaches cfg s s') (second : Reaches cfg s' s'') :
    Reaches cfg s s'' := by
  obtain ⟨steps, authentic, rfl⟩ := first
  obtain ⟨more, authentic', rfl⟩ := second
  exact ⟨steps ++ more, authentic_append.mpr ⟨authentic, authentic'⟩, runSteps_append _ _⟩

theorem Reaches.call (call : Call) (caller : ∀ d, call.caller? = some d → Registered s d) :
    Reaches cfg s (call.run cfg s).2 :=
  ⟨[.call call], ⟨caller, trivial⟩, rfl⟩

theorem Reaches.anonymous (call : Call) (nobody : call.caller? = none) :
    Reaches cfg s (call.run cfg s).2 := by
  apply Reaches.call
  intro d caller
  rw [nobody] at caller
  cases caller

theorem Reaches.disturb (x : Disturbance) : Reaches cfg s (x.apply s) :=
  ⟨[.disturb x], ⟨trivial, trivial⟩, rfl⟩

theorem Reaches.talk {p : Proc Unit}
    (quiet : p.Upholds (fun _ _ => True) Action.Quiet (fun _ => True)) :
    Reaches cfg s (machine.eval p s).2 :=
  ⟨[.talk ⟨p, quiet⟩], ⟨trivial, trivial⟩, rfl⟩

/-- Most arms: one operation, and then a message that depends on its result. -/
theorem Reaches.arm {ε α : Type} {op : Program signature ε α} {wrap : ε → CallError}
    {rest : Except ε α → Proc Unit} (call : Call)
    (caller : ∀ d, call.caller? = some d → Registered s d)
    (body : call.body cfg = op.settle wrap)
    (quiet : ∀ r, (rest r).Upholds (fun _ _ => True) Action.Quiet (fun _ => True)) :
    Reaches cfg s (machine.eval (op.attempt >>= rest) s).2 := by
  have called : (call.run cfg s).2 = (machine.run op s).2 := by
    rw [Call.run, body, machine.run_settle_snd]
  rw [machine.eval_bind, machine.eval_attempt, ← called]
  exact (Reaches.call call caller).trans (Reaches.talk (quiet _))

end Runs

/-! ## Sockets make authentic runs -/

section Sockets

variable (cfg : Config) (conn : ConnId) {s : Server}

theorem quiet_self (a : Action) (quiet : a.Quiet) : a.Quiet := quiet

theorem replyError_quiet (code message : String) :
    (replyError conn code message).Upholds (fun _ _ => True) Action.Quiet (fun _ => True) :=
  replyError_upholds conn quiet_self code message

theorem sendError_quiet (peer : PeerDescriptor) (code message : String) :
    (sendError cfg peer code message).Upholds (fun _ _ => True) Action.Quiet (fun _ => True) :=
  sendError_upholds cfg quiet_self peer code message

theorem run_eval {α : Type} {p : Proc α} (call : Call)
    (body : call.body cfg = p.settle Empty.elim) (s : Server) :
    (call.run cfg s).2 = (machine.eval p s).2 := by
  rw [Call.run, body, machine.run_settle_snd, machine.run_eq_eval]

theorem handleMessage_reaches_none (message : ClientMessage) :
    Reaches cfg s (machine.eval (handleMessage cfg conn none message) s).2 := by
  have refused {code text : String} : Reaches cfg s
      (machine.eval (do replyError conn code text; return Flow.leave) s).2 := by
    rw [machine.eval_bind]
    exact Reaches.talk (replyError_quiet conn code text)
  cases message
  case hello descriptor =>
    exact run_eval cfg (.hello conn descriptor) rfl s ▸ Reaches.anonymous _ rfl
  case signedHello signed =>
    exact run_eval cfg (.signedHello conn signed) rfl s ▸ Reaches.anonymous _ rfl
  all_goals exact refused

theorem onBundleAccepted_reaches {peer : PeerDescriptor} (registered : Registered s peer)
    (request : StartSessionRequest) (viewer : ViewerToHost) :
    Reaches cfg s (machine.eval (onBundleAccepted cfg conn peer request viewer) s).2 := by
  refine Reaches.arm (.startSession peer request) (by rintro _ ⟨⟩; exact registered) rfl
    fun answer => ?_
  cases answer with
  | error e => exact replyError_quiet conn _ _
  | ok plan =>
      refine Upholds.perform_bind trivial fun _ _ => ?_
      refine (findHostPeerForDevice_upholds quiet_self _).bind fun found _ => ?_
      cases found with
      | none => exact ⟨trivial, fun _ _ => trivial⟩
      | some hostPeerId =>
          exact Upholds.bind (ignore_upholds (sendTo_upholds cfg quiet_self (by trivial)))
            fun _ _ => ⟨trivial, fun _ _ => trivial⟩

theorem onStartSessionWithBundle_reaches {peer : PeerDescriptor} (registered : Registered s peer)
    (request : StartSessionBundleRequest) :
    Reaches cfg s (machine.eval (onStartSessionWithBundle cfg conn peer request) s).2 := by
  have verified : (Call.run cfg (.verifySessionBundle request s.env.now) s).2 =
      (machine.run (verifySessionBundle cfg request s.env.now) s).2 := machine.run_settle_snd _ _ _
  have kept := run_registration (verifySessionBundle_upholds cfg keepsPeers_of_quiet
    fun _ _ _ => trivial : (verifySessionBundle cfg request s.env.now).Upholds _ KeepsPeers _) s
  have clock : Server.exec .now s = (s.env.now, s) := rfl
  rw [onStartSessionWithBundle, eval_perform_bind, clock, machine.eval_bind, machine.eval_attempt]
  have first : Reaches cfg s (machine.run (verifySessionBundle cfg request s.env.now) s).2 :=
    verified ▸ Reaches.anonymous _ rfl
  refine first.trans ?_
  cases (machine.run (verifySessionBundle cfg request s.env.now) s).1 with
  | error e =>
      rw [machine.eval_bind]
      exact Reaches.talk (replyError_quiet conn _ _)
  | ok viewer =>
      rw [machine.eval_bind]
      refine onBundleAccepted_reaches cfg conn ?_ _ _
      unfold Registered
      rwa [kept]

/-- Whatever a registered peer asks for is done for this peer. -/
theorem handleMessage_reaches {peer : PeerDescriptor} (registered : Registered s peer)
    (message : ClientMessage) :
    Reaches cfg s (machine.eval (handleMessage cfg conn (some peer) message) s).2 := by
  have own : ∀ d, some peer = some d → Registered s d := by
    rintro _ ⟨⟩
    exact registered
  have stays {arm : Proc Unit} (h : Reaches cfg s (machine.eval arm s).2) :
      Reaches cfg s (machine.eval (stay peer arm) s).2 := by
    rwa [stay, machine.eval_bind]
  cases message with
  | hello descriptor | signedHello signed => exact stays (Reaches.talk (replyError_quiet conn _ _))
  | listHosts =>
      refine stays ?_
      rw [onListHosts, machine.eval_bind, machine.eval_bind]
      have asked : (machine.eval (peerTenant peer.peerId) s).2 = s := rfl
      rw [asked, ← run_eval cfg (.listHosts _) rfl]
      exact Reaches.trans (Reaches.anonymous _ rfl)
        (Reaches.talk (p := perform (.reply conn _)) ⟨trivial, fun _ _ => trivial⟩)
  | requestPairing request =>
      refine stays (Reaches.arm (.requestPairing peer request) own rfl fun answer => ?_)
      cases answer with
      | ok u => trivial
      | error e => exact replyError_quiet conn _ _
  | pairingDecision decision =>
      refine stays (Reaches.arm (.decidePairing peer decision) own rfl fun answer => ?_)
      cases answer with
      | ok grant =>
          cases grant with
          | none => trivial
          | some grant => exact ⟨trivial, fun _ _ => trivial⟩
      | error e => exact replyError_quiet conn _ _
  | heartbeat =>
      refine stays ?_
      rw [onHeartbeat, machine.eval_bind, ← run_eval cfg (.heartbeat peer.peerId) rfl]
      exact (Reaches.call (.heartbeat peer.peerId) nofun).trans
        (Reaches.talk (p := perform (.reply conn _)) ⟨trivial, fun _ _ => trivial⟩)
  | startSession request =>
      refine stays (Reaches.arm (.startSession peer request) own rfl fun answer => ?_)
      cases answer with
      | ok plan => exact ⟨trivial, fun _ _ => trivial⟩
      | error e => exact replyError_quiet conn _ _
  | startSessionWithBundle request =>
      exact onStartSessionWithBundle_reaches cfg conn registered request
  | relaySignal signal =>
      refine stays (Reaches.arm (.relaySignal peer signal) own rfl fun answer => ?_)
      cases answer with
      | ok u => trivial
      | error e => exact replyError_quiet conn _ _
  | revokePairing h c =>
      refine stays (Reaches.arm (.revokePairing peer h c) own rfl fun answer => ?_)
      cases answer with
      | ok u => trivial
      | error e => exact sendError_quiet cfg _ _ _
  | kickSession sessionId reason =>
      refine stays (Reaches.arm (.kickSession peer sessionId reason) own rfl
        fun answer => ?_)
      cases answer with
      | ok u => trivial
      | error e => exact sendError_quiet cfg _ _ _
  | createShareLink ttl permissions =>
      refine stays (Reaches.arm (.createShareLink peer ttl permissions) own rfl
        fun answer => ?_)
      cases answer with
      | ok link => exact ignore_upholds (sendTo_upholds cfg quiet_self (by trivial))
      | error e => exact sendError_quiet cfg _ _ _
  | redeemShareLink code label =>
      refine stays (Reaches.arm (.redeemShareLink peer code label) own rfl
        fun answer => ?_)
      cases answer with
      | ok u => trivial
      | error e => exact sendError_quiet cfg _ _ _
  | signedKill envelope =>
      refine stays ?_
      have clock : Server.exec .now s = (s.env.now, s) := rfl
      rw [onSignedKill, eval_perform_bind, clock]
      refine Reaches.arm (.applySignedKill envelope s.env.now) nofun rfl fun answer => ?_
      cases answer with
      | error e => exact sendError_quiet cfg _ _ _
      | ok kill =>
          refine (echoKill_upholds cfg quiet_self envelope kill).bind fun _ _ => ?_
          exact sendError_quiet cfg _ _ _
  | operatorDecision sessionId accept => exact Reaches.refl s

theorem handleFrame_reaches {registered : Option PeerDescriptor}
    (present : ∀ d, registered = some d → Registered s d) (frame : Frame) :
    Reaches cfg s (machine.eval (handleFrame cfg conn registered frame) s).2 := by
  cases frame with
  | text payload =>
      cases decoded : cfg.decodeMessage payload with
      | error e =>
          simp only [handleFrame, decoded]
          rw [machine.eval_bind]
          exact Reaches.talk (replyError_quiet conn _ _)
      | ok message =>
          simp only [handleFrame, decoded]
          cases registered with
          | none => exact handleMessage_reaches_none cfg conn message
          | some peer => exact handleMessage_reaches cfg conn (present peer rfl) message
  | binary =>
      rw [handleFrame, machine.eval_bind]
      exact Reaches.talk (replyError_quiet conn _ _)
  | _ => exact Reaches.refl s

theorem leave_reaches (hub : Hub) {registered : Option PeerDescriptor}
    (present : ∀ d, registered = some d → Registered hub.server d) :
    Reaches cfg hub.server (hub.leave cfg conn registered).server := by
  cases registered with
  | none => exact Reaches.refl _
  | some peer =>
      change Reaches cfg hub.server (machine.eval (disconnect cfg peer) hub.server).2
      rw [← run_eval cfg (.disconnect peer) rfl]
      refine Reaches.call _ ?_
      rintro _ ⟨⟩
      exact present peer rfl

theorem handle_reaches {hub : Hub} {registered : Option PeerDescriptor}
    (wellFormed : hub.WellFormed) (running : hub.socketAt conn = some (.running registered))
    (frame : Frame) : Reaches cfg hub.server (hub.handle cfg conn registered frame).server := by
  have present : ∀ d, registered = some d → Registered hub.server d := by
    rintro d rfl
    exact ⟨conn, Consistent.present wellFormed conn d running⟩
  have handled := handleFrame_reaches cfg conn present frame
  have cases := handleFrame_cases cfg conn registered frame hub.server
  unfold Hub.handle
  generalize machine.eval (handleFrame cfg conn registered frame) hub.server = result at *
  obtain ⟨flow, server⟩ := result
  dsimp only at cases handled ⊢
  rcases cases with ⟨rfl | rfl, -, same⟩ | ⟨d, rfl, rfl, -, -⟩ | ⟨rfl, -, -⟩
  · exact handled
  · refine handled.trans (leave_reaches cfg conn { hub with server } fun d isD => ?_)
    unfold Registered
    rw [same]
    exact present d isD
  · exact handled
  · exact handled

/-- Every run of the sockets is an authentic run of the operations. -/
theorem hub_reaches {hub : Hub} (wellFormed : hub.WellFormed) (events : List HubEvent) :
    Reaches cfg hub.server (hub.run cfg events).server := by
  induction events generalizing hub with
  | nil => exact Reaches.refl _
  | cons event events ih =>
      refine Reaches.trans ?_ (ih (Hub.step_wellFormed cfg wellFormed event))
      cases event with
      | accept conn =>
          simp only [Hub.step]
          split <;> exact Reaches.refl _
      | frame conn frame =>
          simp only [Hub.step]
          split
          case h_1 running => exact handle_reaches cfg conn wellFormed running frame
          case h_2 => exact Reaches.refl _
      | endOfStream conn =>
          simp only [Hub.step]
          split
          case h_1 registered running =>
              refine leave_reaches cfg conn hub fun d isD => ?_
              subst isD
              exact ⟨conn, Consistent.present wellFormed conn d running⟩
          case h_2 => exact Reaches.refl _
      | listen self =>
          have called := run_eval cfg (.clusterListener self) rfl hub.server
          change Reaches cfg hub.server (machine.eval (clusterListener self) hub.server).2
          rw [← called]
          exact Reaches.anonymous _ rfl
      | disturb x => exact Reaches.disturb x

end Sockets

namespace Sample

def plainHost : PeerDescriptor := ⟨1, 1, "device", .host, .linux, {}⟩

def helloText : String :=
  "\x7b\"type\":\"hello\",\"payload\":\x7b" ++
    "\"device_id\":\"00000000-0000-0000-0000-000000000001\"," ++
    "\"peer_id\":\"00000000-0000-0000-0000-000000000001\",\"device_name\":\"device\"," ++
    "\"role\":\"host\",\"os\":\"linux\",\"capabilities\":\x7b\"transports\":[],\"capture\":[]," ++
    "\"encoders\":[],\"decoders\":[],\"notes\":[]\x7d\x7d\x7d"

/-- A host says hello, makes a share code and leaves; another socket says nothing. -/
def sharingHost : List HubEvent :=
  [.accept 0, .frame 0 (.text helloText), .accept 1, .frame 1 .ping, .frame 0 (.text "share"),
    .frame 0 .close]

def sharesOnText : Config :=
  { config with decodeMessage := fun text =>
      if text = helloText then .ok (.hello plainHost) else .ok (.createShareLink 60 {}) }

end Sample

theorem hub_reaches_accepted :
    let hub := Hub.fresh (Sample.fresh [⟨1, 2⟩])
    let last := (hub.run Sample.sharesOnText Sample.sharingHost).server
    last.state.shareLinks.keys = ["00000000"] ∧ last.state.peers.keys = [] ∧
      Reaches Sample.sharesOnText hub.server last :=
  ⟨by decide +kernel, by decide +kernel,
    hub_reaches Sample.sharesOnText (Hub.fresh_wellFormed rfl) Sample.sharingHost⟩

/-! ## A single instance -/

section Single

variable {cfg : Config} (single : cfg.cluster = none) {s s' : Server}

include single

theorem findSession_ok {id : Uuid} {remote : RemoteSession}
    (ok : machine.run (findSession cfg id) s = (.ok remote, s')) :
    s = s' ∧ ∃ session, s.state.sessions.lookup id = some session ∧
      remote = ⟨session.hostPeerId, session.clientPeerId, session.expiresUnixMillis⟩ := by
  have read : Server.exec (.getSession id) s = (s.state.sessions.lookup id, s) := rfl
  rw [findSession, run_perform_bind, read] at ok
  cases found : s.state.sessions.lookup id with
  | none =>
      simp only [found, single] at ok
      cases ok
  | some session =>
      simp only [found] at ok
      cases ok
      exact ⟨rfl, session, rfl, rfl⟩

theorem isPairedCluster_ok {h c : Uuid} {paired : Bool}
    (ok : machine.run (isPairedCluster cfg h c) s = (.ok paired, s')) :
    s = s' ∧ paired = s.state.isPaired h c := by
  have read : Server.exec (.isPaired h c) s = (s.state.isPaired h c, s) := rfl
  rw [isPairedCluster, run_perform_bind, read] at ok
  cases isPaired : s.state.isPaired h c with
  | true =>
      simp only [isPaired, if_true] at ok
      cases ok
      exact ⟨rfl, rfl⟩
  | false =>
      simp only [isPaired, Bool.false_eq_true, if_false, single] at ok
      cases ok
      exact ⟨rfl, rfl⟩

theorem sendTo_ok {peerId : Uuid} {message : ServerMessage} {u : Unit}
    (ok : machine.run (sendTo cfg peerId message) s = (.ok u, s')) :
    ∃ target, s.state.peers.lookup peerId = some target ∧
      s'.state.outbound = s.state.outbound ++ [(target.outbound, message)] := by
  rw [sendTo, run_perform_bind] at ok
  have sent := Server.exec_outbound (.sendLocal peerId message) s
  have answered : (Server.exec (.sendLocal peerId message) s).1 =
      (s.state.peers.lookup peerId).map (fun peer => s.env.writable peer.outbound) := by
    simp only [Server.exec, Server.execSendLocal]
    cases s.state.peers.lookup peerId <;> rfl
  rw [answered] at ok
  cases found : s.state.peers.lookup peerId with
  | none =>
      simp only [found, Option.map_none, single] at ok
      cases ok
  | some target =>
      simp only [found, Option.map_some] at ok
      obtain ⟨writable, rfl⟩ := run_require_ok ok
      refine ⟨target, rfl, ?_⟩
      simpa [Server.sends, found, writable] using sent

/-- What a successful `relay_signal` has checked and done. -/
theorem relaySignal_ok {peer : PeerDescriptor} {signal : RelaySignal}
    (ok : machine.run (relaySignal cfg peer signal) s = (.ok (), s')) :
    signal.fromPeerId = peer.peerId ∧ ∃ session,
      s.state.sessions.lookup signal.sessionId = some session ∧
      s.env.now < session.expiresUnixMillis ∧
      ((peer.peerId = session.clientPeerId ∧ signal.toPeerId = session.hostPeerId) ∨
        (peer.peerId = session.hostPeerId ∧ signal.toPeerId = session.clientPeerId)) ∧
      ⟨session.hostPeerId, session.clientPeerId⟩ ∈ s.state.pairings ∧
      ∃ target, s.state.peers.lookup signal.toPeerId = some target ∧
        s'.state.outbound = s.state.outbound ++ [(target.outbound, .signal signal)] := by
  obtain ⟨_, s₁, sourced, ok⟩ := machine.run_bind_ok ok
  obtain ⟨source, rfl⟩ := run_require_ok sourced
  obtain ⟨_, s₁, pruned, ok⟩ := machine.run_bind_ok ok
  have kept : s₁ = (Server.exec (.pruneSessions s.env.now) s).2 := (Prod.mk.inj pruned).2.symm
  obtain ⟨remote, s₂, found, ok⟩ := machine.run_bind_ok ok
  obtain ⟨rfl, session, stored, rfl⟩ := findSession_ok single found
  obtain ⟨now, s₂, read, ok⟩ := machine.run_bind_ok ok
  cases read
  split at ok
  · cases ok
  case isFalse live =>
    obtain ⟨_, s₂, sided, ok⟩ := machine.run_bind_ok ok
    obtain ⟨sides, rfl⟩ := run_require_ok sided
    obtain ⟨paired, s₂, asked, ok⟩ := machine.run_bind_ok ok
    obtain ⟨rfl, rfl⟩ := isPairedCluster_ok single asked
    obtain ⟨_, s₂, granted, ok⟩ := machine.run_bind_ok ok
    obtain ⟨grant, rfl⟩ := run_require_ok granted
    subst kept
    have present := (AList.lookup_retain_eq_some.mp stored).1
    have sent := sendTo_ok single ok
    exact ⟨by simpa using source, session, present, Nat.lt_of_not_le live, by simpa using sides,
      SignalingState.isPaired_iff.mp grant, sent⟩

end Single

/-- A session under this id that the run has started for this pair less than ten
minutes ago and not ended since, and the pair's grant. -/
structure Backed (cfg : Config) (past : List Entry) (s : Server) (id h c : Uuid) : Prop where
  started : ∃ earlier start later, past = earlier ++ start :: later ∧ start.Starts cfg id h c ∧
    s.env.now < start.before.env.now + 10 * 60 * 1000 ∧ ∀ e ∈ later, ¬ e.Ends cfg id h c
  granted : ⟨h, c⟩ ∈ s.state.pairings

theorem saturatingAdd_le (a b : Nat) : saturatingAdd a b ≤ a + b := Nat.min_le_left _ _

/-- A signal that is relayed has a live, authorised session behind it. -/
theorem relayed_backed (cfg : Config) (single : cfg.cluster = none) (pairings : List PairingGrant)
    (file : Option (List PairingGrant)) (redis : Redis) (env : Env) (steps : List Step)
    (peer : PeerDescriptor) (signal : RelaySignal)
    (authentic : Authentic cfg ⟨.fresh pairings file, redis, env⟩
      (steps ++ [.call (.relaySignal peer signal)])) :
    let s := runSteps cfg ⟨.fresh pairings file, redis, env⟩ steps
    ((Call.relaySignal peer signal).run cfg s).1 = .ok () →
    Registered s peer ∧ signal.fromPeerId = peer.peerId ∧
    (∃ target, s.state.peers.lookup signal.toPeerId = some target ∧
      ((Call.relaySignal peer signal).run cfg s).2.state.outbound =
        s.state.outbound ++ [(target.outbound, .signal signal)]) ∧
    ∃ h c, ((peer.peerId = c ∧ signal.toPeerId = h) ∨ (peer.peerId = h ∧ signal.toPeerId = c)) ∧
      Backed cfg (journal cfg ⟨.fresh pairings file, redis, env⟩ steps) s signal.sessionId h c := by
  intro s ok
  have caller := (authentic_append.mp authentic).2.1 peer rfl
  obtain ⟨⟨⟩, ok⟩ := (machine.run_settle_ok _ _ _).mp ok
  obtain ⟨source, session, stored, live, sides, granted, target, found, sent⟩ :=
    relaySignal_ok single (Prod.ext ok rfl)
  obtain ⟨earlier, start, later, split, starts, expires, kept⟩ :=
    sessions_explained cfg rfl steps signal.sessionId session stored
  refine ⟨caller, source, ⟨target, found, ?_⟩, session.hostPeerId, session.clientPeerId, sides,
    ⟨earlier, start, later, split, starts, ?_, kept⟩, granted⟩
  · rw [Call.run, Call.body, machine.run_settle_snd]
    exact sent
  · calc s.env.now < session.expiresUnixMillis := live
      _ = saturatingAdd start.before.env.now sessionTokenTtlMillis := expires
      _ ≤ start.before.env.now + 10 * 60 * 1000 := saturatingAdd_le _ _

/-! Two peers sign in, start a session and exchange a signal. -/

namespace Sample

def signIns : List Step :=
  [.call (.signedHello 0 ⟨host, 5, []⟩), .call (.signedHello 1 ⟨client, 6, []⟩),
    .call (.startSession client { sessionId := 7, targetHostId := 1 })]

def offer : RelaySignal := ⟨7, 2, 1, .sdpOffer "v=0"⟩

end Sample

theorem offer_backed :
    let s := runSteps Sample.config (Sample.fresh [⟨1, 2⟩]) Sample.signIns
    ((Call.relaySignal Sample.client Sample.offer).run Sample.config s).1 = .ok () ∧
      ∃ h c, Backed Sample.config
        (journal Sample.config (Sample.fresh [⟨1, 2⟩]) Sample.signIns) s 7 h c := by
  have ok : ((Call.relaySignal Sample.client Sample.offer).run Sample.config
      (runSteps Sample.config (Sample.fresh [⟨1, 2⟩]) Sample.signIns)).1 = .ok () := by
    decide
  have byClient : Authentic Sample.config (Sample.fresh [⟨1, 2⟩])
      (Sample.signIns ++ [.call (.relaySignal Sample.client Sample.offer)]) := by
    refine ⟨nofun, nofun, ?_, ?_, trivial⟩
    · rintro _ ⟨⟩
      exact ⟨1, by decide⟩
    · rintro _ ⟨⟩
      exact ⟨1, by decide⟩
  obtain ⟨-, -, -, h, c, -, backed⟩ := relayed_backed Sample.config rfl [⟨1, 2⟩] none Redis.empty
    Sample.env Sample.signIns Sample.client Sample.offer byClient ok
  exact ⟨ok, h, c, backed⟩

end Qubox.Signaling
