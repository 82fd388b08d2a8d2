import Qubox.Signaling.Hub

/-!
# Uninterrupted runs and their journal

Here every operation is one step. Between two steps the handler may send what
it has to say, and the clock and the rest of the environment may change. The
journal of a run lists its calls, each with the server it started on; a call's
outcome can be computed from that.

The invariant proved here explains every stored session by the journal: the
session comes from the most recent successful `start_session` with its id, and
nothing that ends a session has happened to it since.
-/

namespace Qubox.Signaling

open Interaction
open Interaction.Program (Upholds)

def Call.run (cfg : Config) (call : Call) (s : Server) : Except CallError Unit × Server :=
  machine.run (call.body cfg) s

/-- What a handler does around a call: it asks and answers, quietly. -/
structure Talk where
  body : Proc Unit
  quiet : body.Upholds (fun _ _ => True) Action.Quiet (fun _ => True)

inductive Step where
  | call (call : Call)
  | talk (talk : Talk)
  | disturb (x : Disturbance)

/-- A call of the journal, with the server it started on. -/
structure Entry where
  before : Server
  call : Call

def Entry.outcome (cfg : Config) (e : Entry) : Except CallError Unit := (e.call.run cfg e.before).1

def Step.after (cfg : Config) (s : Server) : Step → Server
  | .call c => (c.run cfg s).2
  | .talk t => (machine.eval t.body s).2
  | .disturb x => x.apply s

def runSteps (cfg : Config) (s : Server) (steps : List Step) : Server :=
  steps.foldl (Step.after cfg) s

def journal (cfg : Config) : Server → List Step → List Entry
  | _, [] => []
  | s, .call call :: steps => ⟨s, call⟩ :: journal cfg (call.run cfg s).2 steps
  | s, step :: steps => journal cfg (step.after cfg s) steps

/-- Induction over runs for a property that speaks of the journal. -/
theorem journal_invariant (cfg : Config) {I : List Entry → Server → Prop}
    (calls : ∀ past s call, I past s → I (past ++ [⟨s, call⟩]) (call.run cfg s).2)
    (talked : ∀ past s (talk : Talk), I past s → I past (machine.eval talk.body s).2)
    (disturbed : ∀ past s x, I past s → I past (Disturbance.apply x s))
    {past : List Entry} {s : Server} (start : I past s) (steps : List Step) :
    I (past ++ journal cfg s steps) (runSteps cfg s steps) := by
  induction steps generalizing past s with
  | nil => simpa [journal, runSteps] using start
  | cons step steps ih =>
      cases step with
      | call call => simpa [journal, runSteps, Step.after] using ih (calls past s call start)
      | talk talk => exact ih (talked past s talk start)
      | disturb x => exact ih (disturbed past s x start)

/-! ## What an operation does to the sessions -/

/-- No session appears and none changes. -/
def Shrinks (sessions sessions' : AList (fun _ : Uuid => ActiveSession)) : Prop :=
  ∀ id session, sessions'.lookup id = some session → sessions.lookup id = some session

def NoInsert : Action → Prop
  | .insertSession _ _ => False
  | _ => True

/-- The action leaves the sessions table alone. -/
def KeepsSessions (a : Action) : Prop := ∀ sessions, a.onSessions sessions = sessions

/-- The clock shows a fixed time whenever it is read. -/
def ClockShows (now : Nat) : (a : Action) → a.Answer → Prop
  | .now, answer => answer = now
  | _, _ => True

theorem keepsSessions_of_quiet (a : Action) (quiet : a.Quiet) : KeepsSessions a := by
  cases a <;> first | exact quiet.elim | exact fun _ => rfl

theorem talk_sessions (talk : Talk) (s : Server) :
    (machine.eval talk.body s).2.state.sessions = s.state.sessions := by
  have kept := machine.run_frame (·.state.sessions) (talk.quiet.mono (fun _ _ h => h)
    (fun a quiet t => (Server.exec_sessions a t).trans (keepsSessions_of_quiet a quiet _))
    fun _ _ => trivial) s
  rwa [machine.run_eq_eval] at kept

theorem noInsert_of_quiet (a : Action) (quiet : a.Quiet) : NoInsert a := by
  cases a <;> first | exact quiet.elim | trivial

theorem onSessions_shrinks {a : Action} (noInsert : NoInsert a)
    (sessions : AList (fun _ : Uuid => ActiveSession)) :
    Shrinks sessions (a.onSessions sessions) := by
  intro id session found
  rcases Action.lookup_onSessions found with before | rfl
  · exact before
  · exact noInsert.elim

variable {ε α : Type} {Q : α → Prop} {p : Program signature ε α} {s s' : Server}

/-- A run without insertions returns at most the sessions it started with, and
has seen one time on the clock. -/
theorem run_shrinks (h : p.Upholds (ClockShows s.env.now) NoInsert Q) :
    Shrinks s.state.sessions (machine.run p s).2.state.sessions ∧
      ∀ a, (machine.run p s).1 = .ok a → Q a := by
  have kept := machine.run_invariant (s := s)
    (I := fun t => t.env = s.env ∧ Shrinks s.state.sessions t.state.sessions) h
    (fun a t ok inv => ⟨?_, ?_, ?_⟩) ⟨rfl, fun _ _ found => found⟩
  · exact ⟨kept.1.2, kept.2⟩
  · cases a
    case now => exact congrArg Env.now inv.1
    all_goals trivial
  · exact (Server.exec_env a t).trans inv.1
  · intro id session found
    rw [Server.exec_sessions] at found
    exact inv.2 id session (onSessions_shrinks ok _ id session found)

theorem run_keepsSessions (h : p.Upholds (fun _ _ => True) KeepsSessions Q) (s : Server) :
    (machine.run p s).2.state.sessions = s.state.sessions :=
  machine.run_frame (·.state.sessions) (h.mono (fun _ _ h => h)
    (fun a keeps t => (Server.exec_sessions a t).trans (keeps _)) fun _ _ => trivial) s

section Operations

variable (cfg : Config)

/-- A `start_session` that returns has stored its session under the request's
id; one that fails has stored nothing. -/
theorem startSession_sessions (client : PeerDescriptor) (request : StartSessionRequest)
    (s : Server) :
    (∃ plan session, (machine.run (startSession cfg client request) s).1 = .ok plan ∧
      session.IsOf request.targetHostId client.peerId ∧
      session.expiresUnixMillis = saturatingAdd s.env.now sessionTokenTtlMillis ∧
      ∀ id found, (machine.run (startSession cfg client request) s).2.state.sessions.lookup id =
          some found →
        (id = request.sessionId ∧ found = session) ∨
          (id ≠ request.sessionId ∧ s.state.sessions.lookup id = some found)) ∨
    (∃ e, (machine.run (startSession cfg client request) s).1 = .error e ∧
      Shrinks s.state.sessions
        (machine.run (startSession cfg client request) s).2.state.sessions) := by
  have contract : (planSession cfg client request).Upholds (ClockShows s.env.now) NoInsert _ :=
    planSession_upholds cfg noInsert_of_quiet (fun _ => trivial) ⟨trivial, fun _ _ => trivial⟩
  have planned := run_shrinks contract
  rcases result : machine.run (planSession cfg client request) s with ⟨e | ⟨session, plan⟩, s₁⟩
  · refine .inr ⟨e, ?_⟩
    rw [result] at planned
    rw [startSession, machine.run_bind, result]
    exact ⟨rfl, planned.1⟩
  · rw [result] at planned
    have ready := planned.2 _ rfl
    obtain ⟨now, rfl, expires⟩ := ready.expires
    refine .inl ⟨plan, session, ?_, ready.isOf, expires, fun id found stored => ?_⟩
    · rw [startSession, machine.run_bind, result, machine.resume_ok, run_perform_bind,
        machine.run_bind]
      unfold announceSession
      split
      · rw [run_ignore]
        rfl
      · rfl
    · have announced (t : Server) (remote : RemoteSession) : (machine.run (do
          announceSession cfg request.sessionId remote
          return plan) t).2.state.sessions = t.state.sessions := by
        refine run_keepsSessions (Q := fun _ => True) ?_ t
        exact (announceSession_upholds cfg fun _ => rfl).bind fun _ _ => trivial
      rw [startSession, machine.run_bind, result, machine.resume_ok, run_perform_bind, announced,
        Server.exec_sessions, Action.onSessions, AList.lookup_insert_ite] at stored
      split at stored
      case isTrue same =>
        cases stored
        exact .inl ⟨same, rfl⟩
      case isFalse other => exact .inr ⟨other, planned.1 id found stored⟩

/-- A revocation that returns leaves no session of the pair. -/
theorem revokePairing_sessions {actor : PeerDescriptor} {h c : Uuid}
    (ok : machine.run (revokePairing cfg actor h c) s = (.ok (), s')) (id : Uuid)
    (session : ActiveSession) (found : s'.state.sessions.lookup id = some session) :
    ¬ session.IsOf h c := by
  obtain ⟨allowed, s₁, -, ok⟩ := machine.run_bind_ok ok
  obtain ⟨_, s₂, -, ok⟩ := machine.run_bind_ok ok
  obtain ⟨removed, s₃, -, ok⟩ := machine.run_bind_ok ok
  obtain ⟨_, s₄, -, ok⟩ := machine.run_bind_ok ok
  rw [run_perform_bind] at ok
  have told (t : Server) : (machine.run (do
      ignore (sendTo cfg c (.pairingRevoked h c))
      ignore (sendTo cfg h (.pairingRevoked h c)) : Op Unit) t).2.state.sessions =
        t.state.sessions := by
    refine run_keepsSessions (Q := fun _ => True) ?_ t
    refine Upholds.bind (ignore_upholds (sendTo_upholds cfg keepsSessions_of_quiet (by trivial)))
      fun _ _ => ?_
    exact ignore_upholds (sendTo_upholds cfg keepsSessions_of_quiet (by trivial))
  have final := congrArg (fun r => r.2.state.sessions) ok
  rw [told, Server.exec_sessions] at final
  rw [← final] at found
  simpa using (AList.lookup_retain_eq_some.mp found).2

theorem finishKick_ok {actor : PeerDescriptor} {session : ActiveSession} (sessionId : Uuid)
    (reason : String)
    (participant : ¬ (actor.peerId ≠ session.hostPeerId ∧ actor.peerId ≠ session.clientPeerId))
    (s : Server) :
    (machine.run (finishKick cfg actor sessionId session reason) s).1 = .ok () ∧
      (machine.run (finishKick cfg actor sessionId session reason) s).2.state.sessions =
        s.state.sessions := by
  refine ⟨?_, run_keepsSessions (finishKick_upholds cfg keepsSessions_of_quiet
    fun stranger => absurd stranger participant) s⟩
  rw [finishKick, if_neg participant, machine.run_bind, run_ignore, machine.resume_ok, run_ignore]

theorem finishKick_error {actor : PeerDescriptor} {sessionId : Uuid} {session : ActiveSession}
    {reason : String}
    (stranger : actor.peerId ≠ session.hostPeerId ∧ actor.peerId ≠ session.clientPeerId)
    (s : Server) : machine.run (finishKick cfg actor sessionId session reason) s =
      (.error (.kickNotParticipant sessionId),
        s.setSessions (s.state.sessions.insert sessionId session)) := by
  rw [finishKick, if_pos stranger]
  rfl

/-- A kick that returns has removed the session; one that fails has changed
nothing, having put back what it removed. -/
theorem kickSession_sessions (actor : PeerDescriptor) (sessionId : Uuid) (reason : String)
    (s : Server) :
    ((machine.run (kickSession cfg actor sessionId reason) s).1 = .ok () ∧
      (machine.run (kickSession cfg actor sessionId reason) s).2.state.sessions =
        s.state.sessions.erase sessionId) ∨
    (∃ e, (machine.run (kickSession cfg actor sessionId reason) s).1 = .error e ∧
      ∀ id, (machine.run (kickSession cfg actor sessionId reason) s).2.state.sessions.lookup id =
        s.state.sessions.lookup id) := by
  have taken : Server.exec (.removeSession sessionId) s = (s.state.sessions.lookup sessionId,
      s.setSessions (s.state.sessions.erase sessionId)) := rfl
  rw [kickSession, run_perform_bind, taken, machine.run_bind]
  cases found : s.state.sessions.lookup sessionId with
  | none =>
      refine .inr ⟨_, rfl, fun id => ?_⟩
      change (s.state.sessions.erase sessionId).lookup id = _
      rw [AList.lookup_erase_ite]
      split
      case isTrue same => rw [same, found]
      case isFalse => rfl
  | some session =>
      rw [orFail, machine.run_done, machine.resume_ok]
      by_cases stranger : actor.peerId ≠ session.hostPeerId ∧ actor.peerId ≠ session.clientPeerId
      · rw [finishKick_error cfg stranger]
        refine .inr ⟨_, rfl, fun id => ?_⟩
        change ((s.state.sessions.erase sessionId).insert sessionId session).lookup id = _
        rw [AList.lookup_insert_ite, AList.lookup_erase_ite]
        split
        case isTrue same => rw [same, found]
        case isFalse => rfl
      · obtain ⟨ok, kept⟩ := finishKick_ok cfg sessionId reason stranger
          (s.setSessions (s.state.sessions.erase sessionId))
        exact .inl ⟨ok, kept⟩

/-- A signed kill that returns names a session id and leaves no such session. -/
theorem applySignedKill_sessions {envelope : SignedBundle} {now : Nat} {payload : SignedKill}
    (ok : machine.run (applySignedKill cfg envelope now) s = (.ok payload, s')) :
    cfg.payloadSignedKill envelope = .ok payload ∧
      ∀ id, cfg.parseUuid payload.sid = some id → s'.state.sessions.lookup id = none := by
  have quiet : ∀ a : Action, a.Quiet → NoInsert a := noInsert_of_quiet
  obtain ⟨payload', s₁, decoded, ok⟩ := machine.run_bind_ok ok
  have read : cfg.payloadSignedKill envelope = .ok payload' := by
    refine (run_shrinks (s := s) (decodeBundle_upholds cfg quiet _ envelope)).2 payload' ?_
    rw [decoded]
  obtain ⟨_, s₂, -, ok⟩ := machine.run_bind_ok ok
  obtain ⟨sessionId, s₃, parsed, ok⟩ := machine.run_bind_ok ok
  have named : cfg.parseUuid payload'.sid = some sessionId := by
    refine (run_shrinks (s := s₂) (orFail_upholds (BundleVerifyError.malformedSid payload'.sid)
      (cfg.parseUuid payload'.sid))).2 sessionId ?_
    rw [parsed]
  rw [run_perform_bind] at ok
  obtain ⟨_, s₄, announced, ok⟩ := machine.run_bind_ok ok
  obtain ⟨same, final⟩ := Prod.mk.inj ok
  cases same
  refine ⟨read, fun id other => ?_⟩
  cases named.symm.trans other
  have told : s₄.state.sessions = s₃.state.sessions.erase sessionId := by
    have kept := run_keepsSessions (announceKill_upholds cfg keepsSessions_of_quiet payload
      sessionId (Server.exec (.removeSession sessionId) s₃).1)
      (Server.exec (.removeSession sessionId) s₃).2
    rw [announced, Server.exec_sessions] at kept
    exact kept
  have denied : s'.state.sessions = s₄.state.sessions := by
    rw [← final]
    exact Server.exec_sessions (.denylist payload.jti (asU64 payload.exp)) s₄
  rw [denied, told, AList.lookup_erase_ite, if_pos rfl]

end Operations

/-! ## Sessions against the journal -/

/-- The call has successfully started this session for this pair. -/
def Entry.Starts (cfg : Config) (e : Entry) (id h c : Uuid) : Prop :=
  ∃ client request, e.call = .startSession client request ∧ request.sessionId = id ∧
    request.targetHostId = h ∧ client.peerId = c ∧ e.outcome cfg = .ok ()

/-- The call ends this session of this pair: a successful kick, kill or
revocation, the disconnection of a side, or a new session under the same id. -/
def Entry.Ends (cfg : Config) (e : Entry) (id h c : Uuid) : Prop :=
  match e.call with
  | .kickSession _ sessionId _ => sessionId = id ∧ e.outcome cfg = .ok ()
  | .applySignedKill envelope _ => e.outcome cfg = .ok () ∧
      ∃ payload, cfg.payloadSignedKill envelope = .ok payload ∧
        cfg.parseUuid payload.sid = some id
  | .revokePairing _ host client => host = h ∧ client = c ∧ e.outcome cfg = .ok ()
  | .disconnect peer => peer.peerId = h ∨ peer.peerId = c
  | .startSession _ request => request.sessionId = id ∧ e.outcome cfg = .ok ()
  | _ => False

/-- What one call does to the stored sessions. -/
theorem call_sessions (cfg : Config) (call : Call) (s : Server) (id : Uuid)
    (session : ActiveSession)
    (found : (call.run cfg s).2.state.sessions.lookup id = some session) :
    (s.state.sessions.lookup id = some session ∧
      ¬ Entry.Ends cfg ⟨s, call⟩ id session.hostPeerId session.clientPeerId) ∨
    (Entry.Starts cfg ⟨s, call⟩ id session.hostPeerId session.clientPeerId ∧
      session.expiresUnixMillis = saturatingAdd s.env.now sessionTokenTtlMillis) := by
  have shrinks (h : (call.body cfg).Upholds (ClockShows s.env.now) NoInsert (fun _ => True)) :
      s.state.sessions.lookup id = some session := (run_shrinks h).1 id session found
  cases call
  case startSession client request =>
    rw [Call.run, Call.body, machine.run_settle_snd] at found
    rcases startSession_sessions cfg client request s with
      ⟨plan, new, ok, isOf, expires, stored⟩ | ⟨e, error, kept⟩
    · rcases stored id session found with ⟨rfl, rfl⟩ | ⟨other, old⟩
      · exact .inr ⟨⟨client, request, rfl, rfl, isOf.1.symm, isOf.2.symm,
          (machine.run_settle_ok _ _ _).mpr ⟨plan, ok⟩⟩, expires⟩
      · exact .inl ⟨old, fun ends => other ends.1.symm⟩
    · refine .inl ⟨kept id session found, fun ends => ?_⟩
      obtain ⟨plan, ok⟩ := (machine.run_settle_ok _ _ _).mp ends.2
      cases error.symm.trans ok
  case kickSession actor sessionId reason =>
    rw [Call.run, Call.body, machine.run_settle_snd] at found
    rcases kickSession_sessions cfg actor sessionId reason s with ⟨ok, erased⟩ | ⟨e, error, same⟩
    · rw [erased, AList.lookup_erase_ite] at found
      split at found
      case isTrue => cases found
      case isFalse other => exact .inl ⟨found, fun ends => other ends.1.symm⟩
    · refine .inl ⟨(same id).symm.trans found, fun ends => ?_⟩
      obtain ⟨_, ok⟩ := (machine.run_settle_ok _ _ _).mp ends.2
      cases error.symm.trans ok
  case applySignedKill envelope now =>
    refine .inl ⟨shrinks ((applySignedKill_upholds cfg noInsert_of_quiet (fun _ => trivial)
      fun _ _ => trivial).settle _), ?_⟩
    rintro ⟨returned, payload, decoded, named⟩
    obtain ⟨payload', ok⟩ := (machine.run_settle_ok _ _ _).mp returned
    obtain ⟨decoded', gone⟩ := applySignedKill_sessions cfg (Prod.ext ok rfl)
    cases decoded'.symm.trans decoded
    rw [Call.run, Call.body, machine.run_settle_snd, gone id named] at found
    cases found
  case revokePairing actor h c =>
    refine .inl ⟨shrinks ((revokePairing_upholds cfg noInsert_of_quiet trivial
      trivial).settle _), ?_⟩
    rintro ⟨rfl, rfl, returned⟩
    obtain ⟨⟨⟩, ok⟩ := (machine.run_settle_ok _ _ _).mp returned
    rw [Call.run, Call.body, machine.run_settle_snd] at found
    exact revokePairing_sessions cfg (Prod.ext ok rfl) id session found ⟨rfl, rfl⟩
  case disconnect peer =>
    refine .inl ⟨shrinks ((disconnect_upholds cfg noInsert_of_quiet trivial trivial trivial
      fun _ _ => ⟨trivial, trivial⟩).settle _), ?_⟩
    rw [Call.run, Call.body, machine.run_settle_snd, machine.run_eq_eval] at found
    have gone := disconnect_sessions cfg peer s id session found
    rintro (ofHost | ofClient)
    · exact gone.1 ofHost.symm
    · exact gone.2 ofClient.symm
  all_goals
    refine .inl ⟨shrinks ?_, False.elim⟩
    refine (Call.body_may cfg _).mono (fun _ _ _ => trivial) (fun a may => ?_) fun _ _ => trivial
    cases may with
    | quiet still => exact noInsert_of_quiet a still
    | _ => trivial

/-- The session comes from the most recent successful start under its id, and
nothing has ended it since. -/
def Explained (cfg : Config) (past : List Entry) (id : Uuid) (session : ActiveSession) : Prop :=
  ∃ earlier start later, past = earlier ++ start :: later ∧
    start.Starts cfg id session.hostPeerId session.clientPeerId ∧
    session.expiresUnixMillis = saturatingAdd start.before.env.now sessionTokenTtlMillis ∧
    ∀ e ∈ later, ¬ e.Ends cfg id session.hostPeerId session.clientPeerId

/-- Every stored session is explained by the past. -/
def AllExplained (cfg : Config) (past : List Entry) (s : Server) : Prop :=
  ∀ id session, s.state.sessions.lookup id = some session → Explained cfg past id session

theorem AllExplained.call {cfg : Config} {past : List Entry} {s : Server}
    (explained : AllExplained cfg past s) (call : Call) :
    AllExplained cfg (past ++ [⟨s, call⟩]) (call.run cfg s).2 := by
  intro id session found
  rcases call_sessions cfg call s id session found with ⟨old, alive⟩ | ⟨starts, expires⟩
  · obtain ⟨earlier, start, later, rfl, starts, expires, kept⟩ := explained id session old
    refine ⟨earlier, start, later ++ [⟨s, call⟩], by simp, starts, expires, fun e member => ?_⟩
    rcases List.mem_append.mp member with before | now
    · exact kept e before
    · rw [List.mem_singleton.mp now]
      exact alive
  · exact ⟨past, ⟨s, call⟩, [], rfl, starts, expires, fun e member =>
      absurd member List.not_mem_nil⟩

/-- Every stored session is explained by the journal. -/
theorem sessions_explained (cfg : Config) {s : Server} (none : s.state.sessions = ∅)
    (steps : List Step) (id : Uuid) (session : ActiveSession)
    (found : (runSteps cfg s steps).state.sessions.lookup id = some session) :
    Explained cfg (journal cfg s steps) id session := by
  have start : AllExplained cfg [] s := by simp [AllExplained, none]
  have all := journal_invariant cfg (I := AllExplained cfg) (fun _ _ call h => h.call call)
    (fun past t talk explained id session found =>
      explained id session (talk_sessions talk t ▸ found))
    (fun past t x explained id session found => explained id session (by simpa using found))
    start steps
  exact all id session found

end Qubox.Signaling
