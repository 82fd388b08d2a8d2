import Qubox.Signaling.World

/-!
# Withdrawals in a cluster

A grant and a session live in two places: in the tables of an instance, and as
a key of Redis that any instance consults when its own table does not know the
pair or the session. `revoke_pairing`, `kick_session` and `apply_signed_kill`
remove the entry from the table of the instance they are called on. They never
touch Redis or another instance.

A token stands for either. If no other copy of it is left when it is withdrawn,
and no call in progress is about to make one, the withdrawal holds on every
instance until the token is renewed.
-/

namespace Qubox.Signaling

open Interaction
open Interaction.Program (Upholds Passes)

/-- The action stores a new grant or session. -/
def Action.Creates : Action → Prop
  | .addPairing _ => True
  | .insertSession _ _ => True
  | _ => False

/-- What can be withdrawn: the grant of a pair, or a session. -/
inductive Token where
  | pair (host client : Uuid)
  | session (id : Uuid)
  deriving DecidableEq

namespace Token

/-- The tables of an instance have it. -/
def Held : Token → SignalingState → Prop
  | .pair h c, state => (⟨h, c⟩ : PairingGrant) ∈ state.pairings
  | .session id, state => (state.sessions.lookup id).isSome

/-- Redis has it. -/
def Shared : Token → Redis → Prop
  | .pair h c, redis => (h, c) ∈ redis.pairs
  | .session id, redis => (redis.sessions.lookup id).isSome

/-- Nobody has it. -/
structure Absent (token : Token) (w : World) : Prop where
  tables : ∀ site, ¬ token.Held (w.state site)
  redis : ¬ token.Shared w.redis

/-- The action makes the token valid again: a grant for the pair, or a new
session under the id. -/
def Renews : Token → Call → Action → Prop
  | .pair h c, _, a => a = .addPairing ⟨h, c⟩
  | .session id, .startSession _ _, .insertSession id' _ => id' = id
  | .session _, _, _ => False

/-- Answers given while the token is absent and not renewed. -/
def Answered : Token → (a : Action) → a.Answer → Prop
  | .pair h c, .addPairing grant, _ => grant ≠ ⟨h, c⟩
  | .session id, .insertSession id' _, _ => id' ≠ id
  | .session id, .removeSession id', found => id' = id → found = none
  | _, _, _ => True

/-- The action makes no copy of the token, unless it renews it. -/
def Spares : Token → Call → Action → Prop
  | .pair h c, _, .bus (.setPair h' c') => ¬ (h' = h ∧ c' = c)
  | .session id, _, .bus (.setSession id' _) => id' ≠ id
  | .session _, .startSession _ _, .insertSession _ _ => True
  | .session id, _, .insertSession id' _ => id' ≠ id
  | _, _, _ => True

theorem not_renews (token : Token) (call : Call) {a : Action} (creates : ¬ a.Creates) :
    ¬ token.Renews call a := by
  intro renews
  cases token with
  | pair h c =>
      obtain rfl : a = .addPairing ⟨h, c⟩ := renews
      exact creates trivial
  | session id =>
      cases call
      case startSession =>
        cases a
        case insertSession => exact creates trivial
        all_goals exact renews
      all_goals exact renews

theorem spares_of_quiet (token : Token) (call : Call) (a : Action) (quiet : a.Quiet) :
    token.Spares call a := by
  cases a
  case insertSession => exact quiet.elim
  case bus command =>
    cases command
    case setPair => exact quiet.elim
    case setSession => exact quiet.elim
    all_goals cases token <;> trivial
  all_goals cases token <;> trivial

end Token

/-- The action neither renews nor copies a token. -/
def Inert (a : Action) : Prop :=
  ∀ (token : Token) (call : Call), token.Spares call a ∧ ¬ token.Renews call a

theorem inert_of_quiet (a : Action) (quiet : a.Quiet) : Inert a := by
  refine fun token call => ⟨token.spares_of_quiet call a quiet, token.not_renews call ?_⟩
  cases a
  case addPairing => exact quiet.elim
  case insertSession => exact quiet.elim
  all_goals exact id

/-! ## Absent tokens stay absent -/

section Step

variable {token : Token} {call : Call} {a : Action}

theorem not_held_onTables {s : Server} (absent : ¬ token.Held s.state)
    (spares : token.Spares call a) (other : ¬ token.Renews call a) :
    ¬ token.Held (Server.exec a s).2.state := by
  cases token with
  | pair h c =>
      simp only [Token.Held, Server.exec_pairings] at absent ⊢
      intro member
      rcases Action.mem_onPairings member with before | rfl
      · exact absent before
      · exact other rfl
  | session id =>
      simp only [Token.Held, Server.exec_sessions, Option.isSome_iff_exists] at absent ⊢
      rintro ⟨session, found⟩
      rcases Action.lookup_onSessions found with before | rfl
      · exact absent ⟨session, before⟩
      · cases call
        case startSession => exact other rfl
        all_goals exact spares rfl

theorem not_shared_onRedis {r : Redis} {up : Bool} (absent : ¬ token.Shared r)
    (spares : token.Spares call a) : ¬ token.Shared (a.onRedis up r) := by
  cases a
  case bus command =>
    rw [Action.onRedis]
    split
    · cases command
      case setPair h' c' =>
        cases token with
        | pair h c =>
            rintro member
            rcases List.mem_cons.mp member with same | before
            · exact spares ⟨(Prod.mk.inj same).1.symm, (Prod.mk.inj same).2.symm⟩
            · exact absent (List.mem_of_mem_filter before)
        | session id => exact absent
      case setSession id' session =>
        cases token with
        | pair h c => exact absent
        | session id =>
            have other : id ≠ id' := fun same => spares same.symm
            simpa [Token.Shared, Redis.exec, AList.lookup_insert_ite, other] using absent
      case publishPresence origin envelope =>
        obtain ⟨inbox, same⟩ := r.fanout_eq ⟨envelope, some origin⟩
        simp only [Redis.exec, same]
        cases token <;> exact absent
      all_goals cases token <;> exact absent
    · exact absent
  all_goals cases token <;> exact absent

theorem answered_of_absent {s : Server} (absent : ¬ token.Held s.state)
    (spares : token.Spares call a) (other : ¬ token.Renews call a) :
    token.Answered a (Server.exec a s).1 := by
  cases token with
  | pair h c =>
      cases a
      case addPairing grant => exact fun same => other (same ▸ rfl)
      all_goals trivial
  | session id =>
      cases a
      case insertSession id' session =>
        cases call
        case startSession => exact other
        all_goals exact spares
      case removeSession id' =>
        rintro rfl
        simpa [Token.Held, Server.exec] using absent
      all_goals trivial

/-- One action of a call that spares the token. -/
theorem exec_absent {w : World} {site : InstanceId} (absent : token.Absent w)
    (spares : token.Spares call a) (other : ¬ token.Renews call a) :
    token.Answered a (Server.exec a (w.server site)).1 ∧
      token.Absent (World.exec (site, a) w).2 := by
  refine ⟨answered_of_absent (absent.tables site) spares other, fun site' => ?_, ?_⟩
  · rw [World.exec_state]
    split
    · exact not_held_onTables (s := w.server site) (absent.tables site) spares other
    · exact absent.tables site'
  · rw [World.exec_redis, Server.exec_redis]
    exact not_shared_onRedis (r := w.redis) absent.redis spares

end Step

theorem WorldChange.not_shared {token : Token} {w : World} (absent : ¬ token.Shared w.redis)
    (x : WorldChange) : ¬ token.Shared (x.apply w).redis := by
  cases x with
  | expireSession id' =>
      cases token with
      | pair h c => exact absent
      | session id =>
          change ¬ ((w.redis.sessions.erase id').lookup id).isSome
          rw [AList.lookup_erase_ite]
          split
          · simp
          · exact absent
  | expirePair h' c' =>
      cases token with
      | pair h c => exact fun kept => absent (List.mem_of_mem_filter kept)
      | session id => exact absent
  | _ => cases token <;> exact absent

/-! ## Calls that spare a token -/

section Calls

variable (token : Token) (cfg : Config)

theorem decidePairing_spares (host : PeerDescriptor) (decision : PairingDecision) :
    ((Call.decidePairing host decision).body cfg).Upholds token.Answered
      (token.Spares (.decidePairing host decision)) (fun _ => True) := by
  refine (decidePairing_upholds cfg (token.spares_of_quiet _) (by cases token <;> trivial)
    fun pending _ _ _ => ⟨by cases token <;> trivial, fun stored answered => ?_⟩).settle _
  cases token with
  | pair h c =>
      rintro ⟨rfl, rfl⟩
      exact answered rfl
  | session id => trivial

theorem startSession_spares (client : PeerDescriptor) (request : StartSessionRequest) :
    ((Call.startSession client request).body cfg).Upholds token.Answered
      (token.Spares (.startSession client request)) (fun _ => True) := by
  refine (startSession_upholds cfg (token.spares_of_quiet _) (fun _ => by cases token <;> trivial)
    ⟨by cases token <;> trivial, fun stored answered => ?_⟩
    (fun _ _ => by cases token <;> trivial) fun session _ answered => ?_).settle _
  · cases token with
    | pair h c =>
        rintro ⟨rfl, rfl⟩
        exact answered rfl
    | session id => trivial
  · cases token with
    | pair h c => trivial
    | session id => exact answered

theorem kickSession_spares (actor : PeerDescriptor) (sessionId : Uuid) (reason : String) :
    ((Call.kickSession actor sessionId reason).body cfg).Upholds token.Answered
      (token.Spares (.kickSession actor sessionId reason)) (fun _ => True) := by
  refine (kickSession_upholds cfg (token.spares_of_quiet _) (by cases token <;> trivial)
    fun session answered => ?_).settle _
  cases token with
  | pair h c => trivial
  | session id =>
      intro same
      cases answered same

/-- Every call makes copies of a token only after renewing it. -/
theorem body_spares (call : Call) :
    (call.body cfg).Upholds token.Answered (token.Spares call) (fun _ => True) := by
  cases call
  case decidePairing host decision => exact decidePairing_spares token cfg host decision
  case startSession client request => exact startSession_spares token cfg client request
  case kickSession actor sessionId reason =>
    exact kickSession_spares token cfg actor sessionId reason
  all_goals
    refine (Call.body_may cfg _).mono (fun _ _ _ => trivial) (fun a may => ?_) fun _ _ => trivial
    cases may with
    | quiet still => exact token.spares_of_quiet _ a still
    | _ => cases token <;> trivial

end Calls

/-! ## Withdrawing calls -/

/-- The envelope is a kill of this session. -/
def Kills (cfg : Config) (envelope : SignedBundle) (id : Uuid) : Prop :=
  ∃ payload, cfg.payloadSignedKill envelope = .ok payload ∧ cfg.parseUuid payload.sid = some id

namespace Token

/-- The call is made to withdraw the token. -/
def Withdrawal : Token → Config → Call → Prop
  | .pair h c, _, .revokePairing _ h' c' => h' = h ∧ c' = c
  | .session id, _, .kickSession _ id' _ => id' = id
  | .session id, cfg, .applySignedKill envelope _ => Kills cfg envelope id
  | _, _, _ => False

def removal : Token → Action
  | .pair h c => .removePairing h c
  | .session id => .removeSession id

/-- The event by which the call takes the token from the tables: a kick counts
when a participant makes it, a kill even if there was nothing to take. -/
def Taken : Token → Call → Event signature → Prop
  | .pair h c, _, e => ∃ snapshot, e = ⟨.removePairing h c, (snapshot, true)⟩
  | .session id, .kickSession actor _ _, e => ∃ session, e = ⟨.removeSession id, some session⟩ ∧
      ¬ (actor.peerId ≠ session.hostPeerId ∧ actor.peerId ≠ session.clientPeerId)
  | .session id, _, e => ∃ found, e = ⟨.removeSession id, found⟩

/-- What is left makes no copy of the token and does not remove it again. -/
def Done (token : Token) (a : Action) : Prop := (∀ call, token.Spares call a) ∧ a ≠ token.removal

theorem taken_action {token : Token} {call : Call} {e : Event signature}
    (taken : token.Taken call e) : e.action = token.removal := by
  cases token with
  | pair h c =>
      obtain ⟨snapshot, rfl⟩ := taken
      rfl
  | session id =>
      cases call
      case kickSession =>
        obtain ⟨session, rfl, -⟩ := taken
        rfl
      all_goals
        obtain ⟨found, rfl⟩ := taken
        rfl

theorem done_of_quiet (token : Token) (a : Action) (quiet : a.Quiet) : token.Done a := by
  refine ⟨fun call => token.spares_of_quiet call a quiet, ?_⟩
  rintro rfl
  cases token <;> exact quiet

theorem not_taken_of_quiet (token : Token) (call : Call) (a : Action) (quiet : a.Quiet)
    (r : a.Answer) : ¬ token.Taken call ⟨a, r⟩ :=
  fun taken => (token.done_of_quiet a quiet).2 (taken_action taken)

end Token

section Withdrawing

variable (cfg : Config)

theorem revokePairing_takes (actor : PeerDescriptor) (h c : Uuid) :
    ((Call.revokePairing actor h c).body cfg).Passes
      ((Token.pair h c).Taken (.revokePairing actor h c))
      (fun rest => rest.Upholds (fun _ _ => True) (Token.pair h c).Done (fun _ => True)) := by
  have unmarked := (Token.pair h c).not_taken_of_quiet (.revokePairing actor h c)
  have quiet := (Token.pair h c).done_of_quiet
  refine Passes.settle ?_
  refine Passes.bind (mayRevoke_upholds unmarked actor h) fun allowed _ => ?_
  refine Passes.bind (require_upholds _ _) fun _ _ => ?_
  rintro ⟨snapshot, removed⟩
  refine ⟨fun taken => ?_, fun untaken => ?_⟩
  · refine @Upholds.settle _ _ _ _ _ _ (fun _ => True) _ _ ?_
    obtain rfl : removed = true := by
      obtain ⟨snapshot', same⟩ := taken
      cases same
      rfl
    have stored : (do
        liftExcept .persistFailed (← perform (.persist snapshot))
        return true : Op Bool).Upholds (fun _ _ => True) (Token.pair h c).Done (fun _ => True) :=
      Upholds.perform_bind (quiet _ (by trivial)) fun _ _ =>
        (liftExcept_upholds _ _).bind fun _ _ => trivial
    refine stored.bind fun removed _ => ?_
    refine (require_upholds _ _).bind fun _ _ => ?_
    refine Upholds.perform_bind ⟨fun _ => trivial, nofun⟩ fun _ _ => ?_
    refine Upholds.bind (ignore_upholds (sendTo_upholds cfg quiet (by trivial))) fun _ _ => ?_
    exact ignore_upholds (sendTo_upholds cfg quiet (by trivial))
  · cases removed with
    | true => exact absurd ⟨snapshot, rfl⟩ untaken
    | false => trivial

theorem kickSession_takes (actor : PeerDescriptor) (id : Uuid) (reason : String) :
    ((Call.kickSession actor id reason).body cfg).Passes
      ((Token.session id).Taken (.kickSession actor id reason))
      (fun rest => rest.Upholds (fun _ _ => True) (Token.session id).Done (fun _ => True)) := by
  have quiet := (Token.session id).done_of_quiet
  refine Passes.settle fun found => ?_
  cases found with
  | none =>
      refine ⟨fun taken => ?_, fun _ => trivial⟩
      obtain ⟨session, same, -⟩ := taken
      cases same
  | some session =>
      refine ⟨fun taken => ?_, fun untaken => ?_⟩
      · obtain ⟨session', same, participant⟩ := taken
        cases same
        exact (finishKick_upholds cfg quiet fun stranger => absurd stranger participant).settle _
      · have stranger : actor.peerId ≠ session.hostPeerId ∧ actor.peerId ≠ session.clientPeerId :=
          not_not.mp fun participant => untaken ⟨session, rfl, participant⟩
        change Passes _ _ (finishKick cfg actor id session reason)
        rw [finishKick, if_pos stranger]
        refine fun _ => ⟨fun taken => ?_, fun _ => trivial⟩
        cases Token.taken_action taken

theorem applySignedKill_takes (envelope : SignedBundle) (now : Nat) {id : Uuid}
    (kills : Kills cfg envelope id) : ((Call.applySignedKill envelope now).body cfg).Passes
      ((Token.session id).Taken (.applySignedKill envelope now))
      (fun rest => rest.Upholds (fun _ _ => True) (Token.session id).Done (fun _ => True)) := by
  have unmarked := (Token.session id).not_taken_of_quiet (.applySignedKill envelope now)
  have quiet := (Token.session id).done_of_quiet
  obtain ⟨payload, decodes, named⟩ := kills
  refine Passes.settle ?_
  refine Passes.bind (decodeBundle_upholds cfg unmarked _ _) fun payload' decoded => ?_
  cases decodes.symm.trans decoded
  refine Passes.bind (require_upholds _ _) fun _ _ => ?_
  refine Passes.bind (orFail_upholds _ _) fun sessionId parsed => ?_
  cases named.symm.trans parsed
  refine Program.passes_marked (fun found => ⟨found, rfl⟩) fun found => ?_
  refine @Upholds.settle _ _ _ _ _ _ (fun _ => True) _ _ ?_
  refine (announceKill_upholds cfg quiet payload id found).bind fun _ _ => ?_
  exact Upholds.perform_bind ⟨fun _ => by trivial, nofun⟩ fun _ _ => trivial

/-- A withdrawing call that returns has taken the token, and then spares it. -/
theorem withdrawal_takes {token : Token} {call : Call} (withdrawal : token.Withdrawal cfg call) :
    (call.body cfg).Passes (token.Taken call)
      (fun rest => rest.Upholds (fun _ _ => True) token.Done (fun _ => True)) := by
  cases token with
  | pair h c =>
      cases call
      case revokePairing actor h' c' =>
        obtain ⟨rfl, rfl⟩ := withdrawal
        exact revokePairing_takes cfg actor h' c'
      all_goals exact withdrawal.elim
  | session id =>
      cases call
      case kickSession actor id' reason =>
        obtain rfl : id' = id := withdrawal
        exact kickSession_takes cfg actor id' reason
      case applySignedKill envelope now => exact applySignedKill_takes cfg envelope now withdrawal
      all_goals exact withdrawal.elim

end Withdrawing

/-! ## Schedules -/

abbrev SiteThread := Thread (signature.sited InstanceId) CallError SiteCall

namespace Token

/-- The call makes no copy of the token without renewing it first. -/
def Unarmed (token : Token) (t : SiteThread) : Prop :=
  t.rest.Upholds (fun (a : InstanceId × Action) r => token.Answered a.2 r)
    (fun (a : InstanceId × Action) => token.Spares t.call.call a.2) (fun _ => True)

/-- The token is withdrawn everywhere, and no call in progress brings it back. -/
def Gone (token : Token) (P : WorldPool) : Prop :=
  System.Holds token.Absent (Unarmed token) P

/-- The move renews the token. -/
def RenewsIn (token : Token) (P : WorldPool) (m : WorldMove) : Prop :=
  ∃ i c a k, m = .step i ∧ P.threads[i]? = some ⟨c, .act a k⟩ ∧ token.Renews c.call a.2

/-- What is left of a withdrawing call that has taken the token. -/
def Finishing (token : Token) (p : Program (signature.sited InstanceId) CallError Unit) : Prop :=
  p.Upholds (fun _ _ => True) (fun (a : InstanceId × Action) => token.Done a.2) (fun _ => True)

/-- The call has yet to take the token, unless it fails. -/
def Owes (token : Token) (t : SiteThread) : Prop :=
  t.rest.Passes (fun (e : Event (signature.sited InstanceId)) => e.action.1 = t.call.site ∧
    token.Taken t.call.call ⟨e.action.2, e.answer⟩) (Finishing token)

/-- A withdrawing call that has taken the token and not returned yet. -/
structure Underway (cfg : InstanceId → Config) (token : Token) (t : SiteThread) : Prop where
  withdrawal : token.Withdrawal (cfg t.call.site) t.call.call
  inProgress : t.rest.InProgress
  finishing : Finishing token t.rest

/-- When a token is taken from the tables of an instance, no other instance and
no key of Redis has a copy and no call in progress is about to make one; and no
token is renewed while its withdrawal is under way. -/
structure Contained (cfg : InstanceId → Config) (P : WorldPool) (m : WorldMove) : Prop where
  alone : ∀ token i c a k, m = .step i → P.threads[i]? = some ⟨c, .act (c.site, a) k⟩ →
    token.Withdrawal (cfg c.site) c.call →
    token.Taken c.call ⟨a, (Server.exec a (P.shared.server c.site)).1⟩ →
    (∀ other, other ≠ c.site → ¬ token.Held (P.shared.state other)) ∧
      ¬ token.Shared P.shared.redis ∧ ∀ t ∈ P.threads, Unarmed token t
  unrenewed : ∀ token, RenewsIn token P m → ∀ t ∈ P.threads, ¬ Underway cfg token t

section Moves

variable {cfg : InstanceId → Config} {token : Token} {P : WorldPool} {m : WorldMove}

theorem siteBody_unarmed (cfg : InstanceId → Config) (token : Token) (c : SiteCall) :
    Unarmed token ⟨c, c.body cfg⟩ := by
  refine (Program.upholds_sited (p := c.call.body (cfg c.site))).mpr ?_
  exact body_spares token (cfg c.site) c.call

theorem siteBody_owes {c : SiteCall} (withdrawal : token.Withdrawal (cfg c.site) c.call) :
    Owes token ⟨c, c.body cfg⟩ := by
  refine Passes.sited ?_
  refine Passes.mono (withdrawal_takes (cfg c.site) withdrawal) (fun e => ?_)
    fun rest finished => ?_
  · exact ⟨fun taken => ⟨rfl, taken⟩, fun taken => taken.2⟩
  · exact Program.upholds_sited.mpr finished

theorem Gone.move (gone : Gone token P) (other : ¬ RenewsIn token P m) :
    Gone token ((cluster cfg).move P m) := by
  refine System.Holds.move (cluster cfg) gone (fun c _ => siteBody_unarmed cfg token c)
    (fun x _ => ⟨by simpa using gone.shared.tables, x.not_shared gone.shared.redis⟩)
    fun i c a k moved found => ?_
  have unarmed := gone.threads _ (List.mem_of_getElem? found)
  obtain ⟨answered, absent⟩ := exec_absent gone.shared unarmed.1
    fun renews => other ⟨i, c, a, k, moved, found, renews⟩
  exact ⟨absent, unarmed.2 _ answered⟩

/-- After a token is taken, its instance does not have it. -/
theorem not_held_of_taken {call : Call} {a : Action} {s : Server}
    (taken : token.Taken call ⟨a, (Server.exec a s).1⟩) :
    ¬ token.Held (Server.exec a s).2.state := by
  obtain rfl : a = token.removal := taken_action taken
  cases token with
  | pair h c =>
      simp only [Held, Server.exec_pairings]
      simp [removal, Action.onPairings, Server.withoutGrant]
  | session id =>
      simp only [Held, Server.exec_sessions]
      simp [removal, Action.onSessions]

theorem redis_of_taken {call : Call} {a : Action} {s : Server}
    (taken : token.Taken call ⟨a, (Server.exec a s).1⟩) :
    (Server.exec a s).2.redis = s.redis := by
  obtain rfl : a = token.removal := taken_action taken
  rw [Server.exec_redis]
  cases token <;> rfl

/-- How far a withdrawal has come, and what is known then. -/
def Stage (token : Token) (P : WorldPool) (t : SiteThread) : Prop :=
  Owes token t ∨ (Finishing token t.rest ∧ Gone token P)

theorem Finishing.unarmed {c : SiteCall} {p : Program (signature.sited InstanceId) CallError Unit}
    (finishing : Finishing token p) : Unarmed token ⟨c, p⟩ :=
  finishing.mono (fun _ _ _ => trivial) (fun _ done => done.1 c.call) fun _ _ => trivial

/-- A withdrawal that is not scheduled keeps its stage. -/
theorem Stage.other {t : SiteThread} (member : t ∈ P.threads)
    (withdrawal : token.Withdrawal (cfg t.call.site) t.call.call) (inProgress : t.rest.InProgress)
    (contained : Contained cfg P m) (stage : Stage token P t) :
    Stage token ((cluster cfg).move P m) t := by
  rcases stage with owes | ⟨finishing, gone⟩
  · exact .inl owes
  · refine .inr ⟨finishing, gone.move fun renews => ?_⟩
    exact contained.unrenewed token renews t member ⟨withdrawal, inProgress, finishing⟩

/-- A scheduled withdrawal takes its token or stays in its stage. -/
theorem Stage.step {i : Nat} {c : SiteCall} {a : InstanceId × Action}
    {k : a.2.Answer → Program (signature.sited InstanceId) CallError Unit}
    (found : P.threads[i]? = some ⟨c, .act a k⟩)
    (withdrawal : token.Withdrawal (cfg c.site) c.call)
    (contained : Contained cfg P (.step i)) (stage : Stage token P ⟨c, .act a k⟩) :
    Stage token ((cluster cfg).move P (.step i))
      ⟨c, k (Server.exec a.2 (P.shared.server a.1)).1⟩ := by
  have moved := (cluster cfg).advance_act found
  have member := List.mem_of_getElem? found
  rcases stage with owes | ⟨finishing, gone⟩
  · obtain ⟨site, a⟩ := a
    by_cases taken : site = c.site ∧
        token.Taken c.call ⟨a, (Server.exec a (P.shared.server site)).1⟩
    · have finishing := (owes _).1 taken
      obtain ⟨rfl, taken⟩ := taken
      obtain ⟨others, redis, unarmed⟩ :=
        contained.alone token i c a k rfl found withdrawal taken
      refine .inr ⟨finishing, ⟨fun site => ?_, ?_⟩, fun t later => ?_⟩
      · simp only [System.move, moved, World.exec_state]
        split
        · exact not_held_of_taken taken
        case isFalse other => exact others site other
      · simp only [System.move, moved, World.exec_redis]
        rw [redis_of_taken taken]
        exact redis
      · simp only [System.move, moved] at later
        rcases List.mem_or_eq_of_mem_set later with old | rfl
        · exact unarmed t old
        · exact finishing.unarmed
    · exact .inl ((owes _).2 taken)
  · refine .inr ⟨finishing.2 _ trivial, gone.move fun renews => ?_⟩
    exact contained.unrenewed token renews _ member ⟨withdrawal, rfl, finishing⟩

/-- Every withdrawal in progress is at some stage. -/
def Staged (cfg : InstanceId → Config) (token : Token) (P : WorldPool) : Prop :=
  ∀ t ∈ P.threads, token.Withdrawal (cfg t.call.site) t.call.call → t.rest.InProgress →
    Stage token P t

theorem Staged.move (staged : Staged cfg token P) (contained : Contained cfg P m) :
    Staged cfg token ((cluster cfg).move P m) := by
  intro t member withdrawal inProgress
  cases m with
  | call c =>
      rcases List.mem_append.mp member with old | new
      · exact (staged t old withdrawal inProgress).other old withdrawal inProgress contained
      · obtain rfl := List.mem_singleton.mp new
        exact .inl (siteBody_owes withdrawal)
  | disturb x =>
      exact (staged t member withdrawal inProgress).other member withdrawal inProgress contained
  | step i =>
      rcases (cluster cfg).advance_cases P i with same | ⟨c, a, k, found, moved⟩
      · simp only [System.move, same] at member
        exact (staged t member withdrawal inProgress).other member withdrawal inProgress contained
      · simp only [System.move, moved] at member
        rcases List.mem_or_eq_of_mem_set member with old | rfl
        · exact (staged t old withdrawal inProgress).other old withdrawal inProgress contained
        · exact (staged _ (List.mem_of_getElem? found) withdrawal rfl).step found withdrawal
            contained

end Moves

end Token

/-! ## What an absent token means -/

section Refusal

variable {cfg : Config} {s s' : Server}

theorem isPairedCluster_absent {h c : Uuid} (unpaired : (⟨h, c⟩ : PairingGrant) ∉ s.state.pairings)
    (unshared : (h, c) ∉ s.redis.pairs) :
    (machine.run (isPairedCluster cfg h c) s).1 = .ok false := by
  have read : Server.exec (.isPaired h c) s = (false, s) :=
    Prod.ext (Bool.eq_false_iff.mpr (mt SignalingState.isPaired_iff.mp unpaired)) rfl
  have notShared : s.redis.pairs.contains (h, c) = false := by simpa using unshared
  rw [isPairedCluster, run_perform_bind, read]
  cases cfg.cluster with
  | none => rfl
  | some self =>
      cases up : s.env.redisUp with
      | false =>
          have asked : Server.exec (.bus (.getPair h c)) s =
              (.error "redis connection failed", s) := by
            simp [Server.exec, up]
          change (machine.run ((Bus.command (.getPair h c)).attempt >>= _) s).1 = _
          rw [machine.run_bind, machine.run_attempt, Bus.command, run_perform_bind, asked]
          rfl
      | true =>
          have asked : Server.exec (.bus (.getPair h c)) s = (.ok false, s) := by
            simp [Server.exec, up, Redis.exec, unshared]
          change (machine.run ((Bus.command (.getPair h c)).attempt >>= _) s).1 = _
          rw [machine.run_bind, machine.run_attempt, Bus.command, run_perform_bind, asked]
          rfl

theorem findSession_absent {id : Uuid} (unknown : s.state.sessions.lookup id = none)
    (unshared : s.redis.sessions.lookup id = none) (remote : RemoteSession) :
    (machine.run (findSession cfg id) s).1 ≠ .ok remote := by
  have read : Server.exec (.getSession id) s = (none, s) := Prod.ext unknown rfl
  rw [findSession, run_perform_bind, read]
  cases cfg.cluster with
  | none =>
      intro found
      cases found
  | some self =>
      cases up : s.env.redisUp with
      | false =>
          have asked : Server.exec (.bus (.getSession id)) s =
              (.error "redis connection failed", s) := by
            simp [Server.exec, up]
          change (machine.run (Bus.command (.getSession id) >>= _) s).1 ≠ _
          rw [machine.run_bind, Bus.command, run_perform_bind, asked]
          intro found
          cases found
      | true =>
          have asked : Server.exec (.bus (.getSession id)) s = (.ok none, s) := by
            simp [Server.exec, up, Redis.exec, unshared]
          change (machine.run (Bus.command (.getSession id) >>= _) s).1 ≠ _
          rw [machine.run_bind, Bus.command, run_perform_bind, asked]
          intro found
          cases found

/-- The session that `relay_signal` acts on, with expired ones out of the way. -/
def sessionInUse (cfg : Config) (sessionId : Uuid) : Op RemoteSession := do
  pruneExpiredSessions
  findSession cfg sessionId

/-- A relayed signal has found a session and then the grant of its pair. -/
theorem relaySignal_checked {peer : PeerDescriptor} {signal : RelaySignal}
    (ok : machine.run (relaySignal cfg peer signal) s = (.ok (), s')) :
    ∃ remote s₁, machine.run (sessionInUse cfg signal.sessionId) s = (.ok remote, s₁) ∧
      (machine.run (isPairedCluster cfg remote.hostPeerId remote.clientPeerId) s₁).1 =
        .ok true := by
  obtain ⟨_, s₁, sourced, ok⟩ := machine.run_bind_ok ok
  obtain ⟨source, rfl⟩ := run_require_ok sourced
  obtain ⟨_, s₁, pruned, ok⟩ := machine.run_bind_ok ok
  obtain ⟨remote, s₂, found, ok⟩ := machine.run_bind_ok ok
  refine ⟨remote, s₂, ?_, ?_⟩
  · rw [sessionInUse, machine.run_bind, pruned]
    exact found
  · obtain ⟨now, s₃, read, ok⟩ := machine.run_bind_ok ok
    cases read
    split at ok
    · cases ok
    · obtain ⟨_, s₃, sided, ok⟩ := machine.run_bind_ok ok
      obtain ⟨-, rfl⟩ := run_require_ok sided
      obtain ⟨paired, s₃, asked, ok⟩ := machine.run_bind_ok ok
      obtain ⟨_, s₄, granted, ok⟩ := machine.run_bind_ok ok
      obtain ⟨grant, rfl⟩ := run_require_ok granted
      subst grant
      exact congrArg Prod.fst asked

/-- Looking for a session brings no token back. -/
theorem sessionInUse_absent {token : Token} (id : Uuid)
    (absent : ¬ token.Held s.state ∧ ¬ token.Shared s.redis) :
    ¬ token.Held (machine.run (sessionInUse cfg id) s).2.state ∧
      ¬ token.Shared (machine.run (sessionInUse cfg id) s).2.redis := by
  have contract : (sessionInUse cfg id).Upholds (fun _ _ => True) Inert (fun _ => True) :=
    (pruneExpiredSessions_upholds inert_of_quiet fun _ token call =>
      ⟨by cases token <;> trivial, token.not_renews call not_false⟩).bind fun _ _ =>
        findSession_upholds cfg inert_of_quiet id
  refine (machine.run_invariant (I := fun s => ¬ token.Held s.state ∧ ¬ token.Shared s.redis)
    contract (fun a t inert inv => ⟨trivial, ?_, ?_⟩) absent).1
  · exact not_held_onTables inv.1 (inert token (.heartbeat id)).1 (inert token (.heartbeat id)).2
  · rw [Server.exec_redis]
    exact not_shared_onRedis inv.2 (inert token (.heartbeat id)).1

end Refusal

/-- The instance refuses the token: the pair is not paired and no signal passes
over a session of the pair, respectively no signal passes over the session. -/
def Refuses (cfg : Config) (s : Server) : Token → Prop
  | .pair h c => (machine.run (isPairedCluster cfg h c) s).1 = .ok false ∧
      ∀ peer signal remote, (machine.run (sessionInUse cfg signal.sessionId) s).1 = .ok remote →
        remote.hostPeerId = h → remote.clientPeerId = c →
        (machine.run (relaySignal cfg peer signal) s).1 ≠ .ok ()
  | .session id => ∀ peer signal, signal.sessionId = id →
      (machine.run (relaySignal cfg peer signal) s).1 ≠ .ok ()

theorem refuses_of_absent {token : Token} {w : World} (absent : token.Absent w) (cfg : Config)
    (site : InstanceId) : Refuses cfg (w.server site) token := by
  have gone (id : Uuid) := @sessionInUse_absent cfg (w.server site) token id
    ⟨absent.tables site, absent.redis⟩
  cases token with
  | pair h c =>
      refine ⟨isPairedCluster_absent (absent.tables site) absent.redis, ?_⟩
      rintro peer signal remote inUse rfl rfl ok
      obtain ⟨remote', s₁, found, paired⟩ := relaySignal_checked (Prod.ext ok rfl)
      have unpaired := gone signal.sessionId
      rw [found] at inUse unpaired
      cases inUse
      cases (isPairedCluster_absent unpaired.1 unpaired.2).symm.trans paired
  | session id =>
      rintro peer signal rfl ok
      obtain ⟨remote, s₁, found, -⟩ := relaySignal_checked (Prod.ext ok rfl)
      obtain ⟨_, s₂, pruned, found⟩ := machine.run_bind_ok found
      have kept : s₂ = (Server.exec (.pruneSessions (w.server site).env.now) (w.server site)).2 :=
        (Prod.mk.inj pruned).2.symm
      have unknown : ¬ (Token.session signal.sessionId).Held s₂.state := by
        rw [kept]
        exact @not_held_onTables _ (.relaySignal peer signal) _ _ (absent.tables site) trivial nofun
      have unshared : ¬ (Token.session signal.sessionId).Shared s₂.redis := by
        rw [kept]
        exact absent.redis
      exact findSession_absent (Option.not_isSome_iff_eq_none.mp unknown)
        (Option.not_isSome_iff_eq_none.mp unshared) remote (congrArg Prod.fst found)

/-! ## Whole schedules -/

/-- The next step of the thread makes this call return `Ok`. -/
def CallReturns (cfg : InstanceId → Config) (P : WorldPool) (i : Nat) (c : SiteCall) : Prop :=
  P.threads[i]?.map Thread.status = some (c, none) ∧
    ((cluster cfg).move P (.step i)).threads[i]?.map Thread.status = some (c, some (.ok ()))

/-- Whenever a withdrawal has returned and its token is not renewed, every
instance refuses the token. -/
def WithdrawalsHold (cfg : InstanceId → Config) (P₀ : WorldPool) (moves : List WorldMove) : Prop :=
  ∀ before i after c token, moves = before ++ .step i :: after →
    CallReturns cfg ((cluster cfg).schedule P₀ before) i c →
    token.Withdrawal (cfg c.site) c.call →
    let returned := (cluster cfg).move ((cluster cfg).schedule P₀ before) (.step i)
    (cluster cfg).Along (fun P m => ¬ token.RenewsIn P m) returned after →
    ∀ site, Refuses (cfg site) (((cluster cfg).schedule returned after).shared.server site) token

theorem withdrawalsHold_of_contained (cfg : InstanceId → Config) (w : World)
    (moves : List WorldMove)
    (contained : (cluster cfg).Along (Token.Contained cfg) (resting w) moves) :
    WithdrawalsHold cfg (resting w) moves := by
  rintro before i after c token rfl ⟨inProgress, done⟩ withdrawal returned unrenewed site
  obtain ⟨first, step, -⟩ := (cluster cfg).along_append.mp contained
  have staged : token.Staged cfg ((cluster cfg).schedule (resting w) before) :=
    (cluster cfg).schedule_invariant (fun P m ok staged => staged.move ok)
      (fun t member => absurd member List.not_mem_nil) first
  obtain ⟨⟨c', p⟩, found, status⟩ := Option.map_eq_some_iff.mp inProgress
  obtain ⟨same, running⟩ := Prod.mk.inj status
  obtain rfl : c' = c := same
  obtain ⟨a, k, rfl⟩ := Program.InProgress.exists_act running
  have stage := (staged _ (List.mem_of_getElem? found) withdrawal rfl).step found withdrawal step
  have last :
      k (Server.exec a.2 (((cluster cfg).schedule (resting w) before).shared.server a.1)).1 =
        .done () := by
    have size := (List.getElem?_eq_some_iff.mp found).1
    apply Program.eq_done_of_outcome
    simpa [System.move, (cluster cfg).advance_act found, size, Thread.status, World.exec] using done
  have gone : token.Gone returned := by
    rw [last] at stage
    rcases stage with owes | ⟨-, gone⟩
    · exact owes.elim
    · exact gone
  have still : token.Gone ((cluster cfg).schedule returned after) :=
    (cluster cfg).schedule_invariant (fun P m other gone => gone.move other) gone unrenewed
  exact refuses_of_absent still.shared (cfg site) site

/-! Calls at one instance that create nothing are contained, as long as nothing
has been created elsewhere. -/

/-- All there is lies in the tables of one instance. -/
structure Secluded (home : InstanceId) (w : World) : Prop where
  tables : ∀ (token : Token) site, site ≠ home → ¬ token.Held (w.state site)
  redis : ∀ token : Token, ¬ token.Shared w.redis

theorem Secluded.exec {home : InstanceId} {w : World} (secluded : Secluded home w) {a : Action}
    (inert : Inert a) : Secluded home (World.exec (home, a) w).2 := by
  refine ⟨fun token site elsewhere => ?_, fun token => ?_⟩
  · rw [World.exec_state, if_neg elsewhere]
    exact secluded.tables token site elsewhere
  · rw [World.exec_redis, Server.exec_redis]
    exact not_shared_onRedis (secluded.redis token) (inert token (.heartbeat 0)).1

theorem contained_of_inert {cfg : InstanceId → Config} {home : InstanceId} {w : World}
    {moves : List WorldMove} (inert : ∀ c, .call c ∈ moves → c.site = home ∧
      (c.call.body (cfg c.site)).Upholds (fun _ _ => True) Inert (fun _ => True))
    (secluded : Secluded home w) : (cluster cfg).Along (Token.Contained cfg) (resting w) moves := by
  have bodies : ∀ c, .call c ∈ moves → ((cluster cfg).body c).Upholds (fun _ _ => True)
      (fun a : InstanceId × Action => a.1 = home ∧ Inert a.2) (fun _ => True) := by
    refine fun c member => Program.upholds_sited.mpr ?_
    obtain ⟨rfl, upholds⟩ := inert c member
    exact upholds.mono (fun _ _ _ => trivial) (fun _ still => ⟨rfl, still⟩) fun _ _ => trivial
  refine System.Along.imp (cluster cfg) (I := fun P => Secluded home P.shared)
    (fun P m ok secluded => ?_) (fun P m ok secluded => ⟨?_, ?_⟩) secluded
    ((cluster cfg).along_upholds bodies rfl)
  · cases m with
    | call c => exact secluded
    | disturb x =>
        refine ⟨?_, fun token => x.not_shared (secluded.redis token)⟩
        simpa only [System.move, WorldChange.apply_state] using secluded.tables
    | step i =>
        rcases (cluster cfg).advance_cases P i with stays | ⟨c, ⟨site, a⟩, k, found, moved⟩
        · simpa only [System.move, stays] using secluded
        · simp only [System.move, moved]
          obtain ⟨rfl, still⟩ := ok.2 _ (Pool.next?_step found)
          exact secluded.exec still
  · rintro token i c a k rfl found - -
    obtain ⟨rfl, -⟩ : c.site = home ∧ Inert a := ok.2 _ (Pool.next?_step found)
    refine ⟨secluded.tables token, secluded.redis token, fun t member => ?_⟩
    exact (ok.1.2 t member).mono (fun _ _ _ => trivial) (fun a still => (still.2 token _).1)
      fun _ _ => trivial
  · rintro token ⟨i, c, a, k, rfl, found, renews⟩
    exact absurd renews ((ok.2 _ (Pool.next?_step found)).2 token c.call).2

/-- A grant loaded from the store of the instance it is revoked on. -/
def Sample.loadedGrant : World := twoInstances fun site => if site = "a" then [⟨1, 2⟩] else []

def revokeLoaded : List WorldMove :=
  .call ⟨"a", .revokePairing Sample.host 1 2⟩ :: List.replicate 7 (.step 0)

theorem revokeLoaded_holds :
    ((cluster Sample.clustered).schedule (resting Sample.loadedGrant) revokeLoaded).threads.map
        Thread.status = [(⟨"a", .revokePairing Sample.host 1 2⟩, some (.ok ()))] ∧
      WithdrawalsHold Sample.clustered (resting Sample.loadedGrant) revokeLoaded := by
  have secluded : Secluded "a" Sample.loadedGrant := by
    refine ⟨fun token site other => ?_, fun token => ?_⟩
    · cases token with
      | pair h c =>
          simp [Token.Held, Sample.loadedGrant, Sample.twoInstances, World.fresh,
            SignalingState.fresh, other]
      | session id => exact nofun
    · cases token <;> exact nofun
  refine ⟨by decide, withdrawalsHold_of_contained _ _ _
    (contained_of_inert (fun c member => ?_) secluded)⟩
  obtain rfl : c = ⟨"a", .revokePairing Sample.host 1 2⟩ := by
    simpa [revokeLoaded] using member
  refine ⟨rfl, (Call.body_may _ _).mono (fun _ _ _ => trivial) (fun a may => ?_) fun _ _ => trivial⟩
  cases may with
  | quiet still => exact inert_of_quiet a still
  | _ => exact fun token call => ⟨by cases token <;> trivial, token.not_renews call not_false⟩

/-! A host approves a client on an instance and revokes the grant there. The key
of the pair stays in Redis. -/

def approveThenRevoke : List WorldMove :=
  .call ⟨"a", .hello 0 Sample.host⟩ :: List.replicate 6 (.step 0) ++
  .call ⟨"a", .hello 1 Sample.client⟩ :: List.replicate 5 (.step 1) ++
  .call ⟨"a", .requestPairing Sample.client ⟨9, 1, ""⟩⟩ :: List.replicate 4 (.step 2) ++
  .call ⟨"a", .decidePairing Sample.host ⟨9, true⟩⟩ :: List.replicate 5 (.step 3) ++
  .call ⟨"a", .revokePairing Sample.host 1 2⟩ :: List.replicate 5 (.step 4)

theorem approveThenRevoke_not_hold :
    ¬ WithdrawalsHold Sample.clustered (resting (Sample.twoInstances fun _ => []))
      approveThenRevoke := by
  intro hold
  have refused := hold (approveThenRevoke.take 29) 4 [] ⟨"a", .revokePairing Sample.host 1 2⟩
    (.pair 1 2) (by rfl) ⟨by decide, by decide⟩ ⟨rfl, rfl⟩ trivial "a"
  exact absurd refused.1 (by decide)

end Qubox.Signaling
