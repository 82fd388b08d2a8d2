import Qubox.Signaling.Call

/-!
# Revocation under interleaving

`revoke_pairing` removes the grant under one lock and drops the sessions of the
pair under another. A session of the pair can survive it in two ways: a
`start_session` that has found the grant inserts its session later, or a kick by
a stranger puts back a session it had removed before. A call that may still do
so without finding the grant again is called armed.

If no call is armed when the sessions are dropped, and the grant does not return
while the revocation is under way, the pair has no session when the revocation
returns and none until the grant is added again.
-/

namespace Qubox.Signaling

open Interaction
open Interaction.Program (Upholds Passes)

variable {ε ε' α : Type} {h c : Uuid}

/-! ## Armed calls -/

/-- Answers given while there is neither a grant nor a session of the pair. -/
def AnsweredWithout (h c : Uuid) : (a : Action) → a.Answer → Prop
  | .isPaired h' c', paired => h' = h → c' = c → paired = false
  | .addPairing grant, _ => grant ≠ ⟨h, c⟩
  | .removeSession _, found => ∀ session, found = some session → ¬ session.IsOf h c
  | _, _ => True

/-- Every action except the insertion of a session of the pair. -/
def Spares (h c : Uuid) : Action → Prop
  | .insertSession _ session => ¬ session.IsOf h c
  | _ => True

/-- What is left of the program inserts no session of the pair, unless it finds
a grant or a session of the pair again or adds the grant itself. -/
def Unarmed (h c : Uuid) (p : Program signature ε α) : Prop :=
  p.Upholds (AnsweredWithout h c) (Spares h c) (fun _ => True)

theorem spares_of_quiet (a : Action) (quiet : a.Quiet) : Spares h c a := by
  cases a
  case insertSession => exact quiet.elim
  all_goals trivial

theorem startSession_unarmed {cfg : Config} (single : cfg.cluster = none)
    (client : PeerDescriptor) (request : StartSessionRequest) :
    Unarmed h c (startSession cfg client request) := by
  refine startSession_upholds cfg spares_of_quiet (fun _ => trivial)
    ⟨trivial, fun _ _ => trivial⟩ ?_
    fun _ _ _ => trivial
  rintro session ⟨⟨ofHost, ofClient⟩, known, -⟩ ⟨rfl, rfl⟩
  rw [← ofHost, ← ofClient, single] at known
  rcases known with stored | clustered | ⟨_, added⟩
  · exact Bool.noConfusion (stored rfl rfl)
  · exact Bool.noConfusion clustered.1
  · exact added rfl

theorem kickSession_unarmed (cfg : Config) (actor : PeerDescriptor) (sessionId : Uuid)
    (reason : String) : Unarmed h c (kickSession cfg actor sessionId reason) :=
  kickSession_upholds cfg spares_of_quiet trivial fun session removed => removed session rfl

/-- Only `start_session` and `kick_session` insert sessions at all. -/
theorem body_unarmed {cfg : Config} (single : cfg.cluster = none) (call : Call) :
    Unarmed h c (call.body cfg) := by
  cases call
  case startSession client request => exact (startSession_unarmed single client request).settle _
  case kickSession actor sessionId reason =>
    exact (kickSession_unarmed cfg actor sessionId reason).settle _
  all_goals
    refine (Call.body_may cfg _).mono (fun _ _ _ => trivial) (fun a may => ?_) fun _ _ => trivial
    cases may with
    | quiet still => exact spares_of_quiet a still
    | _ => trivial

/-! ## A clean pair stays clean -/

/-- The pair has neither a grant nor a session. -/
structure Clean (h c : Uuid) (s : Server) : Prop where
  unpaired : (⟨h, c⟩ : PairingGrant) ∉ s.state.pairings
  noSession : ∀ id session, s.state.sessions.lookup id = some session → ¬ session.IsOf h c

theorem exec_clean {s : Server} {a : Action} (clean : Clean h c s) (spares : Spares h c a)
    (other : a ≠ .addPairing ⟨h, c⟩) :
    AnsweredWithout h c a (Server.exec a s).1 ∧ Clean h c (Server.exec a s).2 := by
  refine ⟨?_, ?_, ?_⟩
  · cases a
    case isPaired h' c' =>
      rintro rfl rfl
      exact Bool.eq_false_iff.mpr (mt SignalingState.isPaired_iff.mp clean.unpaired)
    case addPairing grant => exact fun same => other (same ▸ rfl)
    case removeSession id => exact fun session found => clean.noSession id session found
    all_goals trivial
  · rw [Server.exec_pairings]
    intro member
    rcases Action.mem_onPairings member with before | rfl
    · exact clean.unpaired before
    · exact other rfl
  · rw [Server.exec_sessions]
    intro id session found
    rcases Action.lookup_onSessions found with before | rfl
    · exact clean.noSession id session before
    · exact spares

/-- No session of the pair, no grant, and no call in progress that is armed. -/
def Quiescent (h c : Uuid) (P : ServerPool) : Prop :=
  System.Holds (Clean h c) (fun t => Unarmed h c t.rest) P

theorem Quiescent.move {cfg : Config} (single : cfg.cluster = none) {P : ServerPool}
    {m : ServerMove} (quiescent : Quiescent h c P) (other : ¬ Performs P m (.addPairing ⟨h, c⟩)) :
    Quiescent h c ((system cfg).move P m) := by
  refine System.Holds.move (system cfg) quiescent (fun call _ => body_unarmed single call)
    (fun x _ => ?_) fun i call a k moved found => ?_
  · exact ⟨by simpa using quiescent.shared.unpaired, by simpa using quiescent.shared.noSession⟩
  · have unarmed := quiescent.threads _ (List.mem_of_getElem? found)
    have different : a ≠ .addPairing ⟨h, c⟩ := by
      rintro rfl
      exact other (moved ▸ Pool.next?_step found)
    obtain ⟨answered, clean⟩ := exec_clean quiescent.shared unarmed.1 different
    exact ⟨clean, unarmed.2 _ answered⟩

/-! ## Stages of a revocation -/

/-- The grant is not removed again. -/
def Removed (h c : Uuid) (p : Program signature ε α) : Prop :=
  p.Upholds (fun _ _ => True) (fun a => a ≠ Action.removePairing h c) (fun _ => True)

/-- The sessions of the pair are still to be dropped. -/
def OwesDrop (h c : Uuid) (p : Program signature ε α) : Prop :=
  Removed h c p ∧ p.Passes (fun e => e.action = Action.dropSessionsOf h c) (fun _ => True)

/-- Both the removal of the grant and the drop are still ahead. -/
def OwesRemoval (h c : Uuid) (p : Program signature ε α) : Prop :=
  p.Passes (fun e => e.action = Action.removePairing h c) (OwesDrop h c)

/-- After the removal, the store operation only writes its file. -/
theorem removePairing_passes {after : Op Bool → Prop}
    (rest : ∀ q : Op Bool, q.Upholds (fun _ _ => True) Action.Quiet (fun _ => True) → after q) :
    (removePairing h c).Passes (fun e => e.action = Action.removePairing h c) after := by
  refine Program.passes_marked (fun _ => rfl) fun (snapshot, removed) => rest _ ?_
  cases removed with
  | false => trivial
  | true =>
      refine Upholds.perform_bind trivial fun written _ => ?_
      exact (liftExcept_upholds _ _).bind fun _ _ => trivial

theorem revokePairing_owesRemoval (cfg : Config) (actor : PeerDescriptor) :
    OwesRemoval h c ((Call.revokePairing actor h c).body cfg) := by
  have quiet : ∀ a : Action, a.Quiet → a ≠ .removePairing h c := by
    rintro a still rfl
    exact still
  have unmarked : ∀ a : Action, a.Quiet → a.Answer → ¬ a = .removePairing h c :=
    fun a still _ => quiet a still
  have undropped : ∀ a : Action, a.Quiet → a.Answer → ¬ a = .dropSessionsOf h c := by
    rintro a still _ rfl
    exact still
  refine Passes.settle ?_
  refine Passes.bind (mayRevoke_upholds unmarked actor h) fun allowed _ => ?_
  refine Passes.bind (require_upholds _ _) fun _ _ => ?_
  refine Passes.bind_left (removePairing_passes fun q silent => ?_)
  refine ⟨@Upholds.settle _ _ _ _ _ _ (fun _ => True) _ _ ?_, Passes.settle ?_⟩
  · refine (silent.mono (fun _ _ h => h) quiet fun _ h => h).bind fun removed _ => ?_
    refine (require_upholds _ _).bind fun _ _ => ?_
    refine Upholds.perform_bind (by rintro ⟨⟩) fun _ _ => ?_
    refine Upholds.bind (ignore_upholds (sendTo_upholds cfg quiet (by trivial))) fun _ _ => ?_
    exact ignore_upholds (sendTo_upholds cfg quiet (by trivial))
  · refine Passes.bind (silent.mono (fun _ _ h => h) undropped fun _ h => h) fun removed _ => ?_
    refine Passes.bind (require_upholds _ _) fun _ _ => ?_
    exact Program.passes_marked (fun _ => rfl) fun _ => trivial

/-- A revocation of the pair that has removed the grant and not returned yet. -/
structure Revoking (h c : Uuid) (t : Thread signature CallError Call) : Prop where
  call : ∃ actor, t.call = .revokePairing actor h c
  inProgress : t.rest.InProgress
  removed : Removed h c t.rest

/-- What orderly moves respect: the sessions of a pair are dropped only when no
call in progress is armed for the pair, and a grant is not added while its
revocation is under way. -/
def Orderly (P : ServerPool) (m : ServerMove) : Prop :=
  ∀ h c, (Performs P m (.dropSessionsOf h c) → ∀ t ∈ P.threads, Unarmed h c t.rest) ∧
    (Performs P m (.addPairing ⟨h, c⟩) → ∀ t ∈ P.threads, ¬ Revoking h c t)

/-- How far a revocation of the pair has come, and what is known then. -/
def Stage (h c : Uuid) (P : ServerPool) (p : Program signature CallError Unit) : Prop :=
  OwesRemoval h c p ∨
    (OwesDrop h c p ∧ (⟨h, c⟩ : PairingGrant) ∉ P.shared.state.pairings) ∨
    (Removed h c p ∧ Quiescent h c P)

/-- A returned revocation has gone through all stages. -/
theorem Stage.returned {P : ServerPool} (stage : Stage h c P (.done ())) : Quiescent h c P := by
  rcases stage with ahead | ⟨⟨_, ahead⟩, _⟩ | ⟨_, quiescent⟩
  · exact ahead.elim
  · exact ahead.elim
  · exact quiescent

section Moves

variable {cfg : Config} (single : cfg.cluster = none) {P : ServerPool} {m : ServerMove}

theorem unpaired_move (absent : (⟨h, c⟩ : PairingGrant) ∉ P.shared.state.pairings)
    (other : ¬ Performs P m (.addPairing ⟨h, c⟩)) :
    (⟨h, c⟩ : PairingGrant) ∉ ((system cfg).move P m).shared.state.pairings := by
  cases m with
  | call call => exact absent
  | disturb x => simpa [System.move] using absent
  | step i =>
      rcases (system cfg).advance_cases P i with same | ⟨call, a, k, found, moved⟩
      · simpa only [System.move, same] using absent
      · have different : a ≠ .addPairing ⟨h, c⟩ := by
          rintro rfl
          exact other (Pool.next?_step found)
        simp only [System.move, moved, Server.exec_pairings]
        intro member
        rcases Action.mem_onPairings member with before | rfl
        · exact absent before
        · exact different rfl

include single

/-- A revocation that is not scheduled keeps its stage. -/
theorem Stage.other {t : Thread signature CallError Call} (member : t ∈ P.threads)
    (revokes : ∃ actor, t.call = .revokePairing actor h c) (inProgress : t.rest.InProgress)
    (orderly : Orderly P m) (stage : Stage h c P t.rest) :
    Stage h c ((system cfg).move P m) t.rest := by
  have noGrant (removed : Removed h c t.rest) : ¬ Performs P m (.addPairing ⟨h, c⟩) :=
    fun adds => (orderly h c).2 adds t member ⟨revokes, inProgress, removed⟩
  rcases stage with ahead | ⟨owes, unpaired⟩ | ⟨removed, quiescent⟩
  · exact .inl ahead
  · exact .inr (.inl ⟨owes, unpaired_move unpaired (noGrant owes.1)⟩)
  · exact .inr (.inr ⟨removed, quiescent.move single (noGrant removed)⟩)

/-- A scheduled revocation goes on to its next stage or stays in its stage. -/
theorem Stage.step {i : Nat} {call : Call} {a : Action}
    {k : a.Answer → Program signature CallError Unit}
    (found : P.threads[i]? = some ⟨call, .act a k⟩)
    (revokes : ∃ actor, call = .revokePairing actor h c)
    (orderly : Orderly P (.step i)) (stage : Stage h c P (.act a k)) :
    Stage h c ((system cfg).move P (.step i)) (k (Server.exec a P.shared).1) := by
  have performs : Performs P (.step i) a := Pool.next?_step found
  have noGrant (removed : Removed h c (.act a k : Program signature CallError Unit)) :
      ¬ Performs P (.step i) (.addPairing ⟨h, c⟩) := fun adds =>
    (orderly h c).2 adds _ (List.mem_of_getElem? found) ⟨revokes, rfl, removed⟩
  have moved := (system cfg).advance_act found
  rcases stage with ahead | ⟨⟨removed, ahead⟩, unpaired⟩ | ⟨removed, quiescent⟩
  · by_cases mark : a = .removePairing h c
    · subst mark
      refine .inr (.inl ⟨(ahead _).1 rfl, ?_⟩)
      simp only [System.move, moved, Server.exec_pairings]
      simp [Action.onPairings, Server.withoutGrant]
    · exact .inl ((ahead _).2 mark)
  · by_cases mark : a = .dropSessionsOf h c
    · subst mark
      have unarmed := (orderly h c).1 performs
      refine .inr (.inr ⟨removed.2 _ trivial, ⟨?_, ?_⟩, fun t member => ?_⟩)
      · exact unpaired_move unpaired (noGrant removed)
      · simp only [System.move, moved, Server.exec_sessions]
        intro id session kept
        simpa using (AList.lookup_retain_eq_some.mp kept).2
      · simp only [System.move, moved] at member
        rcases List.mem_or_eq_of_mem_set member with old | rfl
        · exact unarmed t old
        · exact (unarmed _ (List.mem_of_getElem? found)).2 _ trivial
    · exact .inr (.inl ⟨⟨removed.2 _ trivial, (ahead _).2 mark⟩,
        unpaired_move unpaired (noGrant removed)⟩)
  · exact .inr (.inr ⟨removed.2 _ trivial, quiescent.move single (noGrant removed)⟩)

/-- Every revocation of the pair in progress is at some stage. -/
def Staged (h c : Uuid) (P : ServerPool) : Prop :=
  ∀ t ∈ P.threads, (∃ actor, t.call = .revokePairing actor h c) → t.rest.InProgress →
    Stage h c P t.rest

theorem Staged.move (staged : Staged h c P) (orderly : Orderly P m) :
    Staged h c ((system cfg).move P m) := by
  rintro t member revokes inProgress
  cases m with
  | call call =>
      rcases List.mem_append.mp member with old | new
      · exact (staged t old revokes inProgress).other single old revokes inProgress orderly
      · obtain rfl := List.mem_singleton.mp new
        obtain ⟨actor, rfl⟩ := revokes
        exact .inl (revokePairing_owesRemoval cfg actor)
  | disturb x =>
      exact (staged t member revokes inProgress).other single member revokes inProgress orderly
  | step i =>
      rcases (system cfg).advance_cases P i with same | ⟨call, a, k, found, moved⟩
      · simp only [System.move, same] at member
        exact (staged t member revokes inProgress).other single member revokes inProgress orderly
      · simp only [System.move, moved] at member
        rcases List.mem_or_eq_of_mem_set member with old | rfl
        · exact (staged t old revokes inProgress).other single old revokes inProgress orderly
        · exact (staged _ (List.mem_of_getElem? found) revokes rfl).step single found revokes
            orderly

end Moves

/-! ## Whole schedules -/

/-- The next step of the thread makes `revoke_pairing(h, c)` return `Ok`. -/
def Returns (cfg : Config) (P : ServerPool) (i : Nat) (actor : PeerDescriptor) (h c : Uuid) :
    Prop :=
  P.threads[i]?.map Thread.status = some (.revokePairing actor h c, none) ∧
    ((system cfg).move P (.step i)).threads[i]?.map Thread.status =
      some (.revokePairing actor h c, some (.ok ()))

/-- Whenever a revocation returns and its grant is not added again, no session
of the pair is left once the calls in progress at that moment have finished. -/
def RevocationIsFinal (cfg : Config) (P : ServerPool) (moves : List ServerMove) : Prop :=
  ∀ before i after actor h c, moves = before ++ .step i :: after →
    Returns cfg ((system cfg).schedule P before) i actor h c →
    let returned := (system cfg).move ((system cfg).schedule P before) (.step i)
    let later := (system cfg).schedule returned after
    (system cfg).Along (fun P m => ¬ Performs P m (.addPairing ⟨h, c⟩)) returned after →
    (∀ t ∈ later.threads.take returned.threads.length, t.rest.outcome? ≠ none) →
    ∀ id session, later.shared.state.sessions.lookup id = some session → ¬ session.IsOf h c

theorem revocationIsFinal_of_orderly {cfg : Config} (single : cfg.cluster = none) (s : Server)
    (moves : List ServerMove) (orderly : (system cfg).Along Orderly (idle s) moves) :
    RevocationIsFinal cfg (idle s) moves := by
  rintro before i after actor h c rfl ⟨inProgress, done⟩ returned later unpaired -
  obtain ⟨first, step, -⟩ := (system cfg).along_append.mp orderly
  have staged : Staged h c ((system cfg).schedule (idle s) before) :=
    (system cfg).schedule_invariant (fun P m ok staged => Staged.move single staged ok)
      (fun t member => absurd member List.not_mem_nil) first
  obtain ⟨⟨call, p⟩, found, running⟩ := Option.map_eq_some_iff.mp inProgress
  obtain ⟨rfl, running⟩ := Prod.mk.inj running
  obtain ⟨a, k, rfl⟩ := Program.InProgress.exists_act running
  have stage := (staged _ (List.mem_of_getElem? found) ⟨actor, rfl⟩ rfl).step single found
    ⟨actor, rfl⟩ step
  have last : k (Server.exec a ((system cfg).schedule (idle s) before).shared).1 = .done () := by
    have size := (List.getElem?_eq_some_iff.mp found).1
    apply Program.eq_done_of_outcome
    simpa [System.move, (system cfg).advance_act found, size, Thread.status] using done
  have quiescent : Quiescent h c returned := (last ▸ stage).returned
  have clean : Quiescent h c later :=
    (system cfg).schedule_invariant (fun P m ok quiescent => Quiescent.move single quiescent ok)
      quiescent unpaired
  exact clean.shared.noSession

/-! Calls that neither insert a session nor add a grant are always orderly. -/

def Harmless (a : Action) : Prop := (∀ h c, Spares h c a) ∧ ∀ grant, a ≠ .addPairing grant

theorem orderly_of_harmless {cfg : Config} {P : ServerPool} {moves : List ServerMove}
    (harmless : ∀ call, .call call ∈ moves →
      (call.body cfg).Upholds (fun _ _ => True) Harmless (fun _ => True))
    (start : P.threads = []) : (system cfg).Along Orderly P moves := by
  refine System.Along.imp (system cfg) (I := fun _ => True) (fun _ _ _ _ => trivial)
    (fun P m ok _ h c => ?_) trivial ((system cfg).along_upholds harmless start)
  refine ⟨fun _ t member => ?_, fun adds => absurd rfl ((ok.2 _ adds).2 _)⟩
  exact (ok.1.2 t member).mono (fun _ _ _ => trivial) (fun a spares => spares.1 h c)
    fun _ _ => trivial

/-- So are those that only remove. -/
theorem harmless_of_may {cfg : Config} {call : Call}
    (removes : ∀ a, call.May a → a.Quiet ∨ ∀ h c, Spares h c a ∧ a ≠ .addPairing ⟨h, c⟩) :
    (call.body cfg).Upholds (fun _ _ => True) Harmless (fun _ => True) := by
  refine (Call.body_may cfg call).mono (fun _ _ _ => trivial) (fun a may => ?_) fun _ _ => trivial
  rcases removes a may with still | spares
  · refine ⟨fun _ _ => spares_of_quiet a still, ?_⟩
    rintro grant rfl
    exact still
  · exact ⟨fun h c => (spares h c).1, fun grant => (spares grant.hostPeerId grant.clientPeerId).2⟩

/-- The session of the pair that is dropped. -/
def pairSession : ActiveSession where
  hostPeerId := 1
  clientPeerId := 2
  transport := .nativeQuic
  codec := .h264
  hostCredential := ⟨"token", 60000, 7, 5, 5, 1000, 0⟩
  clientCredential := ⟨"token", 60000, 7, 5, 5, 1000, 0⟩
  expiresUnixMillis := 60000
  permissions := {}

def pairServer : Server :=
  let paired := Sample.server [⟨1, 2⟩]
  { paired with state := { paired.state with
      sessions := (∅ : AList (fun _ : Uuid => ActiveSession)).insert 7 pairSession } }

/-- The client has found the session for a signal when the host revokes the pairing, and sends
the signal after that. -/
def relayedRevocation : List ServerMove :=
  [.call (.relaySignal Sample.client ⟨7, 2, 1, .sdpOffer "v=0"⟩), .step 0, .step 0, .step 0,
    .call (.revokePairing Sample.host 1 2), .step 1, .step 1, .step 0, .step 1, .step 1, .step 1,
    .step 0, .step 0, .step 0]

/-- The session is gone when the revocation returns, and the relaying finishes later. -/
theorem relayedRevocation_final :
    ((system Sample.config).schedule (idle pairServer) (relayedRevocation.take 11)).threads.map
        (·.rest.outcome?) = [none, some (.ok ())] ∧
      ((system Sample.config).schedule (idle pairServer) (relayedRevocation.take
        11)).shared.state.sessions.lookup 7 = none ∧
      RevocationIsFinal Sample.config (idle pairServer) relayedRevocation := by
  refine ⟨by decide, by decide, revocationIsFinal_of_orderly rfl _ _ (orderly_of_harmless ?_ rfl)⟩
  intro call member
  apply harmless_of_may
  intro a may
  have known : call = .relaySignal Sample.client ⟨7, 2, 1, .sdpOffer "v=0"⟩ ∨
      call = .revokePairing Sample.host 1 2 := by
    simpa [relayedRevocation] using member
  rcases known with rfl | rfl
  all_goals
    cases may with
    | quiet still => exact .inl still
    | _ => exact .inr fun _ _ => ⟨trivial, Action.noConfusion⟩

/-! A `start_session` that has found the grant, overtaken by the revocation. -/

def lateRequest : StartSessionRequest := { sessionId := 7, targetHostId := 1 }

def lateStart : List ServerMove :=
  [.call (.startSession Sample.client lateRequest),
    .step 0, .step 0, .step 0, .step 0, .step 0, .step 0,
    .call (.revokePairing Sample.host 1 2), .step 1, .step 1, .step 1, .step 1, .step 1,
    .step 0, .step 0, .step 0]

theorem lateStart_not_final :
    ¬ RevocationIsFinal Sample.config (idle (Sample.server [⟨1, 2⟩])) lateStart := by
  intro final
  have left := final (lateStart.take 12) 1 (lateStart.drop 13) Sample.host 1 2 (by rfl)
    ⟨by decide, by decide⟩ (by decide) (by decide)
  have survives : (((system Sample.config).schedule (idle (Sample.server [⟨1, 2⟩]))
      lateStart).shared.state.sessions.lookup 7).any (fun session => session.IsOf 1 2) = true := by
    decide
  obtain ⟨session, found, ofPair⟩ := (Option.any_eq_true _ _).mp survives
  exact left 7 session found (of_decide_eq_true ofPair)

end Qubox.Signaling
