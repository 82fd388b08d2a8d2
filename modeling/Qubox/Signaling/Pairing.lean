import Qubox.Signaling.Call

/-!
# What a host approves

A pairing request is stored under an id that the client chooses, and the host
answers with nothing but that id. Every grant made by an answer belongs to the
request found under the id at that moment, which need not be the request the
host was shown: a later request under the same id replaces an earlier one.

The history of a schedule tells which requests were ever stored or received. If
no two of them share id and host while naming different clients, an approval
grants exactly the client of the prompt.
-/

namespace Qubox.Signaling

open Interaction
open Interaction.Program (Upholds Justified)

/-- Id, host and client of the pairing request that an event stores, or that it
receives from another instance. -/
def asked? : Event signature → Option (Uuid × Uuid × Uuid)
  | ⟨.insertPending p, _⟩ => some (p.requestId, p.hostPeerId, p.client.peerId)
  | ⟨.receive _, some ⟨⟨_, .pairingRequested q⟩, _⟩⟩ =>
      some (q.requestId, q.hostPeerId, q.client.peerId)
  | _ => none

/-- Some request of the history has this id, host and client. -/
def Asked (past : List (Event signature)) (request host client : Uuid) : Prop :=
  (request, host, client) ∈ past.filterMap asked?

/-- Requests of the history with the same id and host name the same client. -/
def Unambiguous (past : List (Event signature)) : Prop :=
  ∀ x ∈ past.filterMap asked?, ∀ y ∈ past.filterMap asked?,
    x.1 = y.1 → x.2.1 = y.2.1 → x.2.2 = y.2.2

instance (past : List (Event signature)) : Decidable (Unambiguous past) :=
  @List.decidableBAll _ _ (fun _ => List.decidableBAll _ (past.filterMap asked?))
    (past.filterMap asked?)

theorem Asked.intro {past : List (Event signature)} {e : Event signature} {r h c : Uuid}
    (member : e ∈ past) (same : asked? e = some (r, h, c)) : Asked past r h c :=
  List.mem_filterMap.mpr ⟨e, member, same⟩

theorem Asked.mono {past later : List (Event signature)} {r h c : Uuid} (more : past ⊆ later)
    (asked : Asked past r h c) : Asked later r h c := by
  obtain ⟨e, member, same⟩ := List.mem_filterMap.mp asked
  exact .intro (more member) same

/-! ## Why a call acts -/

/-- A message may be sent if it is no prompt, or the prompt of a known request. -/
def Supported (past : List (Event signature)) (message : ServerMessage) : Prop :=
  ∀ q, message = .pairingRequested q → Asked past q.requestId q.hostPeerId q.client.peerId

/-- Prompts are sent for known requests, and an answer grants what it found. -/
def Cause (call : Call) (past : List (Event signature)) : Action → Prop
  | .sendLocal _ m | .reply _ m | .broadcastLocal _ _ m | .broadcastAll _ m => Supported past m
  | .addPairing grant => ∀ host decision, call = .decidePairing host decision →
      ∃ p, ⟨.takePending decision.requestId, some p⟩ ∈ past ∧ p.hostPeerId = host.peerId ∧
        grant = ⟨p.hostPeerId, p.client.peerId⟩
  | _ => True

theorem Supported.mono {past later : List (Event signature)} {m : ServerMessage}
    (more : past ⊆ later) (supported : Supported past m) : Supported later m :=
  fun q prompt => (supported q prompt).mono more

theorem cause_mono (call : Call) (a : Action) (past later : List (Event signature))
    (more : past ⊆ later) (cause : Cause call past a) : Cause call later a := by
  cases a
  case sendLocal => exact Supported.mono more cause
  case reply => exact Supported.mono more cause
  case broadcastLocal => exact Supported.mono more cause
  case broadcastAll => exact Supported.mono more cause
  case addPairing grant =>
    intro host decision same
    obtain ⟨p, taken, granted⟩ := cause host decision same
    exact ⟨p, more taken, granted⟩
  all_goals trivial

theorem supported_of_plain {past : List (Event signature)} {m : ServerMessage} (plain : m.Plain) :
    Supported past m := by
  rintro q rfl
  exact plain.elim

theorem cause_of_quiet (call : Call) (past : List (Event signature)) (a : Action)
    (quiet : a.Quiet) : Cause call past a := by
  cases a
  case sendLocal => exact supported_of_plain quiet
  case reply => exact supported_of_plain quiet
  case broadcastLocal => exact quiet.elim
  case broadcastAll => exact quiet.elim
  case addPairing => exact quiet.elim
  all_goals trivial

/-- The contract of a program that needs no reason beyond a given past. -/
theorem justified_after {ε α : Type} {call : Call} {past : List (Event signature)}
    {p : Program signature ε α} {Q : α → Prop}
    (h : p.Upholds (fun _ _ => True) (Cause call past) Q) :
    p.Justified (Cause call) (fun later a => past ⊆ later ∧ Q a) past :=
  h.justified fun later a more cause => cause_mono call a past later more cause

theorem requestPairing_justified (cfg : Config) (client : PeerDescriptor)
    (request : PairingRequest) :
    ((Call.requestPairing client request).body cfg).Justified
      (Cause (.requestPairing client request)) (fun _ _ => True) [] := by
  have known {past : List (Event signature)} :
      (peerTenantAccount client.peerId).Upholds (fun _ _ => True)
        (Cause (.requestPairing client request) past) (fun _ => True) :=
    ⟨trivial, fun _ _ => trivial⟩
  refine Justified.settle ((justified_after known).bind fun past found _ => ?_)
  refine (justified_after (orFail_upholds _ _)).bind fun past self _ => ?_
  refine (justified_after (resolveHost_upholds cfg (cause_of_quiet _ _) _ _)).bind
    fun past _ _ => ?_
  refine ⟨trivial, fun stored => (justified_after (sendTo_upholds_of cfg ?_ trivial
    fun _ => trivial)).forget⟩
  rintro q ⟨⟩
  exact .intro (List.mem_append_right _ (List.mem_singleton.mpr rfl)) rfl

theorem decidePairing_justified (cfg : Config) (host : PeerDescriptor)
    (decision : PairingDecision) :
    ((Call.decidePairing host decision).body cfg).Justified
      (Cause (.decidePairing host decision)) (fun _ _ => True) [] := by
  refine Justified.settle ⟨trivial, fun found => ?_⟩
  refine (justified_after (orFail_upholds _ found)).bind fun past pending known => ?_
  refine (justified_after (judgePairing_upholds cfg (cause_of_quiet _ _) fun same _ => ?_)).forget
  refine ⟨?_, fun _ _ => trivial⟩
  rintro _ _ ⟨⟩
  have taken : (⟨.takePending decision.requestId, some pending⟩ : Event signature) ∈ past :=
    known.1 (known.2 ▸ List.mem_append_right _ (List.mem_singleton.mpr rfl))
  exact ⟨pending, taken, same, rfl⟩

theorem clusterListener_justified (cfg : Config) (self : InstanceId) :
    ((Call.clusterListener self).body cfg).Justified (Cause (.clusterListener self))
      (fun _ _ => True) [] := by
  refine Justified.settle ⟨trivial, fun next => ?_⟩
  cases next with
  | none => trivial
  | some next =>
      obtain ⟨⟨peerId, message⟩, origin⟩ := next
      have received : Supported [⟨.receive self, some ⟨⟨peerId, message⟩, origin⟩⟩] message := by
        rintro q rfl
        exact .intro (List.mem_singleton.mpr rfl) rfl
      change Justified _ _ _ (if peerId.isNil then _ else _)
      split
      · exact ⟨received, fun _ => trivial⟩
      · exact ⟨received, fun _ => trivial⟩

theorem body_justified (cfg : Config) (call : Call) :
    (call.body cfg).Justified (Cause call) (fun _ _ => True) [] := by
  cases call
  case requestPairing client request => exact requestPairing_justified cfg client request
  case decidePairing host decision => exact decidePairing_justified cfg host decision
  case clusterListener self => exact clusterListener_justified cfg self
  all_goals
    refine (justified_after ((Call.body_may cfg _).mono (fun _ _ _ => trivial)
      (fun a may => ?_) fun _ result => result)).forget
    cases may with
    | quiet still => exact cause_of_quiet _ _ _ still
    | announce => exact nofun
    | _ => first | trivial | exact nofun

/-! ## Tables and channels against the history -/

/-- What the history knows about the tables and channels, and about the calls
in progress. -/
structure Recorded (past : List (Event signature)) (P : ServerPool) : Prop where
  pending : ∀ r p, P.shared.state.pendingPairings.lookup r = some p →
    p.requestId = r ∧ Asked past p.requestId p.hostPeerId p.client.peerId
  taken : ∀ r p, ⟨.takePending r, some p⟩ ∈ past →
    p.requestId = r ∧ Asked past p.requestId p.hostPeerId p.client.peerId
  prompts : ∀ conn m, (conn, m) ∈ P.shared.state.outbound → Supported past m
  calls : ∀ t ∈ P.threads, t.rest.Justified (Cause t.call) (fun _ _ => True) past

section Step

variable {past : List (Event signature)} {s : Server} {a : Action}

/-- The pending table only holds requests of the history. -/
theorem pending_recorded
    (old : ∀ r p, s.state.pendingPairings.lookup r = some p →
      p.requestId = r ∧ Asked past p.requestId p.hostPeerId p.client.peerId)
    (r : Uuid) (p : PendingPairing)
    (found : (Server.exec a s).2.state.pendingPairings.lookup r = some p) :
    p.requestId = r ∧ Asked (past ++ [⟨a, (Server.exec a s).1⟩])
      p.requestId p.hostPeerId p.client.peerId := by
  rw [Server.exec_pending] at found
  rcases Action.lookup_onPending found with before | ⟨rfl, same⟩
  · exact And.imp_right (Asked.mono (List.subset_append_left _ _)) (old r p before)
  · exact ⟨same, .intro (List.mem_append_right _ (List.mem_singleton.mpr rfl)) rfl⟩

/-- Whatever is put on a channel is supported when its action has a cause. -/
theorem supported_of_sends {call : Call} (cause : Cause call past a) {conn : ConnId}
    {m : ServerMessage} (sent : (conn, m) ∈ s.sends a) : Supported past m := by
  cases a
  case sendLocal peerId m' =>
    obtain ⟨p, -, same⟩ := List.mem_map.mp sent
    cases same
    exact cause
  case broadcastLocal subject tenant m' =>
    obtain ⟨p, -, same⟩ := List.mem_map.mp sent
    cases same
    exact cause
  case broadcastAll origin m' =>
    obtain ⟨p, -, same⟩ := List.mem_map.mp sent
    cases same
    exact cause
  case reply c m' =>
    cases List.mem_singleton.mp sent
    exact cause
  all_goals cases sent

end Step

theorem Recorded.move (cfg : Config) {past : List (Event signature)} {P : ServerPool}
    (recorded : Recorded past P) (m : ServerMove) :
    Recorded (past ++ (system cfg).performed P m) ((system cfg).move P m) := by
  have calls := (system cfg).justified_move Cause cause_mono (body_justified cfg) m recorded.calls
  have unchanged (same : ((system cfg).move P m).shared.state = P.shared.state)
      (silent : (system cfg).performed P m = []) :
      Recorded (past ++ (system cfg).performed P m) ((system cfg).move P m) := by
    rw [silent, List.append_nil] at calls ⊢
    exact ⟨same ▸ recorded.pending, recorded.taken, same ▸ recorded.prompts, calls⟩
  cases m with
  | call call => exact unchanged rfl rfl
  | disturb x => exact unchanged (Disturbance.apply_state x _) rfl
  | step i =>
      rcases (system cfg).step_cases P i with ⟨same, nothing⟩ | ⟨call, a, k, found⟩
      · exact unchanged (by rw [System.move, same]) nothing
      · have cause := (recorded.calls _ (List.mem_of_getElem? found)).1
        have happened := (system cfg).performed_act (ξ := Disturbance) found
        have moved : ((system cfg).move P (.step i)).shared = (Server.exec a P.shared).2 := by
          simp only [System.move, (system cfg).advance_act found]
        rw [happened] at calls ⊢
        refine ⟨?_, ?_, ?_, calls⟩
        · rw [moved]
          exact pending_recorded recorded.pending
        · intro r p member
          rcases List.mem_append.mp member with old | new
          · exact And.imp_right (Asked.mono (List.subset_append_left _ _))
              (recorded.taken r p old)
          · obtain ⟨rfl, answer⟩ := Event.mk.inj (List.mem_singleton.mp new)
            exact And.imp_right (Asked.mono (List.subset_append_left _ _))
              (recorded.pending r p (eq_of_heq answer).symm)
        · rw [moved, Server.exec_outbound]
          intro conn m member
          rcases List.mem_append.mp member with old | new
          · exact (recorded.prompts conn m old).mono (List.subset_append_left _ _)
          · exact (supported_of_sends cause (List.mem_of_mem_filter new)).mono
              (List.subset_append_left _ _)

/-! ## Whole schedules -/

/-- Whenever an answer of a host is about to add a grant, the grant is for the
client of every prompt the host was sent under the id of the answer. -/
def BindsPrompts (cfg : Config) (P₀ : ServerPool) (moves : List ServerMove) : Prop :=
  ∀ before i after host decision grant conn prompt, moves = before ++ .step i :: after →
    let P := (system cfg).schedule P₀ before
    P.threads[i]?.map Thread.call = some (.decidePairing host decision) →
    Performs P (.step i) (.addPairing grant) →
    (conn, .pairingRequested prompt) ∈ P.shared.state.outbound →
    prompt.requestId = decision.requestId → prompt.hostPeerId = host.peerId →
    grant = ⟨host.peerId, prompt.client.peerId⟩

theorem bindsPrompts_of_unambiguous (cfg : Config) {s : Server} (moves : List ServerMove)
    (noRequests : s.state.pendingPairings = ∅) (noMessages : s.state.outbound = [])
    (unambiguous : Unambiguous ((system cfg).trace (idle s) moves)) :
    BindsPrompts cfg (idle s) moves := by
  rintro before i after host decision grant conn prompt rfl P answers adds sent sameId sameHost
  have start : Recorded [] (idle s) := by
    refine ⟨?_, fun _ _ member => absurd member List.not_mem_nil, ?_,
      fun _ member => absurd member List.not_mem_nil⟩
    · simp [idle, noRequests]
    · simp [idle, noMessages]
  have recorded : Recorded ((system cfg).trace (idle s) before) P :=
    (system cfg).trace_invariant (fun past P m recorded => recorded.move cfg m) start before
  -- the answer grants the client of the request it has taken
  obtain ⟨⟨call, rest⟩, found, rfl⟩ := Option.map_eq_some_iff.mp answers
  obtain ⟨a, k, rfl⟩ : ∃ a k, rest = .act a k := by
    cases rest with
    | done u | fail e => simp [Performs, Pool.next?, found] at adds
    | act a k => exact ⟨a, k, rfl⟩
  obtain rfl : a = .addPairing grant :=
    Option.some.inj ((Pool.next?_step (ξ := Disturbance) found).symm.trans adds)
  obtain ⟨p, taken, ofHost, rfl⟩ :=
    (recorded.calls _ (List.mem_of_getElem? found)).1 host decision rfl
  -- both the taken request and the prompt are requests of the history
  obtain ⟨id, stored⟩ := recorded.taken _ p taken
  have shown : Asked ((system cfg).trace (idle s) before) prompt.requestId prompt.hostPeerId
      prompt.client.peerId := recorded.prompts conn _ sent prompt rfl
  have earlier : (system cfg).trace (idle s) before ⊆
      (system cfg).trace (idle s) (before ++ .step i :: after) := by
    rw [(system cfg).trace_append]
    exact List.subset_append_left _ _
  have same := unambiguous _ (stored.mono earlier) _ (shown.mono earlier)
    (id.trans sameId.symm) (ofHost.trans sameHost.symm)
  rw [ofHost, PairingGrant.mk.injEq]
  exact ⟨rfl, same⟩

/-! Two clients, one id. -/

def otherClient : PeerDescriptor := Sample.peer 3 .client

/-- Everybody says hello, and the clients ask for the host under the given ids. -/
def askBoth (first second : Uuid) : List ServerMove :=
  [.call (.hello 0 Sample.host), .step 0, .step 0, .step 0,
    .call (.hello 1 Sample.client), .step 1, .step 1, .step 1,
    .call (.hello 2 otherClient), .step 2, .step 2, .step 2,
    .call (.requestPairing Sample.client ⟨first, 1, ""⟩), .step 3, .step 3, .step 3, .step 3,
    .call (.requestPairing otherClient ⟨second, 1, ""⟩), .step 4, .step 4, .step 4, .step 4]

/-- The host then approves the id of the first prompt it was shown. -/
def approveFirst (first second : Uuid) : List ServerMove :=
  askBoth first second ++
    [.call (.decidePairing Sample.host ⟨first, true⟩), .step 5, .step 5, .step 5, .step 5]

theorem approveFirst_sharedId_not_bound :
    ¬ BindsPrompts Sample.config (idle (Sample.fresh [])) (approveFirst 9 9) := by
  intro binds
  have bound := binds ((approveFirst 9 9).take 24) 5 ((approveFirst 9 9).drop 25) Sample.host
    ⟨9, true⟩ ⟨1, 3⟩ 0 ⟨9, 1, Sample.client, ""⟩ (by rfl) (by decide) (by decide)
    (by decide) rfl rfl
  exact absurd bound (by decide)

/-- With ids of their own, the approval adds the grant of the first client. -/
theorem approveFirst_ownIds_bound :
    ((system Sample.config).schedule (idle (Sample.fresh []))
        (approveFirst 8 9)).shared.state.pairings = [⟨1, 2⟩] ∧
      BindsPrompts Sample.config (idle (Sample.fresh [])) (approveFirst 8 9) :=
  ⟨by decide,
    bindsPrompts_of_unambiguous Sample.config (approveFirst 8 9) rfl rfl (by decide)⟩

end Qubox.Signaling
