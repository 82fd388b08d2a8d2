import Qubox.Signaling.Call

/-!
# Grants and tenants

A grant is added by `decide_pairing`, by the policy branch of `start_session`
and by `redeem_share_link`. The first two rest on a comparison of the tenants of
both peers, made when the pairing was requested or the session started; the
third compares nothing.

What a call has read is only as good as the registrations it was read from.
`Steady` asks two things of a move: a redeemed link belongs to a host in the
tenant of the redeeming client, and a registration does not change as long as a
pending request or a call in progress rests on it. Under steady moves every
grant is added while both peers are registered under one tenant.
-/

namespace Qubox.Signaling

open Interaction
open Interaction.Program (Upholds Justified)

/-- The tenants under which an id is registered: with this instance, and in the
registry of the cluster. -/
structure Tenancy where
  here : Option Uuid
  elsewhere : Option Uuid
  deriving DecidableEq

def tenancy (cfg : Config) (s : Server) (id : Uuid) : Tenancy where
  here := s.state.tenant? id
  elsewhere :=
    if cfg.cluster.isSome then (s.redis.peers.lookup id).map RemotePeer.tenantId else none

/-- The tenant of a registered peer; the own table goes before the registry. -/
def Tenancy.tenant? (t : Tenancy) : Option Uuid := t.here.or t.elsewhere

/-- Both ids are registered, and under the same tenant. -/
def SameTenant (T : Uuid → Tenancy) (h c : Uuid) : Prop :=
  (T h).tenant?.isSome ∧ (T h).tenant? = (T c).tenant?

instance (T : Uuid → Tenancy) (h c : Uuid) : Decidable (SameTenant T h c) :=
  inferInstanceAs (Decidable (_ ∧ _))

theorem SameTenant.intro {T : Uuid → Tenancy} {h c t : Uuid} (ofHost : (T h).tenant? = some t)
    (ofClient : (T c).tenant? = some t) : SameTenant T h c :=
  ⟨by simp [ofHost], ofHost.trans ofClient.symm⟩

theorem SameTenant.congr {T T' : Uuid → Tenancy} {h c : Uuid} (same : SameTenant T h c)
    (ofHost : T' h = T h) (ofClient : T' c = T c) : SameTenant T' h c := by
  unfold SameTenant
  rwa [ofHost, ofClient]

/-! ## What a call has read -/

/-- What the event has read is still the case. -/
def Fresh (cfg : Config) (call : Call) (T : Uuid → Tenancy) : Event signature → Prop
  | ⟨.getPeer id, found⟩ => (T id).here = found.map ConnectedPeer.tenantId
  | ⟨.bus (.getPeer id), .ok found⟩ =>
      cfg.cluster.isSome → (T id).elsewhere = found.map RemotePeer.tenantId
  | ⟨.takePending _, some p⟩ => SameTenant T p.hostPeerId p.client.peerId
  | ⟨.findShareLink _, .found entry⟩ => ∀ client code label,
      call = .redeemShareLink client code label → SameTenant T entry.hostPeerId client.peerId
  | _ => True

/-- The event has read something about this id. -/
def About (call : Call) (id : Uuid) : Event signature → Prop
  | ⟨.getPeer id', _⟩ => id' = id
  | ⟨.bus (.getPeer id'), _⟩ => id' = id
  | ⟨.takePending _, some p⟩ => p.hostPeerId = id ∨ p.client.peerId = id
  | ⟨.findShareLink _, .found entry⟩ => entry.hostPeerId = id ∨
      ∃ client code label, call = .redeemShareLink client code label ∧ client.peerId = id
  | _ => False

/-- An event stays fresh while the ids it is about keep their registration. -/
theorem Fresh.congr {cfg : Config} {call : Call} {T T' : Uuid → Tenancy} {e : Event signature}
    (fresh : Fresh cfg call T e) (same : ∀ id, About call id e → T' id = T id) :
    Fresh cfg call T' e := by
  unfold Fresh at fresh ⊢
  unfold About at same
  split
  · rw [same _ rfl]
    exact fresh
  · rw [same _ rfl]
    exact fresh
  · exact fresh.congr (same _ (.inl rfl)) (same _ (.inr rfl))
  · intro client code label redeems
    exact (fresh client code label redeems).congr (same _ (.inl rfl))
      (same _ (.inr ⟨client, code, label, redeems, rfl⟩))
  · trivial

/-- What the call has read vouches for the tenants of a pair. -/
inductive Vouched (cfg : Config) (call : Call) (past : List (Event signature)) :
    Uuid → Uuid → Prop
  | here {h c : Uuid} {self host : ConnectedPeer} (client : ⟨.getPeer c, some self⟩ ∈ past)
      (found : ⟨.getPeer h, some host⟩ ∈ past) (same : host.tenantId = self.tenantId) :
      Vouched cfg call past h c
  | elsewhere {h c : Uuid} {self : ConnectedPeer} {remote : RemotePeer}
      (client : ⟨.getPeer c, some self⟩ ∈ past) (absent : ⟨.getPeer h, none⟩ ∈ past)
      (clustered : cfg.cluster.isSome) (found : ⟨.bus (.getPeer h), .ok (some remote)⟩ ∈ past)
      (same : remote.tenantId = self.tenantId) : Vouched cfg call past h c
  | request {r : Uuid} {p : PendingPairing} (taken : ⟨.takePending r, some p⟩ ∈ past) :
      Vouched cfg call past p.hostPeerId p.client.peerId
  | link {client : PeerDescriptor} {code label : String} {entry : ShareLinkEntry}
      (redeems : call = .redeemShareLink client code label)
      (found : ⟨.findShareLink code, .found entry⟩ ∈ past) :
      Vouched cfg call past entry.hostPeerId client.peerId

section Vouched

variable {cfg : Config} {call : Call} {past later : List (Event signature)} {h c : Uuid}

theorem Vouched.mono (more : past ⊆ later) (vouched : Vouched cfg call past h c) :
    Vouched cfg call later h c := by
  cases vouched with
  | here client found same => exact .here (more client) (more found) same
  | elsewhere client absent clustered found same =>
      exact .elsewhere (more client) (more absent) clustered (more found) same
  | request taken => exact .request (more taken)
  | link redeems found => exact .link redeems (more found)

theorem Vouched.sameTenant {T : Uuid → Tenancy} (vouched : Vouched cfg call past h c)
    (fresh : ∀ e ∈ past, Fresh cfg call T e) : SameTenant T h c := by
  cases vouched with
  | @here _ _ self host client found same =>
      have ofClient : (T c).here = some self.tenantId := fresh _ client
      have ofHost : (T h).here = some host.tenantId := fresh _ found
      refine .intro (t := self.tenantId) ?_ ?_
      · simp [Tenancy.tenant?, ofHost, same]
      · simp [Tenancy.tenant?, ofClient]
  | @elsewhere _ _ self remote client absent clustered found same =>
      have ofClient : (T c).here = some self.tenantId := fresh _ client
      have notHere : (T h).here = none := fresh _ absent
      have ofHost : (T h).elsewhere = some remote.tenantId := fresh _ found clustered
      refine .intro (t := self.tenantId) ?_ ?_
      · simp [Tenancy.tenant?, notHere, ofHost, same]
      · simp [Tenancy.tenant?, ofClient]
  | request taken => exact fresh _ taken
  | link redeems found => exact fresh _ found _ _ _ redeems

end Vouched

/-- Requests and grants are stored for pairs that were vouched for. -/
def Reason (cfg : Config) (call : Call) (past : List (Event signature)) : Action → Prop
  | .insertPending p => Vouched cfg call past p.hostPeerId p.client.peerId
  | .addPairing grant => Vouched cfg call past grant.hostPeerId grant.clientPeerId
  | _ => True

theorem reason_mono {cfg : Config} {call : Call} (a : Action) (past later : List (Event signature))
    (more : past ⊆ later) (reason : Reason cfg call past a) : Reason cfg call later a := by
  cases a
  case insertPending p => exact reason.mono more
  case addPairing grant => exact reason.mono more
  all_goals trivial

theorem reason_of_quiet {cfg : Config} {call : Call} {past : List (Event signature)} (a : Action)
    (quiet : a.Quiet) : Reason cfg call past a := by
  cases a
  case insertPending => exact quiet.elim
  case addPairing => exact quiet.elim
  all_goals trivial

section Bodies

variable (cfg : Config) {call : Call} {past : List (Event signature)}

/-- The contract of a program that needs no reason beyond a given past. -/
theorem reasoned_after {ε α : Type} {p : Program signature ε α} {Q : α → Prop}
    (h : p.Upholds (fun _ _ => True) (Reason cfg call past) Q) :
    p.Justified (Reason cfg call) (fun later a => past ⊆ later ∧ Q a) past :=
  h.justified fun later a more reason => reason_mono a past later more reason

/-- Once the client has been looked up, resolving the host vouches for both. -/
theorem resolveHost_vouches {c h : Uuid} {self : ConnectedPeer}
    (client : ⟨.getPeer c, some self⟩ ∈ past) :
    (resolveHost cfg self.tenantId h).Justified (Reason cfg call)
      (fun later _ => Vouched cfg call later h c) past := by
  refine ⟨trivial, fun found => ?_⟩
  have read : (⟨.getPeer h, found⟩ : Event signature) ∈ past ++ [⟨.getPeer h, found⟩] :=
    List.mem_append_right _ (List.mem_singleton.mpr rfl)
  have known := List.mem_append_left [(⟨.getPeer h, found⟩ : Event signature)] client
  cases found with
  | some host =>
      refine (reasoned_after cfg (require_upholds _ _)).bind fun later _ role => ?_
      refine (reasoned_after cfg (require_upholds _ _)).bind fun last _ same => ?_
      have more := List.Subset.trans role.1 same.1
      exact .here (more known) (more read) (by simpa using same.2)
  | none =>
      cases clustered : cfg.cluster with
      | none => trivial
      | some self' =>
          have isSome : cfg.cluster.isSome := by simp [clustered]
          refine ⟨trivial, fun answer => ?_⟩
          cases answer with
          | error e => trivial
          | ok found' =>
              have asked : (⟨.bus (.getPeer h), .ok found'⟩ : Event signature) ∈
                  (past ++ [⟨.getPeer h, none⟩]) ++ [⟨.bus (.getPeer h), .ok found'⟩] :=
                List.mem_append_right _ (List.mem_singleton.mpr rfl)
              refine (reasoned_after cfg (orFail_upholds _ _)).bind fun later remote got => ?_
              obtain ⟨got, rfl⟩ := got
              refine (reasoned_after cfg (require_upholds _ _)).bind fun next _ role => ?_
              refine (reasoned_after cfg (require_upholds _ _)).bind fun last _ same => ?_
              have more := List.Subset.trans (List.Subset.trans got role.1) same.1
              exact .elsewhere (more (List.mem_append_left _ known))
                (more (List.mem_append_left _ read)) isSome (more asked)
                (by simpa using same.2)

theorem requestPairing_reasoned (client : PeerDescriptor) (request : PairingRequest) :
    ((Call.requestPairing client request).body cfg).Justified
      (Reason cfg (.requestPairing client request)) (fun _ _ => True) [] := by
  refine Justified.settle ⟨trivial, fun found => ?_⟩
  refine (reasoned_after cfg (orFail_upholds _ _)).bind fun past self known => ?_
  obtain ⟨entry, rfl, same⟩ := Option.map_eq_some_iff.mp known.2
  have looked : (⟨.getPeer client.peerId, some entry⟩ : Event signature) ∈ past :=
    known.1 (List.mem_singleton.mpr rfl)
  cases same
  refine (resolveHost_vouches cfg looked).bind fun past _ vouched => ?_
  refine ⟨vouched, fun _ => ?_⟩
  exact (reasoned_after cfg (sendTo_upholds_of cfg trivial trivial fun _ => trivial)).forget

theorem decidePairing_reasoned (host : PeerDescriptor) (decision : PairingDecision) :
    ((Call.decidePairing host decision).body cfg).Justified
      (Reason cfg (.decidePairing host decision)) (fun _ _ => True) [] := by
  refine Justified.settle ⟨trivial, fun found => ?_⟩
  refine (reasoned_after cfg (orFail_upholds _ found)).bind fun past pending known => ?_
  have taken : (⟨.takePending decision.requestId, some pending⟩ : Event signature) ∈ past :=
    known.1 (known.2 ▸ List.mem_append_right _ (List.mem_singleton.mpr rfl))
  exact (reasoned_after cfg (judgePairing_upholds cfg reason_of_quiet fun _ _ =>
    ⟨.request taken, fun _ _ => trivial⟩)).forget

theorem redeemShareLink_reasoned (client : PeerDescriptor) (code label : String) :
    ((Call.redeemShareLink client code label).body cfg).Justified
      (Reason cfg (.redeemShareLink client code label)) (fun _ _ => True) [] := by
  refine Justified.settle ⟨trivial, fun found => ?_⟩
  cases found with
  | unknown | expired => trivial
  | found entry =>
      have vouched : Reason cfg (.redeemShareLink client code label)
          [⟨.findShareLink code, .found entry⟩] (.addPairing ⟨entry.hostPeerId, client.peerId⟩) :=
        Vouched.link rfl (List.mem_singleton.mpr rfl)
      refine Justified.forget (reasoned_after cfg (Q := fun _ => True) ?_)
      refine Upholds.bind (p := addPairing _) (addPairing_upholds reason_of_quiet vouched)
        fun _ _ => ?_
      refine Upholds.bind (ignore_upholds (sendTo_upholds cfg reason_of_quiet (by trivial)))
        fun _ _ => ?_
      exact sendTo_upholds cfg reason_of_quiet trivial

theorem planSession_reasoned (client : PeerDescriptor) (request : StartSessionRequest) :
    (planSession cfg client request).Justified (Reason cfg (.startSession client request))
      (fun _ _ => True) [] := by
  have quiet {past : List (Event signature)} : ∀ a : Action, a.Quiet →
      Reason cfg (.startSession client request) past a := reason_of_quiet
  refine (reasoned_after cfg (pruneExpiredSessions_upholds quiet fun _ => trivial)).bind
    fun past _ _ => ?_
  refine ⟨trivial, fun found => ?_⟩
  refine (reasoned_after cfg (orFail_upholds _ _)).bind fun past self known => ?_
  have looked : (⟨.getPeer client.peerId, some self⟩ : Event signature) ∈ past :=
    known.1 (known.2 ▸ List.mem_append_right _ (List.mem_singleton.mpr rfl))
  refine (resolveHost_vouches cfg looked).bind fun past (host, hostKey) vouched => ?_
  refine Justified.forget (reasoned_after cfg (Q := fun _ => True) ?_)
  refine (peerAccountId_upholds quiet _).bind fun _ _ => ?_
  refine (authorizeSession_upholds cfg quiet _ _ _).bind fun (permissions, policyAutoPair) _ => ?_
  refine (ensurePaired_upholds cfg quiet ⟨vouched, fun _ _ => trivial⟩).bind fun _ _ => ?_
  exact Upholds.forget (prepareSession_upholds cfg quiet)

theorem startSession_reasoned (client : PeerDescriptor) (request : StartSessionRequest) :
    ((Call.startSession client request).body cfg).Justified
      (Reason cfg (.startSession client request)) (fun _ _ => True) [] := by
  refine Justified.settle ((planSession_reasoned cfg client request).bind
    fun past (session, plan) _ => ?_)
  refine ⟨trivial, fun _ => ?_⟩
  refine Justified.forget (reasoned_after cfg (Q := fun _ => True) ?_)
  exact (announceSession_upholds cfg trivial).bind fun _ _ => trivial

theorem body_reasoned (call : Call) :
    (call.body cfg).Justified (Reason cfg call) (fun _ _ => True) [] := by
  cases call
  case requestPairing client request => exact requestPairing_reasoned cfg client request
  case decidePairing host decision => exact decidePairing_reasoned cfg host decision
  case redeemShareLink client code label => exact redeemShareLink_reasoned cfg client code label
  case startSession client request => exact startSession_reasoned cfg client request
  all_goals
    refine (reasoned_after cfg ((Call.body_may cfg _).mono (fun _ _ _ => trivial)
      (fun a may => ?_) fun _ result => result)).forget
    cases may with
    | quiet still => exact reason_of_quiet a still
    | _ => trivial

end Bodies

/-! ## Registrations that change -/

/-- Every action except those that register or forget a peer. -/
def KeepsTenancy : Action → Prop
  | .insertPeer _ | .removePeer _ | .bus (.setPeer _ _) | .bus (.delPeer _) => False
  | _ => True

theorem exec_registry {a : Action} (keeps : KeepsTenancy a) (s : Server) :
    (Server.exec a s).2.redis.peers = s.redis.peers := by
  rw [Server.exec_redis]
  cases a
  case bus command =>
    rw [Action.onRedis]
    split
    · cases command
      case setPeer => exact keeps.elim
      case delPeer => exact keeps.elim
      case publishPresence origin envelope =>
        obtain ⟨inbox, same⟩ := s.redis.fanout_eq ⟨envelope, some origin⟩
        simp only [Redis.exec, same]
      all_goals rfl
    · rfl
  all_goals rfl

theorem exec_tenancy (cfg : Config) {a : Action} (keeps : KeepsTenancy a) (s : Server) :
    tenancy cfg (Server.exec a s).2 = tenancy cfg s := by
  funext id
  unfold tenancy SignalingState.tenant?
  rw [exec_registry keeps, Server.exec_peers]
  cases a
  case insertPeer => exact keeps.elim
  case removePeer => exact keeps.elim
  case bumpHeartbeat peerId =>
    rw [Action.onPeers, AList.lookup_adjust]
    split
    case isTrue same =>
      subst same
      simp [Function.comp_def]
    case isFalse => rfl
  all_goals rfl

/-- The move changes the registration of this id. -/
def Changes (cfg : Config) (P : ServerPool) (m : ServerMove) (id : Uuid) : Prop :=
  tenancy cfg ((system cfg).move P m).shared id ≠ tenancy cfg P.shared id

/-- What is left of the call does not rest on what it has read about these ids:
it is as well justified by the rest of what it has read. -/
def Detached (cfg : Config) (ids : Uuid → Prop) (call : Call)
    (p : Program signature CallError Unit) : Prop :=
  ∀ past, p.Justified (Reason cfg call) (fun _ _ => True) past →
    ∃ kept ⊆ past, (∀ e ∈ kept, ∀ id, About call id e → ¬ ids id) ∧
      p.Justified (Reason cfg call) (fun _ _ => True) kept

/-- Links are redeemed within a tenant, and no registration changes on which a
pending request or a call in progress rests. -/
structure Steady (cfg : Config) (P : ServerPool) (m : ServerMove) : Prop where
  links : ∀ i client code label key entry, m = .step i →
    P.threads[i]?.map Thread.call = some (.redeemShareLink client code label) →
    Performs P m (.findShareLink key) →
    (Server.exec (.findShareLink key) P.shared).1 = .found entry →
    SameTenant (tenancy cfg P.shared) entry.hostPeerId client.peerId
  requests : ∀ r p, P.shared.state.pendingPairings.lookup r = some p →
    ¬ Changes cfg P m p.hostPeerId ∧ ¬ Changes cfg P m p.client.peerId
  calls : ∀ t ∈ P.threads, Detached cfg (Changes cfg P m) t.call t.rest

/-! ## Steady schedules -/

/-- The call rests on what is still the case. -/
def Current (cfg : Config) (s : Server) (t : Thread signature CallError Call) : Prop :=
  ∃ past, t.rest.Justified (Reason cfg t.call) (fun _ _ => True) past ∧
    ∀ e ∈ past, Fresh cfg t.call (tenancy cfg s) e

/-- Every pending request is one within a tenant, and every call is current. -/
structure WithinTenants (cfg : Config) (P : ServerPool) : Prop where
  requests : ∀ r p, P.shared.state.pendingPairings.lookup r = some p →
    SameTenant (tenancy cfg P.shared) p.hostPeerId p.client.peerId
  calls : ∀ t ∈ P.threads, Current cfg P.shared t

section Steady

variable {cfg : Config} {P : ServerPool} {m : ServerMove}

/-- A call in progress survives a change of registrations it does not rest on. -/
theorem Current.survives {t : Thread signature CallError Call} {s' : Server}
    (current : Current cfg P.shared t)
    (detached : Detached cfg (fun id => tenancy cfg s' id ≠ tenancy cfg P.shared id) t.call
      t.rest) :
    Current cfg s' t := by
  obtain ⟨past, justified, fresh⟩ := current
  obtain ⟨kept, fewer, apart, justified'⟩ := detached past justified
  refine ⟨kept, justified', fun e member => (fresh e (fewer member)).congr fun id about => ?_⟩
  exact not_not.mp (apart e member id about)

/-- What an action answers is fresh, if the pending requests and the redeemed
links are within their tenants. -/
theorem exec_fresh {call : Call} {a : Action} {s : Server}
    (requests : ∀ r p, s.state.pendingPairings.lookup r = some p →
      SameTenant (tenancy cfg s) p.hostPeerId p.client.peerId)
    (links : ∀ client code label key entry, call = .redeemShareLink client code label →
      a = .findShareLink key → (Server.exec (.findShareLink key) s).1 = .found entry →
      SameTenant (tenancy cfg s) entry.hostPeerId client.peerId) :
    Fresh cfg call (tenancy cfg (Server.exec a s).2) ⟨a, (Server.exec a s).1⟩ := by
  cases a
  case getPeer id => rfl
  case takePending r =>
    rw [exec_tenancy cfg (a := .takePending r) trivial]
    cases found : s.state.pendingPairings.lookup r with
    | none => simp [Fresh, Server.exec, found]
    | some p => simpa [Fresh, Server.exec, found] using requests r p found
  case findShareLink code =>
    rw [exec_tenancy cfg (a := .findShareLink code) trivial]
    cases found : (Server.exec (.findShareLink code) s).1 with
    | unknown | expired => trivial
    | found entry =>
        intro client code' label redeems
        exact links client code' label code entry redeems rfl found
  case bus command =>
    cases command
    case getPeer id =>
      rw [exec_tenancy cfg (a := .bus (.getPeer id)) trivial]
      cases up : s.env.redisUp with
      | false => simp [Fresh, Server.exec, up]
      | true =>
          simp only [Fresh, Server.exec, up, if_true]
          intro clustered
          simp [tenancy, clustered, Redis.exec]
    all_goals trivial
  all_goals trivial

theorem WithinTenants.move (within : WithinTenants cfg P) (steady : Steady cfg P m) :
    WithinTenants cfg ((system cfg).move P m) := by
  have survive (t : Thread signature CallError Call) (member : t ∈ P.threads) :
      Current cfg ((system cfg).move P m).shared t :=
    (within.calls t member).survives (steady.calls t member)
  have kept (r : Uuid) (p : PendingPairing)
      (found : P.shared.state.pendingPairings.lookup r = some p) :
      SameTenant (tenancy cfg ((system cfg).move P m).shared) p.hostPeerId p.client.peerId :=
    (within.requests r p found).congr (not_not.mp (steady.requests r p found).1)
      (not_not.mp (steady.requests r p found).2)
  cases m with
  | call call =>
      refine ⟨kept, fun t member => ?_⟩
      rcases List.mem_append.mp member with old | new
      · exact survive t old
      · obtain rfl := List.mem_singleton.mp new
        exact ⟨[], body_reasoned cfg call, fun _ member => absurd member List.not_mem_nil⟩
  | disturb x =>
      exact ⟨fun r p found => kept r p (by simpa [System.move] using found), survive⟩
  | step i =>
      rcases (system cfg).advance_cases P i with same | ⟨call, a, k, found, moved⟩
      · simp only [System.move, same] at survive kept ⊢
        exact ⟨kept, survive⟩
      · have member : ⟨call, .act a k⟩ ∈ P.threads := List.mem_of_getElem? found
        have next : Performs P (.step i) a := Pool.next?_step found
        obtain ⟨before, reasoned, known⟩ := within.calls _ member
        obtain ⟨past, justified, fresh⟩ := survive _ member
        simp only [System.move, moved] at survive kept fresh ⊢
        refine ⟨fun r p stored => ?_, fun t moved => ?_⟩
        · rw [Server.exec_pending] at stored
          rcases Action.lookup_onPending stored with old | ⟨rfl, -⟩
          · exact kept r p old
          · rw [exec_tenancy cfg (a := .insertPending p) trivial]
            exact Vouched.sameTenant reasoned.1 known
        · rcases List.mem_or_eq_of_mem_set moved with old | rfl
          · exact survive t old
          · refine ⟨past ++ [⟨a, _⟩], justified.2 _, fun e happened => ?_⟩
            rcases List.mem_append.mp happened with earlier | now
            · exact fresh e earlier
            · rw [List.mem_singleton.mp now]
              refine exec_fresh within.requests fun client code label key entry redeems finds => ?_
              subst redeems finds
              exact steady.links i client code label key entry rfl (by simp [found]) next

end Steady

/-- Grants are only added to pairs that are registered under one tenant. -/
def GrantsWithinTenants (cfg : Config) (P₀ : ServerPool) (moves : List ServerMove) : Prop :=
  ∀ before i after grant, moves = before ++ .step i :: after →
    let P := (system cfg).schedule P₀ before
    Performs P (.step i) (.addPairing grant) →
    SameTenant (tenancy cfg P.shared) grant.hostPeerId grant.clientPeerId

theorem grantsWithinTenants_of_steady (cfg : Config) {s : Server} (moves : List ServerMove)
    (noRequests : s.state.pendingPairings = ∅)
    (steady : (system cfg).Along (Steady cfg) (idle s) moves) :
    GrantsWithinTenants cfg (idle s) moves := by
  rintro before i after grant rfl P adds
  have start : WithinTenants cfg (idle s) := by
    refine ⟨fun r p found => ?_, fun t member => absurd member List.not_mem_nil⟩
    simp [idle, noRequests] at found
  have within : WithinTenants cfg P :=
    (system cfg).schedule_invariant (fun P m steady within => within.move steady) start
      ((system cfg).along_append.mp steady).1
  obtain ⟨⟨call, rest⟩, found, next⟩ := Option.bind_eq_some_iff.mp adds
  cases rest with
  | done u | fail e => cases next
  | act a k =>
      obtain rfl : a = .addPairing grant := Option.some.inj next
      obtain ⟨past, justified, fresh⟩ := within.calls _ (List.mem_of_getElem? found)
      exact Vouched.sameTenant justified.1 fresh

/-! Calls that neither register nor forget a peer nor redeem a link are steady. -/

/-- The action leaves all registrations alone and looks up no link. -/
def Settled (a : Action) : Prop := KeepsTenancy a ∧ ∀ key, a ≠ .findShareLink key

theorem settled_of_quiet (a : Action) (quiet : a.Quiet) : Settled a := by
  refine ⟨?_, ?_⟩
  · cases a
    case insertPeer => exact quiet.elim
    case removePeer => exact quiet.elim
    case bus command =>
      cases command
      case setPeer => exact quiet.elim
      case delPeer => exact quiet.elim
      all_goals trivial
    all_goals trivial
  · rintro key rfl
    exact quiet

theorem steady_of_settled {cfg : Config} {P : ServerPool} {moves : List ServerMove}
    (settled : ∀ call, .call call ∈ moves →
      (call.body cfg).Upholds (fun _ _ => True) Settled (fun _ => True))
    (undisturbed : ∀ x, .disturb x ∉ moves) (start : P.threads = []) :
    (system cfg).Along (Steady cfg) P moves := by
  refine System.Along.imp (system cfg) (I := fun _ => True) (fun _ _ _ _ => trivial)
    (fun P m ok _ => ?_) trivial ((system cfg).along_upholds settled start)
  have same (id : Uuid) : ¬ Changes cfg P m id := by
    refine not_not.mpr (congrFun ?_ id)
    cases m with
    | call call => rfl
    | disturb x => exact absurd ok.1.1 (undisturbed x)
    | step i =>
        rcases (system cfg).advance_cases P i with stays | ⟨call, a, k, found, moved⟩
        · simp only [System.move, stays]
        · simp only [System.move, moved]
          exact exec_tenancy cfg (ok.2 a (Pool.next?_step found)).1 P.shared
  exact ⟨fun _ _ _ _ key _ _ _ finds => absurd rfl ((ok.2 _ finds).2 key),
    fun _ _ _ => ⟨same _, same _⟩,
    fun _ _ past justified => ⟨past, List.Subset.refl _, fun _ _ id _ => same id, justified⟩⟩

/-- Devices must be enrolled. -/
def Sample.managed : Config := { config with enrollment := .managed }

/-- A client asks, and the host approves. -/
def approval : List ServerMove :=
  [.call (.requestPairing Sample.client ⟨9, 1, ""⟩), .step 0, .step 0, .step 0, .step 0,
    .call (.decidePairing Sample.host ⟨9, true⟩), .step 1, .step 1, .step 1, .step 1]

theorem approval_withinTenants :
    ((system Sample.managed).schedule (idle (Sample.server [])) approval).shared.state.pairings =
        [⟨1, 2⟩] ∧
      GrantsWithinTenants Sample.managed (idle (Sample.server [])) approval := by
  refine ⟨by decide, grantsWithinTenants_of_steady Sample.managed approval rfl
    (steady_of_settled (fun call member => ?_) ?_ rfl)⟩
  · refine (Call.body_may _ call).mono (fun _ _ _ => trivial) (fun a may => ?_) fun _ _ => trivial
    obtain rfl | rfl : call = .requestPairing Sample.client ⟨9, 1, ""⟩ ∨
        call = .decidePairing Sample.host ⟨9, true⟩ := by
      simpa [approval] using member
    all_goals
      cases may with
      | quiet still => exact settled_of_quiet a still
      | _ => exact ⟨trivial, nofun⟩
  · simp [approval]

/-! A host of one tenant shares a link, and a client of another redeems it. -/

namespace Sample

def enrolled : Server :=
  { fresh [] with env := { env with lookup := fun deviceId _ => .ok (some ⟨deviceId, 0, false⟩) } }

/-- The code made of four zero bytes. -/
def sharedCode : String := "00000000"

def crossTenantLink : List ServerMove :=
  [.call (.signedHello 0 ⟨host, 5, []⟩), .step 0, .step 0, .step 0, .step 0,
    .call (.signedHello 1 ⟨client, 6, []⟩), .step 1, .step 1, .step 1, .step 1,
    .call (.createShareLink host 0 {}), .step 2, .step 2, .step 2,
    .call (.redeemShareLink client sharedCode ""), .step 3, .step 3]

end Sample

theorem crossTenantLink_not_withinTenants :
    ¬ GrantsWithinTenants Sample.managed (idle Sample.enrolled) Sample.crossTenantLink := by
  intro grants
  have same := grants (Sample.crossTenantLink.take 16) 3 [] ⟨1, 2⟩ (by rfl) (by decide)
  exact absurd same (by decide)

end Qubox.Signaling
