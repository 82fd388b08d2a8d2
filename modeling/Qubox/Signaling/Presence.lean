import Qubox.Signaling.World

/-!
# Who hears of whom

A change of presence reaches peers by two routes. `broadcast_presence` puts it
on the channels of the other peers of the tenant, and publishes it for the
cluster. The listener of every subscribed instance then puts it on the channels
of all peers of that instance: the envelope does not say which tenant it is for,
and the listener does not ask.

The history of a schedule tells under which tenant a peer was registered when
its presence was announced. Measured by this, the first route is always right.
The second is right exactly when nobody else is connected to the instance.
-/

namespace Qubox.Signaling

open Interaction
open Interaction.Program (Upholds Justified)

/-- The peers on whose channels an action puts a message. -/
def Server.reached (s : Server) : Action → List (ConnectedPeer × ServerMessage)
  | .sendLocal peerId m => (s.state.peers.lookup peerId).toList.map (fun p => (p, m))
  | .broadcastLocal subject tenantId m => (s.audience subject tenantId).map (fun p => (p, m))
  | .broadcastAll _ m => (s.env.shuffle s.state.peers.values).1.map (fun p => (p, m))
  | _ => []

/-! ## What an announcement rests on -/

/-- The peer was seen registered under this tenant: its entry was just made, or
was found in the table. A peer that is not there counts as one of no tenant. -/
inductive RegisteredAs (seen : Event signature → Prop) (id tenantId : Uuid) : Prop
  | entered {peer : ConnectedPeer} (event : seen ⟨.insertPeer peer, true⟩)
      (same : peer.descriptor.peerId = id) (tenant : peer.tenantId = tenantId)
  | found {key : Uuid} {peer : ConnectedPeer} (event : seen ⟨.getPeer key, some peer⟩)
      (same : key = id ∨ peer.descriptor.peerId = id) (tenant : peer.tenantId = tenantId)
  | absent (event : seen ⟨.getPeer id, none⟩) (tenant : tenantId = Uuid.nil)

/-- Why an action may carry a presence event. -/
def Voice (seen : Event signature → Prop) : Action → Prop
  | .reply _ m => ∀ event, m ≠ .presence event
  | .sendLocal peerId m => ∀ event, m = .presence event →
      ∃ self origin, seen ⟨.receive self, some ⟨⟨peerId, m⟩, origin⟩⟩ ∧ peerId.isNil = false
  | .broadcastLocal _ tenantId m => ∀ event, m = .presence event →
      RegisteredAs seen event.peer.peerId tenantId
  | .broadcastAll origin m => ∀ event, m = .presence event →
      ∃ self peerId, seen ⟨.receive self, some ⟨⟨peerId, m⟩, origin⟩⟩
  | .bus (.publishTo _ envelope) => ∀ event, envelope.message ≠ .presence event
  | .bus (.publishPresence tenantId envelope) => envelope.peerId = Uuid.nil ∧
      ∀ event, envelope.message = .presence event →
        RegisteredAs seen event.peer.peerId tenantId
  | _ => True

section Voice

variable {seen known : Event signature → Prop}

theorem RegisteredAs.mono (more : ∀ e, seen e → known e) {id t : Uuid}
    (registered : RegisteredAs seen id t) : RegisteredAs known id t := by
  cases registered with
  | entered event same tenant => exact .entered (more _ event) same tenant
  | found event same tenant => exact .found (more _ event) same tenant
  | absent event tenant => exact .absent (more _ event) tenant

theorem voice_mono (seen known : Event signature → Prop) (a : Action)
    (more : ∀ e, seen e → known e) (voice : Voice seen a) : Voice known a := by
  cases a
  case reply => exact voice
  case sendLocal peerId m =>
    intro event presence
    obtain ⟨self, origin, received, named⟩ := voice event presence
    exact ⟨self, origin, more _ received, named⟩
  case broadcastLocal subject t m => exact fun event presence => (voice event presence).mono more
  case broadcastAll origin m =>
    intro event presence
    obtain ⟨self, peerId, received⟩ := voice event presence
    exact ⟨self, peerId, more _ received⟩
  case bus command =>
    cases command
    case publishTo => exact voice
    case publishPresence t envelope =>
      exact ⟨voice.1, fun event presence => (voice.2 event presence).mono more⟩
    all_goals trivial
  all_goals trivial

theorem not_presence_of_plain {m : ServerMessage} (plain : m.Plain) (event : PresenceEvent) :
    m ≠ .presence event := by
  rintro rfl
  exact plain

theorem voice_of_quiet (a : Action) (quiet : a.Quiet) : Voice seen a := by
  cases a
  case reply => exact not_presence_of_plain quiet
  case sendLocal => exact fun event presence => absurd presence (not_presence_of_plain quiet event)
  case broadcastLocal => exact quiet.elim
  case broadcastAll => exact quiet.elim
  case bus command =>
    cases command
    case publishTo => exact not_presence_of_plain quiet
    case publishPresence => exact quiet.elim
    all_goals trivial
  all_goals trivial

/-- An announcement has a voice when its peer is registered. -/
theorem announces_of_registered {d : PeerDescriptor} {t : Uuid} {connected : Bool}
    (registered : RegisteredAs seen d.peerId t) : Announces (Voice seen) d t connected := by
  refine ⟨?_, rfl, ?_⟩
  · rintro event ⟨⟩
    exact registered
  · rintro event ⟨⟩
    exact registered

theorem body_voiced (cfg : Config) (call : Call) :
    (call.body cfg).Justified (fun past a => Voice (fun e => e ∈ past) a) (fun _ _ => True) [] := by
  refine Program.justified_of_upholds fun seen _ => ?_
  have quiet : ∀ a : Action, a.Quiet → Voice seen a := voice_of_quiet
  cases call
  case hello conn d =>
    exact (hello_upholds cfg conn quiet ⟨trivial, fun _ => trivial, trivial,
      fun entered => by exact announces_of_registered (.entered entered rfl rfl)⟩).settle _
  case signedHello conn signed =>
    exact (signedHello_upholds cfg conn quiet fun _ _ => ⟨trivial, fun _ => trivial, trivial,
      fun entered => by exact announces_of_registered (.entered entered rfl rfl)⟩).settle _
  case disconnect peer =>
    refine (disconnect_upholds cfg quiet trivial trivial trivial fun found read => ?_).settle _
    refine announces_of_registered ?_
    cases found with
    | none => exact .absent read rfl
    | some entry => exact .found read (.inl rfl) rfl
  case heartbeat peerId =>
    exact (handleHeartbeat_upholds cfg quiet trivial fun peer read =>
      announces_of_registered (.found read (.inr rfl) rfl)).settle _
  case requestPairing client request =>
    exact (requestPairing_upholds cfg quiet (fun _ => trivial) nofun fun _ => nofun).settle _
  case clusterListener self =>
    refine (clusterListener_upholds trivial (fun next read _ event presence => ?_)
      fun next read named event presence => ?_).settle _
    · exact ⟨self, next.envelope.peerId, read⟩
    · exact ⟨self, next.origin, read, named⟩
  all_goals
    refine (Call.body_may cfg _).mono (fun _ _ _ => trivial) (fun a may => ?_) fun _ _ => trivial
    cases may with
    | quiet still => exact quiet a still
    | announce speaks => exact speaks.elim
    | publish speaks => exact speaks.elim
    | _ => trivial

end Voice

/-! ## The history of a cluster -/

abbrev History := List (Event (signature.sited InstanceId))

/-- The event happened at this instance. -/
def At (past : History) (site : InstanceId) (e : Event signature) : Prop := e.sited site ∈ past

/-- Some instance has announced the event for a peer that it had seen registered
under this tenant. -/
def AnnouncedUnder (past : History) (event : PresenceEvent) (tenantId : Uuid) : Prop :=
  ∃ site, RegisteredAs (At past site) event.peer.peerId tenantId

/-- A presence event on the bus is a fan-out, and its origin is the tenant it was
announced under. -/
def Genuine (past : History) (x : Published) : Prop :=
  ∀ event, x.envelope.message = .presence event → x.envelope.peerId = Uuid.nil ∧
    ∃ t, x.origin = some t ∧ AnnouncedUnder past event t

theorem Genuine.mono {past later : History} (more : past ⊆ later) {x : Published}
    (genuine : Genuine past x) : Genuine later x := by
  intro event presence
  obtain ⟨fanout, t, origin, site, registered⟩ := genuine event presence
  exact ⟨fanout, t, origin, site, registered.mono fun _ member => more member⟩

/-- What is on the bus is genuine, what was taken off it was, and every call in
progress has a voice. -/
structure Overheard (past : History) (P : WorldPool) : Prop where
  inbox : ∀ target, ∀ x ∈ P.shared.redis.inbox target, Genuine past x
  received : ∀ site self x, At past site ⟨.receive self, some x⟩ → Genuine past x
  calls : ∀ t ∈ P.threads, t.rest.Justified (fun past (a : InstanceId × Action) =>
    a.1 = t.call.site ∧ Voice (At past t.call.site) a.2) (fun _ _ => True) past

theorem Redis.mem_fanout_inbox {r : Redis} {x y : Published} {target : InstanceId}
    (member : x ∈ (r.fanout y).inbox target) : x ∈ r.inbox target ∨ x = y := by
  unfold Redis.fanout at member
  generalize r.subscribers = targets at member
  induction targets generalizing r with
  | nil => exact .inl member
  | cons first targets ih =>
      rcases ih member with before | new
      · simp only [Redis.deliverTo, Function.update_apply] at before
        split at before
        case isTrue same =>
          subst same
          simpa using before
        case isFalse => exact .inl before
      · exact .inr new

/-- What is on the bus after an action was there before or is just published. -/
theorem exec_inbox {a : Action} {s : Server} {target : InstanceId} {x : Published}
    (member : x ∈ (Server.exec a s).2.redis.inbox target) :
    x ∈ s.redis.inbox target ∨ (∃ dest, a = .bus (.publishTo dest x.envelope)) ∨
      ∃ t, a = .bus (.publishPresence t x.envelope) ∧ x.origin = some t := by
  rw [Server.exec_redis] at member
  cases a
  case receive self =>
    simp only [Action.onRedis, Function.update_apply] at member
    split at member
    case isTrue same =>
      subst same
      exact .inl (List.mem_of_mem_tail member)
    case isFalse => exact .inl member
  case bus command =>
    rw [Action.onRedis] at member
    split at member
    · cases command
      case publishTo dest envelope =>
        simp only [Redis.exec, Redis.deliverTo, Function.update_apply] at member
        split at member
        case isTrue same =>
          rcases List.mem_append.mp member with before | new
          · exact .inl (same ▸ before)
          · obtain rfl := List.mem_singleton.mp new
            exact .inr (.inl ⟨dest, rfl⟩)
        case isFalse => exact .inl member
      case publishPresence t envelope =>
        rcases Redis.mem_fanout_inbox member with before | rfl
        · exact .inl before
        · exact .inr (.inr ⟨t, rfl, rfl⟩)
      all_goals exact .inl member
    · exact .inl member
  all_goals exact .inl member

theorem exec_received {self : InstanceId} {s : Server} {x : Published}
    (answered : (Server.exec (.receive self) s).1 = some x) : x ∈ s.redis.inbox self := by
  simp only [Server.exec, Server.execReceive] at answered
  split at answered
  case h_1 => cases answered
  case h_2 next rest more =>
    cases answered
    rw [more]
    exact List.mem_cons_self

theorem siteBody_voiced (cfg : InstanceId → Config) (c : SiteCall) (past : History) :
    (c.body cfg).Justified (fun past (a : InstanceId × Action) =>
      a.1 = c.site ∧ Voice (At past c.site) a.2) (fun _ _ => True) past :=
  Justified.sited voice_mono (body_voiced (cfg c.site) c.call)
    fun _ member => absurd member List.not_mem_nil

theorem Overheard.move (cfg : InstanceId → Config) {past : History} {P : WorldPool}
    (heard : Overheard past P) (m : WorldMove) :
    Overheard (past ++ (cluster cfg).performed P m) ((cluster cfg).move P m) := by
  have calls := (cluster cfg).justified_move
    (fun c past (a : InstanceId × Action) => a.1 = c.site ∧ Voice (At past c.site) a.2)
    (fun c a past later more cause =>
      ⟨cause.1, voice_mono _ _ _ (fun _ member => more member) cause.2⟩)
    (fun c => siteBody_voiced cfg c []) m heard.calls
  have later : past ⊆ past ++ (cluster cfg).performed P m := List.subset_append_left _ _
  have unchanged (same : ((cluster cfg).move P m).shared.redis.inbox = P.shared.redis.inbox)
      (silent : (cluster cfg).performed P m = []) :
      Overheard (past ++ (cluster cfg).performed P m) ((cluster cfg).move P m) := by
    rw [silent, List.append_nil] at calls ⊢
    exact ⟨same ▸ heard.inbox, heard.received, calls⟩
  cases m with
  | call c => exact unchanged rfl rfl
  | disturb x => exact unchanged (by cases x <;> rfl) rfl
  | step i =>
      rcases (cluster cfg).step_cases P i with ⟨same, nothing⟩ | ⟨c, a, k, found⟩
      · exact unchanged (by rw [System.move, same]) nothing
      · obtain ⟨site, a⟩ := a
        obtain ⟨here, voice⟩ := (heard.calls _ (List.mem_of_getElem? found)).1
        obtain rfl : site = c.site := here
        replace voice : Voice (At past c.site) a := voice
        have happened := (cluster cfg).performed_act (ξ := WorldChange) found
        have moved : ((cluster cfg).move P (.step i)).shared.redis.inbox =
            (Server.exec a (P.shared.server c.site)).2.redis.inbox := by
          simp only [System.move, (cluster cfg).advance_act found]
          rfl
        refine ⟨fun target x member => ?_, fun site self x event => ?_, calls⟩
        · rw [moved] at member
          rcases exec_inbox member with before | ⟨dest, rfl⟩ | ⟨t, rfl, origin⟩
          · exact (heard.inbox target x before).mono later
          · exact fun event presence => absurd presence (voice event)
          · intro event presence
            exact ⟨voice.1, t, origin, c.site, (voice.2 event presence).mono
              fun _ member => later member⟩
        · rcases List.mem_append.mp event with before | now
          · exact (heard.received site self x before).mono later
          · rw [happened, List.mem_singleton] at now
            obtain ⟨action, answer⟩ := Event.mk.inj now
            obtain ⟨rfl, rfl⟩ := Prod.mk.inj action
            have taken := exec_received (eq_of_heq answer).symm
            exact (heard.inbox self x taken).mono later

/-! ## Whole schedules -/

/-- The tenant to which an action of this kind addresses its presence event. -/
def addressed? : Action → Option Uuid
  | .broadcastLocal _ tenantId _ => some tenantId
  | .broadcastAll origin _ => origin
  | _ => none

/-- Whenever a presence event is put on the channel of a peer, it was announced
under a tenant, and this is the tenant of the peer. -/
def PresenceWithinTenants (cfg : InstanceId → Config) (P₀ : WorldPool) (moves : List WorldMove) :
    Prop :=
  ∀ before i after site a, moves = before ++ .step i :: after →
    let P := (cluster cfg).schedule P₀ before
    P.next? (.step i : WorldMove) = some (site, a) →
    ∀ q event, (q, .presence event) ∈ (P.shared.server site).reached a →
      ∃ t, addressed? a = some t ∧
        AnnouncedUnder ((cluster cfg).trace P₀ before) event t ∧ q.tenantId = t

/-- Presence events are only fanned out on instances where everybody belongs to
the tenant they come from. -/
def FansOutWithinTenants (cfg : InstanceId → Config) (P₀ : WorldPool) (moves : List WorldMove) :
    Prop :=
  ∀ before i after site t event, moves = before ++ .step i :: after →
    let P := (cluster cfg).schedule P₀ before
    P.next? (.step i : WorldMove) = some (site, .broadcastAll (some t) (.presence event)) →
    ∀ id q, (P.shared.state site).peers.lookup id = some q → q.tenantId = t

theorem Server.mem_audience {s : Server} {subject t : Uuid} {q : ConnectedPeer}
    (member : q ∈ s.audience subject t) : q.tenantId = t := by
  obtain ⟨id, found⟩ := AList.mem_values.mp ((s.env.shuffle _).2.mem_iff.mp member)
  have kept := (AList.lookup_retain_eq_some.mp found).2
  simp only [Bool.and_eq_true, decide_eq_true_eq] at kept
  exact kept.2

theorem Server.mem_everybody {s : Server} {q : ConnectedPeer} :
    q ∈ (s.env.shuffle s.state.peers.values).1 ↔ ∃ id, s.state.peers.lookup id = some q :=
  (s.env.shuffle _).2.mem_iff.trans AList.mem_values

/-- Whatever carries a presence event is addressed to the tenant it was announced
under, and only a fan-out can reach somebody else. -/
theorem Overheard.addressed {past : History} {P : WorldPool} (heard : Overheard past P)
    {s : Server} {site : InstanceId} {a : Action} (voice : Voice (At past site) a)
    {q : ConnectedPeer} {event : PresenceEvent} (reached : (q, .presence event) ∈ s.reached a) :
    ∃ t, addressed? a = some t ∧ AnnouncedUnder past event t ∧
      (q.tenantId = t ∨ (a = .broadcastAll (some t) (.presence event) ∧
        ∃ id, s.state.peers.lookup id = some q)) := by
  cases a
  case sendLocal peerId m =>
    obtain ⟨p, -, same⟩ := List.mem_map.mp reached
    cases same
    obtain ⟨self, origin, received, named⟩ := voice event rfl
    obtain ⟨fanout, -⟩ := heard.received site self _ received event rfl
    dsimp only at fanout
    rw [fanout] at named
    exact absurd named (by decide)
  case broadcastLocal subject t m =>
    obtain ⟨p, member, same⟩ := List.mem_map.mp reached
    cases same
    exact ⟨t, rfl, ⟨site, voice event rfl⟩, .inl (Server.mem_audience member)⟩
  case broadcastAll origin m =>
    obtain ⟨p, member, same⟩ := List.mem_map.mp reached
    cases same
    obtain ⟨self, peerId, received⟩ := voice event rfl
    obtain ⟨-, t, known, announced⟩ := heard.received site self _ received event rfl
    cases known
    exact ⟨t, rfl, announced, .inr ⟨rfl, Server.mem_everybody.mp member⟩⟩
  all_goals cases reached

/-- Presence stays within its tenant exactly as long as the listeners only fan
it out where nobody else is connected. -/
theorem presenceWithinTenants_iff (cfg : InstanceId → Config)
    (pairings : InstanceId → List PairingGrant) (file : InstanceId → Option (List PairingGrant))
    (env : InstanceId → Env) (subscribers : List InstanceId) (moves : List WorldMove) :
    PresenceWithinTenants cfg (resting (.fresh pairings file env subscribers)) moves ↔
      FansOutWithinTenants cfg (resting (.fresh pairings file env subscribers)) moves := by
  constructor
  · intro within before i after site t event split P next id q found
    have reached : (q, .presence event) ∈
        (P.shared.server site).reached (.broadcastAll (some t) (.presence event)) :=
      List.mem_map.mpr ⟨q, Server.mem_everybody.mpr ⟨id, found⟩, rfl⟩
    obtain ⟨t', addressed, -, same⟩ := within before i after site _ split next q event reached
    cases addressed
    exact same
  · intro fans before i after site a split P next q event reached
    have start : Overheard [] (resting (.fresh pairings file env subscribers)) :=
      ⟨fun _ _ member => absurd member List.not_mem_nil,
        fun _ _ _ member => absurd member List.not_mem_nil,
        fun _ member => absurd member List.not_mem_nil⟩
    have heard : Overheard ((cluster cfg).trace _ before) P :=
      (cluster cfg).trace_invariant (fun past P m heard => heard.move cfg m) start before
    obtain ⟨⟨c, rest⟩, found, performs⟩ := Option.bind_eq_some_iff.mp next
    cases rest with
    | done u | fail e => cases performs
    | act b k =>
        obtain rfl : b = (site, a) := Option.some.inj performs
        obtain ⟨here, voice⟩ := (heard.calls _ (List.mem_of_getElem? found)).1
        obtain rfl : site = c.site := here
        obtain ⟨t, addressed, announced, same | ⟨rfl, id, connected⟩⟩ :=
          heard.addressed voice reached
        · exact ⟨t, addressed, announced, same⟩
        · exact ⟨t, addressed, announced, fans before i after c.site t event split next id q
            connected⟩

/-! Two instances, and on each a peer of another tenant. -/

namespace Sample

def managedCluster (site : InstanceId) : Config := { clustered site with enrollment := .managed }

/-- The client signs in at one instance and the host at the other, whose arrival
the listener of the first then fans out. -/
def arrival : List WorldMove :=
  [.call ⟨"b", .signedHello 0 ⟨client, 6, []⟩⟩,
    .step 0, .step 0, .step 0, .step 0, .step 0, .step 0,
    .call ⟨"b", .clusterListener "b"⟩, .step 1, .step 1,
    .call ⟨"a", .signedHello 1 ⟨host, 5, []⟩⟩,
    .step 2, .step 2, .step 2, .step 2, .step 2, .step 2, .step 2,
    .call ⟨"b", .clusterListener "b"⟩, .step 3, .step 3]

end Sample

theorem arrival_not_withinTenants :
    ¬ PresenceWithinTenants Sample.managedCluster (resting (Sample.twoInstances fun _ => []))
      Sample.arrival := by
  intro within
  have leaked :
      ((((cluster Sample.managedCluster).schedule (resting (Sample.twoInstances fun _ => []))
        (Sample.arrival.take 20)).shared.server "b").reached
          (.broadcastAll (some 1) (.presence ⟨Sample.host, true⟩))).map
            (fun r => (r.1.tenantId, r.2)) =
        [(2, .presence ⟨Sample.host, true⟩)] := by
    decide
  obtain ⟨⟨q, m⟩, reached, same⟩ := List.mem_map.mp (leaked ▸ List.mem_singleton.mpr rfl)
  obtain ⟨tenant, rfl⟩ := Prod.mk.inj same
  obtain ⟨t, addressed, -, own⟩ := within (Sample.arrival.take 20) 3 [] "b" _ (by rfl)
    (by decide) q _ reached
  cases addressed
  rw [tenant] at own
  exact absurd own (by decide)

end Qubox.Signaling
