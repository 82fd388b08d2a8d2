import Qubox.Signaling.Bundles
import Qubox.Signaling.Bystanders

/-!
# ICE servers of a bundle session

The bundle arm verifies the allowlist of a request and then forgets it: the plan
for the client and the request to the host carry the configured ICE servers
whatever the allowlist says. `filter_ice_servers_to_allowlist` is not called.

What the arm sends is read off the events of its run. A message counts as sent
when the answer of the action says so.
-/

namespace Qubox

/-- The ICE servers a message announces. -/
def ServerMessage.iceServers? : ServerMessage → Option (List IceServer)
  | .sessionPlanned plan => some plan.iceServers
  | .sessionRequested request => some request.iceServers
  | _ => none

namespace Signaling

open Interaction
open Interaction.Program (Upholds)

/-- The message an action is to send. -/
def Action.message? : Action → Option ServerMessage
  | .sendLocal _ message | .reply _ message => some message
  | .broadcastLocal _ _ message | .broadcastAll _ message => some message
  | .bus (.publishTo _ envelope) | .bus (.publishPresence _ envelope) => some envelope.message
  | _ => none

/-- The answer does not say that the message went nowhere. -/
def delivered : Event signature → Bool
  | ⟨.sendLocal _ _, answer⟩ => answer = some true
  | ⟨.bus _, .error _⟩ => false
  | _ => true

/-- The message an event has sent. -/
def sent? (e : Event signature) : Option ServerMessage :=
  if delivered e then e.action.message? else none

/-- Every URL of the servers is on the allowlist. -/
def Listed (allowlist : IceAllowlist) (servers : List IceServer) : Prop :=
  ∀ server ∈ servers, ∀ url ∈ server.urls, url ∈ allowlist.urls

instance (allowlist : IceAllowlist) (servers : List IceServer) :
    Decidable (Listed allowlist servers) :=
  List.decidableBAll _ servers

section Statement

variable (cfg : Config) (conn : ConnId) (s : Server) (peer : PeerDescriptor)
  (request : StartSessionBundleRequest)

/-- What the arm does with the request in this state. -/
def bundleEvents : List (Event signature) :=
  machine.events (onStartSessionWithBundle cfg conn peer request) s

/-- The client is told of an error, and nobody of a session. -/
structure RequestRejected : Prop where
  told : ∃ error, (⟨.reply conn (.error error), ()⟩ : Event signature) ∈
    bundleEvents cfg conn s peer request
  unplanned : ∀ e ∈ bundleEvents cfg conn s peer request, ∀ message ∈ sent? e,
    message.iceServers? = none

/-- Nothing but listed servers is announced, and unlisted configured ones make
the server reject the request. -/
structure Enforces (allowlist : IceAllowlist) : Prop where
  listed : ∀ e ∈ bundleEvents cfg conn s peer request, ∀ message ∈ sent? e,
    ∀ servers ∈ message.iceServers?, Listed allowlist servers
  rejected : ¬ Listed allowlist cfg.iceServers → RequestRejected cfg conn s peer request

/-- The request carries an allowlist that verifies. -/
def Verifies (allowlist : IceAllowlist) : Prop :=
  ∃ envelope, request.iceAllowlist = some envelope ∧
    (machine.run (verifyIceAllowlist cfg envelope s.env.now) s).1 = .ok allowlist

def AllowlistEnforced : Prop :=
  ∀ allowlist, Verifies cfg s request allowlist → Enforces cfg conn s peer request allowlist

/-- The state passes the checks of the bundle, of the allowlist if there is one, and
those of `start_session`. -/
structure Acceptable : Prop where
  viewer : ∃ payload, ViewerPasses cfg s request.viewerBundle request.request.targetHostId
    s.env.now payload
  allowlist : ∀ envelope ∈ request.iceAllowlist, ∃ payload,
    AllowlistPasses cfg s envelope s.env.now payload
  startable : Startable cfg peer request.request s = true

end Statement

/-! ## Who announces ICE servers -/

/-- The action announces no ICE servers. -/
def Silent (a : Action) : Prop := ∀ message ∈ a.message?, message.iceServers? = none

/-- The action announces these servers or none. -/
def Carries (servers : List IceServer) (a : Action) : Prop :=
  ∀ message ∈ a.message?, ∀ announced ∈ message.iceServers?, announced = servers

theorem message?_of_sent? {e : Event signature} {message : ServerMessage}
    (sent : sent? e = some message) : e.action.message? = some message := by
  rw [sent?] at sent
  split at sent
  · exact sent
  · cases sent

theorem Silent.carries {servers : List IceServer} {a : Action} (silent : Silent a) :
    Carries servers a := by
  intro message sends announced carries
  rw [silent message sends] at carries
  cases carries

theorem silent_of_message? {a : Action} (nothing : a.message? = none) : Silent a := by
  intro message sends
  rw [nothing] at sends
  cases sends

/-! ## Operations that announce nothing -/

section Silence

variable {α : Type} (cfg : Config)

/-- A contract of an operation that announces no ICE servers. -/
abbrev Mute {ε : Type} (p : Program signature ε α) : Prop :=
  p.Upholds (fun _ _ => True) Silent (fun _ => True)

theorem sendTo_mute {message : ServerMessage} (peerId : Uuid)
    (plain : message.iceServers? = none) : Mute (sendTo cfg peerId message) := by
  refine sendTo_upholds_of cfg ?_ (silent_of_message? rfl) fun target => ?_
  · rintro _ ⟨⟩
    exact plain
  · rintro _ ⟨⟩
    exact plain

theorem decodeBundle_mute (payload : SignedBundle → Except SignedBundleError α)
    (envelope : SignedBundle) : Mute (decodeBundle cfg payload envelope) := by
  have verified : Mute (verifyBundle cfg envelope) := by
    refine Upholds.perform_bind (silent_of_message? rfl) fun key _ => ?_
    refine (liftExcept_upholds _ _).bind fun key _ => ?_
    refine (liftExcept_upholds _ _).bind fun _ _ => ?_
    exact Upholds.forget (liftExcept_upholds _ _)
  unfold decodeBundle
  split
  · refine verified.bind fun _ _ => ?_
    refine Upholds.perform_bind (silent_of_message? rfl) fun key _ => ?_
    refine (liftExcept_upholds _ _).bind fun key _ => ?_
    refine (liftExcept_upholds _ _).bind fun _ _ => ?_
    refine (liftExcept_upholds _ _).bind fun _ _ => ?_
    exact Upholds.forget (liftExcept_upholds _ _)
  · trivial

theorem verifySessionBundle_mute (request : StartSessionBundleRequest) (now : Nat) :
    Mute (verifySessionBundle cfg request now) := by
  have viewer : Mute (verifyViewerToHost cfg request.viewerBundle request.request.targetHostId
      now) := by
    refine (decodeBundle_mute cfg _ _).bind fun payload _ => ?_
    refine (require_upholds _ _).bind fun _ _ => ?_
    refine (require_upholds _ _).bind fun _ _ => ?_
    refine Upholds.perform_bind (silent_of_message? rfl) fun marked _ => ?_
    exact (liftExcept_upholds _ _).bind fun _ _ => trivial
  refine viewer.attempt.bind fun answer _ => ?_
  cases answer with
  | error e => trivial
  | ok viewer =>
      dsimp only
      split
      · trivial
      · rename_i envelope _
        have allowed : Mute (verifyIceAllowlist cfg envelope now) := by
          refine (decodeBundle_mute cfg _ _).bind fun payload _ => ?_
          exact (require_upholds _ _).bind fun _ _ => trivial
        refine allowed.attempt.bind fun answer _ => ?_
        cases answer <;> trivial

theorem resolveHost_mute (tenantId hostPeerId : Uuid) :
    Mute (resolveHost cfg tenantId hostPeerId) := by
  refine Upholds.perform_bind (silent_of_message? rfl) fun found _ => ?_
  cases found with
  | some host =>
      refine (require_upholds _ _).bind fun _ _ => ?_
      exact (require_upholds _ _).bind fun _ _ => trivial
  | none =>
      cases cfg.cluster with
      | none => trivial
      | some self =>
          refine Upholds.command_bind (silent_of_message? rfl) fun found _ => ?_
          refine (orFail_upholds _ _).bind fun remote _ => ?_
          refine (require_upholds _ _).bind fun _ _ => ?_
          exact (require_upholds _ _).bind fun _ _ => trivial

theorem authorizeSession_mute (client host : PeerDescriptor) (request : StartSessionRequest) :
    Mute (authorizeSession cfg client host request) := by
  unfold authorizeSession
  split
  · refine Upholds.perform_bind (silent_of_message? rfl) fun answer _ => ?_
    split
    · trivial
    · exact Upholds.bind (ignore_upholds (sendTo_mute cfg _ rfl)) fun _ _ => trivial
    · trivial
    · trivial
  · trivial

theorem ensurePaired_mute (clientPeerId hostPeerId : Uuid) (policyAutoPair : Bool) :
    Mute (ensurePaired cfg clientPeerId hostPeerId policyAutoPair) := by
  have asked : Mute (isPairedCluster cfg hostPeerId clientPeerId) := by
    refine Upholds.perform_bind (silent_of_message? rfl) fun stored _ => ?_
    cases stored with
    | true => trivial
    | false =>
        cases cfg.cluster with
        | none => trivial
        | some self =>
            refine (command_upholds (silent_of_message? rfl)).attempt.bind fun answer _ => ?_
            cases answer <;> trivial
  refine asked.bind fun paired _ => ?_
  dsimp only
  split
  · trivial
  split
  · have added : Mute (addPairing ⟨hostPeerId, clientPeerId⟩) := by
      refine Upholds.perform_bind (silent_of_message? rfl) fun snapshot _ => ?_
      refine Upholds.perform_bind (silent_of_message? rfl) fun written _ => ?_
      exact Upholds.forget (liftExcept_upholds _ _)
    refine added.bind fun _ _ => ?_
    refine (announcePairing_upholds cfg (silent_of_message? rfl)).bind fun _ _ => ?_
    exact ignore_upholds (sendTo_mute cfg _ rfl)
  · trivial

end Silence

/-! ## Operations that announce the configured servers -/

section Session

variable {α β : Type} (cfg : Config)

/-- The operation announces nothing when it fails. -/
def HoldsBack (p : Op α) : Prop :=
  ∀ s e s₁, machine.run p s = (.error e, s₁) →
    ∀ event ∈ machine.events p s, ∀ message ∈ sent? event, message.iceServers? = none

theorem unsent_of_mute {ε : Type} {p : Program signature ε α} (mute : Mute p) (s : Server) :
    ∀ event ∈ machine.events p s, ∀ message ∈ sent? event, message.iceServers? = none :=
  fun event member message sent =>
    machine.events_forall mute event member message (message?_of_sent? sent)

theorem HoldsBack.bind {p : Op α} {f : α → Op β} (mute : Mute p)
    (rest : ∀ a, HoldsBack (f a)) : HoldsBack (p >>= f) := by
  intro s e s₂ failed event member
  rcases ran : machine.run p s with ⟨error | a, s₁⟩
  · rw [machine.events_bind_error ran] at member
    exact unsent_of_mute mute s event member
  · rw [machine.events_bind_ok ran] at member
    rw [machine.run_bind, ran, machine.resume_ok] at failed
    rcases List.mem_append.mp member with early | late
    · exact unsent_of_mute mute s event early
    · exact rest a s₁ e s₂ failed event late

theorem HoldsBack.bind_ok {p : Op α} {f : α → Op β} (first : HoldsBack p)
    (returns : ∀ a s, ∃ b s₁, machine.run (f a) s = (.ok b, s₁)) : HoldsBack (p >>= f) := by
  intro s e s₂ failed event member
  rcases ran : machine.run p s with ⟨error | a, s₁⟩
  · rw [machine.events_bind_error ran] at member
    exact first s error s₁ ran event member
  · obtain ⟨b, s₃, returned⟩ := returns a s₁
    rw [machine.run_bind, ran, machine.resume_ok, returned] at failed
    cases failed

theorem command_holdsBack (c : BusCommand) : HoldsBack (Bus.command c) := by
  intro s e s₁ failed event member message sent
  rw [Bus.command, run_perform_bind] at failed
  obtain rfl : event = ⟨.bus c, (Server.exec (.bus c) s).1⟩ := by
    change event ∈ _ :: machine.events (liftExcept _ (Server.exec (.bus c) s).1) _ at member
    cases answer : (Server.exec (.bus c) s).1 <;>
      simpa [answer, liftExcept, Machine.events] using member
  cases answer : (Server.exec (.bus c) s).1 with
  | ok a =>
      rw [answer] at failed
      cases failed
  | error e =>
      rw [answer] at sent
      cases sent

/-- A message that could not be delivered was not sent either. -/
theorem sendTo_holdsBack (peerId : Uuid) (message : ServerMessage) :
    HoldsBack (sendTo cfg peerId message) := by
  have routed : HoldsBack (Bus.deliver peerId message) := by
    have asked : Mute (Bus.command (.getPeer peerId)) :=
      Upholds.forget (command_upholds (silent_of_message? rfl))
    refine HoldsBack.bind asked fun found => ?_
    refine HoldsBack.bind (Upholds.forget (orFail_upholds _ _)) fun remote => ?_
    exact command_holdsBack _
  intro s e s₁ failed event member other sent
  rw [sendTo, run_perform_bind] at failed
  rcases List.mem_cons.mp member with rfl | later
  · -- Not delivered here: either the channel is closed or the peer is not known.
    cases answer : (Server.exec (.sendLocal peerId message) s).1 with
    | none =>
        rw [answer] at sent
        cases sent
    | some sentHere =>
        cases sentHere with
        | false =>
            rw [answer] at sent
            cases sent
        | true =>
            rw [answer] at failed
            cases failed
  · change event ∈ machine.events _ (Server.exec (.sendLocal peerId message) s).2 at later
    cases answer : (Server.exec (.sendLocal peerId message) s).1 with
    | some sentHere =>
        rw [answer] at later
        cases sentHere <;> cases later
    | none =>
        rw [answer] at later failed
        cases clustered : cfg.cluster with
        | none =>
            rw [clustered] at later
            cases later
        | some self =>
            rw [clustered] at later failed
            exact routed _ e s₁ failed event later other sent

theorem prepareSession_carries {client host : PeerDescriptor}
    {hostKey clientKey : Option PublicKey} {request : StartSessionRequest}
    {permissions : SessionPermissions} :
    (prepareSession cfg client host hostKey clientKey request permissions).Upholds
        (fun _ _ => True) (Carries cfg.iceServers)
        (fun result => result.2.iceServers = cfg.iceServers) ∧
      HoldsBack (prepareSession cfg client host hostKey clientKey request permissions) := by
  constructor
  · refine (orFail_upholds _ _).bind fun transport _ => ?_
    refine (orFail_upholds _ _).bind fun codec _ => ?_
    refine (orFail_upholds _ _).bind fun hostPubkey _ => ?_
    refine (orFail_upholds _ _).bind fun clientPubkey _ => ?_
    refine Upholds.perform_bind (silent_of_message? rfl).carries fun issued _ => ?_
    refine Upholds.bind (sendTo_upholds_of cfg ?_ (silent_of_message? rfl).carries fun target => ?_)
      fun _ _ => rfl
    · rintro _ ⟨⟩ _ ⟨⟩
      rfl
    · rintro _ ⟨⟩ _ ⟨⟩
      rfl
  · refine HoldsBack.bind (Upholds.forget (orFail_upholds _ _)) fun transport => ?_
    refine HoldsBack.bind (Upholds.forget (orFail_upholds _ _)) fun codec => ?_
    refine HoldsBack.bind (Upholds.forget (orFail_upholds _ _)) fun hostPubkey => ?_
    refine HoldsBack.bind (Upholds.forget (orFail_upholds _ _)) fun clientPubkey => ?_
    refine HoldsBack.bind (p := perform .now) ⟨silent_of_message? rfl, fun _ _ => trivial⟩
      fun issued => ?_
    exact HoldsBack.bind_ok (sendTo_holdsBack cfg _ _) fun _ s => ⟨_, s, rfl⟩

theorem Mute.carries {ε : Type} {p : Program signature ε α} {servers : List IceServer}
    (mute : Mute p) : p.Upholds (fun _ _ => True) (Carries servers) (fun _ => True) :=
  mute.mono (fun _ _ h => h) (fun _ silent => silent.carries) fun _ h => h

theorem planSession_carries (client : PeerDescriptor) (request : StartSessionRequest) :
    (planSession cfg client request).Upholds (fun _ _ => True) (Carries cfg.iceServers)
        (fun result => result.2.iceServers = cfg.iceServers) ∧
      HoldsBack (planSession cfg client request) := by
  have pruned : Mute pruneExpiredSessions :=
    ⟨silent_of_message? rfl, fun _ _ => ⟨silent_of_message? rfl, fun _ _ => trivial⟩⟩
  have read (id : Uuid) : Mute (perform (.getPeer id) : Op _) :=
    ⟨silent_of_message? rfl, fun _ _ => trivial⟩
  have account : Mute (peerAccountId client.peerId) :=
    ⟨silent_of_message? rfl, fun _ _ => trivial⟩
  have found (e : Failure) (o : Option ConnectedPeer) : Mute (orFail e o) :=
    Upholds.forget (orFail_upholds e o)
  constructor
  · refine pruned.carries.bind fun _ _ => ?_
    refine (read _).carries.bind fun stored _ => ?_
    refine (found _ stored).carries.bind fun self _ => ?_
    refine (resolveHost_mute cfg _ _).carries.bind fun (host, hostKey) _ => ?_
    refine account.carries.bind fun _ _ => ?_
    refine (authorizeSession_mute cfg _ _ _).carries.bind fun (permissions, autoPair) _ => ?_
    refine (ensurePaired_mute cfg _ _ _).carries.bind fun _ _ => ?_
    exact (prepareSession_carries cfg).1
  · refine HoldsBack.bind pruned fun _ => ?_
    refine HoldsBack.bind (read _) fun stored => ?_
    refine HoldsBack.bind (found _ stored) fun self => ?_
    refine HoldsBack.bind (resolveHost_mute cfg _ _) fun (host, hostKey) => ?_
    refine HoldsBack.bind account fun _ => ?_
    refine HoldsBack.bind (authorizeSession_mute cfg _ _ _) fun (permissions, autoPair) => ?_
    refine HoldsBack.bind (ensurePaired_mute cfg _ _ _) fun _ => ?_
    exact (prepareSession_carries cfg).2

/-- Storing and announcing a planned session cannot fail. -/
theorem startSession_carries (client : PeerDescriptor) (request : StartSessionRequest) :
    (startSession cfg client request).Upholds (fun _ _ => True) (Carries cfg.iceServers)
        (fun plan => plan.iceServers = cfg.iceServers) ∧
      HoldsBack (startSession cfg client request) := by
  obtain ⟨carries, holdsBack⟩ := planSession_carries cfg client request
  constructor
  · refine carries.bind fun (session, plan) same => ?_
    refine Upholds.perform_bind (silent_of_message? rfl).carries fun _ _ => ?_
    exact (announceSession_upholds cfg (silent_of_message? rfl).carries).bind fun _ _ => same
  · refine HoldsBack.bind_ok holdsBack fun (session, plan) s => ?_
    rw [run_perform_bind, machine.run_bind, announceSession]
    cases cfg.cluster with
    | none => exact ⟨_, _, rfl⟩
    | some self =>
        simp only [run_ignore, machine.resume_ok]
        exact ⟨_, _, rfl⟩

end Session

/-! ## The bundle arm -/

section Accepting

variable {cfg : Config} {s : Server} {peer : PeerDescriptor} {request : StartSessionBundleRequest}

/-- A verified viewer bundle is marked in the cache, and nothing else changes. -/
theorem startable_marked (client : PeerDescriptor) (request : StartSessionRequest) (jti : String)
    (exp now : Nat) :
    Startable cfg client request (Server.exec (.checkAndMark jti exp now) s).2 =
      Startable cfg client request s := rfl

theorem AllowlistPasses.marked {envelope : SignedBundle} {payload : IceAllowlist} {jti : String}
    {exp now clock : Nat} :
    AllowlistPasses cfg (Server.exec (.checkAndMark jti exp now) s).2 envelope clock payload ↔
      AllowlistPasses cfg s envelope clock payload := by
  constructor
  all_goals
    intro passes
    exact ⟨⟨passes.opens.configured, passes.opens.verified, passes.opens.read⟩, passes.unexpired⟩

/-- `start_session` returns a plan exactly if the checks before the storing pass. -/
theorem run_startSession_returns (client : PeerDescriptor) (request : StartSessionRequest) :
    (machine.run (startSession cfg client request) s).1.toOption.isSome =
      Startable cfg client request s := by
  have returns : (machine.run (planSession cfg client request) s).1.toOption.isSome =
      Startable cfg client request s := run_planPruned_returns cfg client request s.pruned
  rw [startSession, machine.run_bind]
  rcases ran : machine.run (planSession cfg client request) s with ⟨e | ⟨session, plan⟩, s₁⟩
  · rw [ran] at returns
    exact returns
  · rw [ran] at returns
    rw [← returns, Machine.resume_ok, run_perform_bind, machine.run_bind, announceSession]
    cases cfg.cluster with
    | none => rfl
    | some self =>
        simp only [run_ignore, machine.resume_ok]
        rfl

theorem verifySessionBundle_ok {viewer : ViewerToHost} {s₁ : Server} :
    machine.run (verifySessionBundle cfg request s.env.now) s = (.ok viewer, s₁) ↔
      ViewerPasses cfg s request.viewerBundle request.request.targetHostId s.env.now viewer ∧
        (∀ envelope ∈ request.iceAllowlist, ∃ payload,
          AllowlistPasses cfg s envelope s.env.now payload) ∧
        s₁ = (Server.exec (.checkAndMark viewer.jti (asU64 viewer.exp) s.env.now) s).2 := by
  rw [verifySessionBundle, machine.run_bind, machine.run_attempt, Machine.resume_ok]
  constructor
  · intro verified
    rcases checked : machine.run (verifyViewerToHost cfg request.viewerBundle
        request.request.targetHostId s.env.now) s with ⟨e | payload, s₂⟩
    · rw [checked] at verified
      cases verified
    · have passes := (viewerPasses_of_run checked).1
      obtain rfl : _ = s₂ := congrArg Prod.snd (passes.run.symm.trans checked)
      rw [checked] at verified
      cases given : request.iceAllowlist with
      | none =>
          rw [given] at verified
          cases verified
          refine ⟨passes, ?_, rfl⟩
          rintro _ ⟨⟩
      | some envelope =>
          rw [given] at verified
          dsimp only at verified
          rw [machine.run_bind, machine.run_attempt, Machine.resume_ok] at verified
          rcases allowed : machine.run (verifyIceAllowlist cfg envelope s.env.now)
              (Server.exec (.checkAndMark payload.jti (asU64 payload.exp) s.env.now) s).2 with
            ⟨e | allowlist, s₃⟩
          · rw [allowed] at verified
            cases verified
          · have listed := allowlistPasses_of_run allowed
            obtain rfl : _ = s₃ := congrArg Prod.snd (listed.run.symm.trans allowed)
            rw [allowed] at verified
            cases verified
            refine ⟨passes, ?_, rfl⟩
            rintro _ ⟨⟩
            exact ⟨allowlist, AllowlistPasses.marked.mp listed⟩
  · rintro ⟨passes, allowed, rfl⟩
    rw [passes.run]
    cases given : request.iceAllowlist with
    | none => rfl
    | some envelope =>
        obtain ⟨allowlist, listed⟩ := allowed envelope given
        dsimp only
        rw [machine.run_bind, machine.run_attempt, Machine.resume_ok,
          (AllowlistPasses.marked.mpr listed).run]
        rfl

theorem acceptable_iff : Acceptable cfg s peer request ↔
    ∃ viewer s₁, machine.run (verifySessionBundle cfg request s.env.now) s = (.ok viewer, s₁) ∧
      ∃ plan s₂, machine.run (startSession cfg peer request.request) s₁ = (.ok plan, s₂) := by
  constructor
  · rintro ⟨⟨viewer, passes⟩, allowed, startable⟩
    refine ⟨viewer, _, verifySessionBundle_ok.mpr ⟨passes, allowed, rfl⟩, ?_⟩
    rw [← startable_marked _ _ viewer.jti (asU64 viewer.exp) s.env.now, ← run_startSession_returns] at startable
    rcases started : machine.run (startSession cfg peer request.request)
        (Server.exec (.checkAndMark viewer.jti (asU64 viewer.exp) s.env.now) s).2 with
      ⟨e | plan, s₂⟩
    · rw [started] at startable
      cases startable
    · exact ⟨plan, s₂, rfl⟩
  · rintro ⟨viewer, s₁, checked, plan, s₂, started⟩
    obtain ⟨passes, allowed, rfl⟩ := verifySessionBundle_ok.mp checked
    refine ⟨⟨viewer, passes⟩, allowed, ?_⟩
    rw [← startable_marked _ _ viewer.jti (asU64 viewer.exp) s.env.now, ← run_startSession_returns, started]
    rfl

end Accepting

section Arm

variable (cfg : Config) (conn : ConnId) (s : Server) (peer : PeerDescriptor)
  (request : StartSessionBundleRequest)

theorem onBundleAccepted_carries (request : StartSessionRequest) (viewer : ViewerToHost) :
    (onBundleAccepted cfg conn peer request viewer).Upholds (fun _ _ => True)
      (Carries cfg.iceServers) (fun _ => True) := by
  have silent (message : ServerMessage) (plain : message.iceServers? = none) :
      Carries cfg.iceServers (.reply conn message) := by
    apply Silent.carries
    rintro _ ⟨⟩
    exact plain
  refine (startSession_carries cfg peer request).1.attempt.bind fun answer same => ?_
  cases answer with
  | error e => exact ⟨silent _ rfl, fun _ _ => trivial⟩
  | ok plan =>
      refine Upholds.perform_bind (silent _ rfl) fun _ _ => ?_
      have planned : Carries cfg.iceServers (.reply conn (.sessionPlanned plan)) := by
        rintro _ ⟨⟩ _ ⟨⟩
        exact same
      have found : Mute (findHostPeerForDevice request.targetHostId) :=
        ⟨silent_of_message? rfl, fun _ _ => trivial⟩
      refine found.carries.bind fun hostPeerId _ => ?_
      cases hostPeerId with
      | none => exact ⟨planned, fun _ _ => trivial⟩
      | some hostPeerId =>
          refine Upholds.bind (ignore_upholds (sendTo_mute cfg hostPeerId rfl).carries)
            fun _ _ => ?_
          exact ⟨planned, fun _ _ => trivial⟩

theorem bundleEvents_carries :
    ∀ e ∈ bundleEvents cfg conn s peer request, Carries cfg.iceServers e.action := by
  suffices contract : (onStartSessionWithBundle cfg conn peer request).Upholds (fun _ _ => True)
      (Carries cfg.iceServers) (fun _ => True) from machine.events_forall contract
  refine Upholds.perform_bind (silent_of_message? rfl).carries fun now _ => ?_
  refine (verifySessionBundle_mute cfg request now).carries.attempt.bind fun answer _ => ?_
  cases answer with
  | error e =>
      have told : Carries cfg.iceServers (.reply conn (.error ⟨e.1, e.2.text⟩)) := by
        rintro _ ⟨⟩ _ ⟨⟩
      exact ⟨told, fun _ _ => trivial⟩
  | ok viewer =>
      exact (onBundleAccepted_carries cfg conn peer request.request viewer).bind
        fun _ _ => trivial

variable {cfg s peer request}

theorem bundleEvents_of_error {code : String} {e : BundleVerifyError} {s₁ : Server}
    (failed : machine.run (verifySessionBundle cfg request s.env.now) s =
      (.error (code, e), s₁)) :
    bundleEvents cfg conn s peer request = ⟨.now, s.env.now⟩ ::
      (machine.events (verifySessionBundle cfg request s.env.now) s ++
        [⟨.reply conn (.error ⟨code, e.text⟩), ()⟩]) := by
  have clock : (machine.exec .now s).1 = s.env.now := rfl
  refine congrArg _ ((machine.events_attempt_bind _ _ s).trans ?_)
  rw [clock, failed]
  rfl

theorem bundleEvents_of_ok {viewer : ViewerToHost} {s₁ : Server}
    (verified : machine.run (verifySessionBundle cfg request s.env.now) s = (.ok viewer, s₁)) :
    bundleEvents cfg conn s peer request = ⟨.now, s.env.now⟩ ::
      (machine.events (verifySessionBundle cfg request s.env.now) s ++
        machine.events (onBundleAccepted cfg conn peer request.request viewer) s₁) := by
  have clock : (machine.exec .now s).1 = s.env.now := rfl
  refine congrArg _ ((machine.events_attempt_bind _ _ s).trans ?_)
  rw [clock, verified]
  refine congrArg _ ((machine.events_bind_ok (machine.run_eq_eval _ s₁)).trans ?_)
  exact List.append_nil _

theorem rejected_of_not_acceptable (unacceptable : ¬ Acceptable cfg s peer request) :
    RequestRejected cfg conn s peer request := by
  have verifying := unsent_of_mute (verifySessionBundle_mute cfg request s.env.now) s
  rcases checked : machine.run (verifySessionBundle cfg request s.env.now) s with
    ⟨⟨code, e⟩ | viewer, s₁⟩
  · have events : bundleEvents cfg conn s peer request = _ := bundleEvents_of_error conn checked
    constructor
    · rw [events]
      exact ⟨_, List.mem_cons_of_mem _ (List.mem_append_right _ (List.mem_singleton.mpr rfl))⟩
    · intro event member message sent
      rw [events] at member
      rcases List.mem_cons.mp member with rfl | member
      · cases sent
      rcases List.mem_append.mp member with early | late
      · exact verifying event early message sent
      · obtain rfl := List.mem_singleton.mp late
        cases sent
        rfl
  · rcases started : machine.run (startSession cfg peer request.request) s₁ with
      ⟨e | plan, s₂⟩
    · have events : bundleEvents cfg conn s peer request = _ := bundleEvents_of_ok conn checked
      have rest : machine.events (onBundleAccepted cfg conn peer request.request viewer) s₁ =
          machine.events (startSession cfg peer request.request) s₁ ++
            [⟨.reply conn (.error ⟨"session_rejected", e.text⟩), ()⟩] := by
        refine (machine.events_attempt_bind _ _ s₁).trans ?_
        rw [started]
        rfl
      rw [rest] at events
      constructor
      · rw [events]
        refine ⟨⟨"session_rejected", e.text⟩, List.mem_cons_of_mem _ ?_⟩
        refine List.mem_append_right _ ?_
        exact List.mem_append_right _ (List.mem_singleton.mpr rfl)
      · intro event member message sent
        rw [events] at member
        rcases List.mem_cons.mp member with rfl | member
        · cases sent
        rcases List.mem_append.mp member with early | late
        · exact verifying event early message sent
        rcases List.mem_append.mp late with early | late
        · exact (startSession_carries cfg peer request.request).2 s₁ e s₂ started event early
            message sent
        · obtain rfl := List.mem_singleton.mp late
          cases sent
          rfl
    · exact absurd (acceptable_iff.mpr ⟨viewer, s₁, checked, plan, s₂, started⟩) unacceptable

/-- An accepted request brings the client a plan with the configured servers. -/
theorem planned_of_acceptable (acceptable : Acceptable cfg s peer request) :
    ∃ plan : SessionPlan, plan.iceServers = cfg.iceServers ∧
      (⟨.reply conn (.sessionPlanned plan), ()⟩ : Event signature) ∈
        bundleEvents cfg conn s peer request := by
  obtain ⟨viewer, s₁, checked, plan, s₂, started⟩ := acceptable_iff.mp acceptable
  have same : plan.iceServers = cfg.iceServers :=
    (machine.run_invariant (I := fun _ => True) (startSession_carries cfg peer request.request).1
      (fun _ _ _ _ => ⟨trivial, trivial⟩) trivial (s := s₁)).2 plan (by rw [started])
  refine ⟨plan, same, ?_⟩
  rw [bundleEvents_of_ok conn checked]
  refine List.mem_cons_of_mem _ (List.mem_append_right _ ?_)
  have begun : machine.run ((startSession cfg peer request.request).attempt : Proc _) s₁ =
      (.ok (.ok plan), s₂) := by
    rw [machine.run_attempt, started]
  refine machine.mem_events_bind begun ?_
  refine machine.mem_events_bind (machine.run_eq_eval _ s₂) ?_
  -- The host is looked up and told; then comes the plan.
  refine machine.mem_events_bind (machine.run_eq_eval _ _) ?_
  split
  · exact machine.mem_events_bind (machine.run_eq_eval _ _) List.mem_cons_self
  · exact List.mem_cons_self

theorem allowlistEnforced_iff (cfg : Config) (s : Server) (peer : PeerDescriptor)
    (request : StartSessionBundleRequest) :
    AllowlistEnforced cfg conn s peer request ↔
      (∀ allowlist, Verifies cfg s request allowlist → Listed allowlist cfg.iceServers) ∨
        ¬ Acceptable cfg s peer request := by
  constructor
  · intro enforced
    by_cases acceptable : Acceptable cfg s peer request
    · refine .inl fun allowlist verifies => ?_
      obtain ⟨plan, same, member⟩ := planned_of_acceptable conn acceptable
      have listed := (enforced allowlist verifies).listed _ member _ rfl plan.iceServers rfl
      rwa [same] at listed
    · exact .inr acceptable
  · rintro (listed | unacceptable) allowlist verifies
    · refine ⟨fun event member message sent servers carried => ?_,
        fun unlisted => absurd (listed allowlist verifies) unlisted⟩
      rw [bundleEvents_carries cfg conn s peer request event member message
        (message?_of_sent? sent) servers carried]
      exact listed allowlist verifies
    · have rejected := rejected_of_not_acceptable conn unacceptable
      refine ⟨fun event member message sent servers carried => ?_, fun _ => rejected⟩
      rw [rejected.unplanned event member message sent] at carried
      cases carried

end Arm

namespace Sample

def viewerBundle : SignedBundle := ⟨"k", 1, "viewer", ""⟩

def allowlistBundle : SignedBundle := ⟨"k", 1, "allowlist", ""⟩

/-- The cloud allows no ICE server at all. -/
def emptyAllowlist : IceAllowlist := ⟨1, "a", 5000, [], none⟩

/-- A server with one ICE server configured that trusts the cloud's key. -/
def iceConfig : Config :=
  { config with
    iceServers := [⟨["stun:stun.example.org:3478"], none, none⟩]
    jwks := true
    payloadViewerToHost := fun bundle =>
      if bundle = viewerBundle then
        .ok ⟨1, "v", "7", "2", (1 : Uuid).toText, 0, 5000, {}, "", none⟩
      else .error .badBase64
    payloadIceAllowlist := fun bundle =>
      if bundle = allowlistBundle then .ok emptyAllowlist else .error .badBase64 }

/-- Host and client are paired, and the key of the cloud is known. -/
def iceServer : Server :=
  { server [⟨1, 2⟩] with env := { env with jwksLookup := fun _ => .ok 9 } }

def restrictedRequest : StartSessionBundleRequest :=
  ⟨{ sessionId := 7, targetHostId := 1 }, viewerBundle, some allowlistBundle⟩

end Sample

/-- The session is planned with the ICE server that the allowlist does not have. -/
theorem restrictedRequest_not_enforced :
    ¬ AllowlistEnforced Sample.iceConfig 1 Sample.iceServer Sample.client
      Sample.restrictedRequest := by
  intro enforced
  have verifies : Verifies Sample.iceConfig Sample.iceServer Sample.restrictedRequest
      Sample.emptyAllowlist := ⟨Sample.allowlistBundle, rfl, by decide⟩
  have planned : ∃ e ∈ bundleEvents Sample.iceConfig 1 Sample.iceServer Sample.client
      Sample.restrictedRequest, ((sent? e).bind ServerMessage.iceServers?) =
        some Sample.iceConfig.iceServers := by
    decide
  obtain ⟨e, member, announced⟩ := planned
  obtain ⟨message, sent, carried⟩ := Option.bind_eq_some_iff.mp announced
  have listed := (enforced _ verifies).listed e member message sent _ carried
  exact absurd listed (by decide)

end Signaling

end Qubox
