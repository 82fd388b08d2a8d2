import Qubox.Library.History
import Qubox.Signaling.Call
import Qubox.Signaling.Tenancy

/-!
# Acting for a host

A share code for a host, or the end of one of its grants, comes from a
connection. `handleSocket` is its whole handler, and `sockets` lets any number of
connections interleave at their await points. What a connection may do is judged
by its own events: how it was registered, and what it last read about the host.

The server takes a connection for the host's own device when the device ids
agree. The device id of a peer is what its hello says. The enrollment lookup
checks it together with the key, but a client for which the lookup fails is
registered all the same, with the id it has declared. `Fits` says that a device
id does not lead astray: all who declare it are enrolled in one tenant, or it is
declared under one peer id only. An absent host counts as the nil device, so no
client may declare that.
-/

namespace Qubox.Signaling

open Interaction
open Interaction.Program (Upholds Justified Attempted)

/-! ## Connections -/

section Handler

variable (cfg : Config) (conn : ConnId)

/-- What is behind the loop of `handle_socket`. -/
def closeSocket : Option PeerDescriptor → Proc Unit
  | some peer => disconnect cfg peer
  | none => return ()

/-- The loop of `handle_socket` over the frames of a stream. -/
def handleSocket (registered : Option PeerDescriptor) : List Frame → Proc Unit
  | [] => closeSocket cfg registered
  | frame :: frames => do
    match ← handleFrame cfg conn registered frame with
    | .next registered => handleSocket registered frames
    | .leave => closeSocket cfg registered
    | .exit => return ()

end Handler

/-- A connection with the frames it sends, or a turn of the cluster listener. -/
inductive Task where
  | socket (conn : ConnId) (frames : List Frame)
  | listener (self : InstanceId)

def Task.body (cfg : Config) : Task → Proc Unit
  | .socket conn frames => handleSocket cfg conn none frames
  | .listener self => clusterListener self

@[reducible] def sockets (cfg : Config) : System signature Server Empty Task Disturbance where
  exec := Server.exec
  body := Task.body cfg
  change := Disturbance.apply

abbrev SocketPool := Pool signature Server Empty Task

abbrev SocketMove := Move Task Disturbance

/-! ## Authority over a host -/

/-- The event makes a share code for the host, or removes one of its grants. -/
def ActsFor (h : Uuid) : (a : Action) → a.Answer → Prop
  | .insertShareLink _ entry, _ => entry.hostPeerId = h
  | .removePairing hostPeerId _, (_, removed) => hostPeerId = h ∧ removed = true
  | _, _ => False

/-- The lookup resolved the device id and the key of the peer, to the tenant under
which it is registered. -/
def Resolved (seen : Event signature → Prop) (self : ConnectedPeer) : Prop :=
  ∃ key info, self.publicKey = some key ∧
    seen ⟨.enrollmentLookup self.descriptor.deviceId key, .ok (some info)⟩ ∧
    info.revoked = false ∧ info.tenantId = self.tenantId

/-- The reading shows the peer under this tenant. -/
def Shows (id tenantId : Uuid) : (a : Action) → a.Answer → Prop
  | .listPeers, peers => ∃ peer ∈ peers, peer.descriptor.peerId = id ∧ peer.tenantId = tenantId
  | .getPeer id', found => id' = id ∧ found.map ConnectedPeer.tenantId = some tenantId
  | _, _ => False

/-- The action reads the entry of the peer. -/
def Reads (id : Uuid) (a : Action) : Prop := a = .listPeers ∨ a = .getPeer id

/-- The last reading of the peer shows it under this tenant. -/
def LastShown (id tenantId : Uuid) (past : List (Event signature)) : Prop :=
  ∃ before reading after, past = before ++ reading :: after ∧
    Shows id tenantId reading.action reading.answer ∧ ∀ e ∈ after, ¬ Reads id e.action

/-- The connection is the host's own, or is registered under the tenant of the
host by a signed hello that the lookup resolved. -/
def Authorised (past : List (Event signature)) (h : Uuid) : Prop :=
  ∃ self, ⟨.insertPeer self, true⟩ ∈ past ∧
    (self.descriptor.peerId = h ∨
      Resolved (fun e => e ∈ past) self ∧ LastShown h self.tenantId past)

/-- Whatever a connection does for a host, it is authorised to by then. -/
def OnlyOwners (cfg : Config) (P₀ : SocketPool) (moves : List SocketMove) : Prop :=
  ∀ i past e later h, (sockets cfg).ownTrace i P₀ moves = past ++ e :: later →
    ActsFor h e.action e.answer → Authorised past h

/-! ## Device ids -/

/-- Who declares a device id: the enrolled peers of a tenant, or one peer. -/
inductive Owner where
  | enrolled (tenantId : Uuid)
  | single (peerId : Uuid)
  deriving DecidableEq

/-- The nil tenant marks a peer whose lookup has failed. -/
def Owner.Covers : Owner → ConnectedPeer → Prop
  | .enrolled tenantId, peer => tenantId ≠ Uuid.nil ∧ peer.tenantId = tenantId
  | .single peerId, peer => peer.descriptor.peerId = peerId

/-- The registration agrees with who owns the declared device id, and no client
declares the nil device. -/
def Fits (owner : Uuid → Owner) (peer : ConnectedPeer) : Prop :=
  (owner peer.descriptor.deviceId).Covers peer ∧
    (peer.descriptor.role = .client → peer.descriptor.deviceId ≠ Uuid.nil)

/-- The peer that an action tries to register. -/
def Action.newPeer? : Action → Option ConnectedPeer
  | .insertPeer peer => some peer
  | _ => none

/-- A peer that the move registers agrees with who owns its device id. -/
def Owned (owner : Uuid → Owner) (P : SocketPool) (m : SocketMove) : Prop :=
  ∀ peer ∈ (P.next? m).bind Action.newPeer?,
    P.shared.state.peers.lookup peer.descriptor.peerId = none → Fits owner peer

/-- All registered peers are under their own id and fit. -/
def AllFit (owner : Uuid → Owner) (s : Server) : Prop :=
  ∀ id peer, s.state.peers.lookup id = some peer → peer.descriptor.peerId = id ∧ Fits owner peer

/-- What an event shows of registered peers fits. -/
def Sound (owner : Uuid → Owner) : (a : Action) → a.Answer → Prop
  | .insertPeer self, true => Fits owner self
  | .listPeers, peers => ∀ peer ∈ peers, Fits owner peer
  | .getPeer id, some peer => peer.descriptor.peerId = id ∧ Fits owner peer
  | _, _ => True

section AllFit

variable {owner : Uuid → Owner} {s : Server} {a : Action}

theorem Fits.counted {peer : ConnectedPeer} (fits : Fits owner peer) (count : Nat) :
    Fits owner { peer with heartbeatCount := count } := by
  obtain ⟨covers, named⟩ := fits
  refine ⟨?_, named⟩
  dsimp only
  generalize owner peer.descriptor.deviceId = declared at covers ⊢
  cases declared with
  | enrolled tenantId | single peerId => exact covers

theorem AllFit.exec (fit : AllFit owner s)
    (owned : ∀ peer, a = .insertPeer peer →
      s.state.peers.lookup peer.descriptor.peerId = none → Fits owner peer) :
    AllFit owner (Server.exec a s).2 := by
  intro id peer found
  rw [Server.exec_peers] at found
  rcases Action.lookup_onPeers found with ⟨old, count, before, rfl⟩ | ⟨rfl, rfl, free⟩
  · exact ⟨(fit id old before).1, (fit id old before).2.counted count⟩
  · exact ⟨rfl, owned peer rfl free⟩

theorem AllFit.sound (fit : AllFit owner s)
    (owned : ∀ peer, a = .insertPeer peer →
      s.state.peers.lookup peer.descriptor.peerId = none → Fits owner peer) :
    Sound owner a (Server.exec a s).1 := by
  cases a
  case insertPeer self =>
    rw [Server.exec]
    split
    case isTrue => trivial
    case isFalse free => exact owned self rfl (Option.not_isSome_iff_eq_none.mp free)
  case listPeers =>
    intro peer member
    rw [Server.exec] at member
    obtain ⟨id, found⟩ := AList.mem_values.mp ((s.env.shuffle _).2.mem_iff.mp member)
    exact (fit id peer found).2
  case getPeer id =>
    cases found : s.state.peers.lookup id with
    | none => simp [Sound, Server.exec, found]
    | some peer =>
        simp only [Sound, Server.exec, found]
        exact fit id peer found
  all_goals trivial

end AllFit

/-! ## How a connection is registered -/

/-- The connection has registered this peer, under the nil tenant or as the
lookup resolved it. -/
def Admitted (seen : Event signature → Prop) (descriptor : PeerDescriptor) : Prop :=
  ∃ self, seen ⟨.insertPeer self, true⟩ ∧ self.descriptor = descriptor ∧
    (self.tenantId = Uuid.nil ∨ Resolved seen self)

theorem Admitted.mono {seen seen' : Event signature → Prop} {descriptor : PeerDescriptor}
    (admitted : Admitted seen descriptor) (more : ∀ e, seen e → seen' e) :
    Admitted seen' descriptor := by
  obtain ⟨self, registered, same, enrolled⟩ := admitted
  refine ⟨self, more _ registered, same, enrolled.imp_right ?_⟩
  rintro ⟨key, info, named, resolved, valid⟩
  exact ⟨key, info, named, more _ resolved, valid⟩

section Handshake

variable {A : (a : Action) → a.Answer → Prop} {E : Action → Prop} (cfg : Config) (conn : ConnId)

theorem resolveEnrollmentFull_resolved (quiet : ∀ a : Action, a.Quiet → E a)
    (managed : cfg.enrollment = .managed) (deviceId : Uuid) (publicKey : PublicKey) :
    (resolveEnrollmentFull cfg deviceId publicKey).Upholds A E (fun enrolled => ∃ info,
      A (.enrollmentLookup deviceId publicKey) (.ok (some info)) ∧ info.revoked = false ∧
        info.tenantId = enrolled.1) := by
  rw [resolveEnrollmentFull, managed]
  refine Upholds.perform_bind (quiet _ (by trivial)) fun answer told => ?_
  refine (liftExcept_upholds _ _).bind fun found same => ?_
  subst same
  refine (orFail_upholds _ _).bind fun info present => ?_
  subst present
  refine (require_upholds _ _).bind fun _ valid => ?_
  exact ⟨info, told, by simpa using valid, rfl⟩

theorem acceptPeer_registers (quiet : ∀ a : Action, a.Quiet → E a) {descriptor : PeerDescriptor}
    {publicKey : Option PublicKey} {tenantId accountId : Uuid} {welcome : String}
    (admits : Admits A E conn descriptor publicKey tenantId accountId) :
    (acceptPeer cfg conn descriptor publicKey tenantId accountId welcome).Upholds A E
      (fun flow => ∀ d, flow = .next (some d) → d = descriptor ∧
        A (.insertPeer ⟨descriptor, conn, publicKey, tenantId, accountId, 0⟩) true) := by
  refine (register_upholds cfg conn admits.insert admits.record admits.member).attempt.bind
    fun registered entered => ?_
  cases registered with
  | error e => exact (replyError_upholds conn quiet _ _).bind fun _ _ d left => nomatch left
  | ok u =>
      refine Upholds.perform_bind (quiet _ (by trivial)) fun _ _ => ?_
      refine (broadcastPresence_upholds cfg (admits.announce entered)).bind fun _ _ d next => ?_
      cases next
      exact ⟨rfl, entered⟩

/-- Actions that are neither a share code nor the removal of a grant. -/
def HandsOff : Action → Prop
  | .insertShareLink _ _ | .removePairing _ _ => False
  | _ => True

theorem handsOff_of_quiet (a : Action) (quiet : a.Quiet) : HandsOff a := by
  cases a
  case insertShareLink => exact quiet.elim
  case removePairing => exact quiet.elim
  all_goals trivial

theorem handsOff_of_ordinary (a : Action) (ordinary : a.Ordinary) : HandsOff a := by
  cases a
  case insertShareLink => exact ordinary.elim
  case removePairing => exact ordinary.elim
  all_goals trivial

theorem admits_handsOff (descriptor : PeerDescriptor) (publicKey : Option PublicKey)
    (tenantId accountId : Uuid) :
    Admits A HandsOff conn descriptor publicKey tenantId accountId :=
  ⟨trivial, fun _ => trivial, trivial, fun _ => ⟨trivial, trivial⟩⟩

theorem signedHello_admitted (managed : cfg.enrollment = .managed) (signed : SignedHello)
    (seen : Event signature → Prop) :
    (signedHello cfg conn signed).Upholds (fun a r => seen ⟨a, r⟩) HandsOff
      (fun flow => ∀ d, flow = .next (some d) → Admitted seen d) := by
  have quiet : ∀ a : Action, a.Quiet → HandsOff a := handsOff_of_quiet
  have refused (code text : String) : (do replyError conn code text; return Flow.leave : Proc
      Flow).Upholds (fun a r => seen ⟨a, r⟩) HandsOff
        (fun flow => ∀ d, flow = .next (some d) → Admitted seen d) :=
    (replyError_upholds conn quiet _ _).bind fun _ _ d left => nomatch left
  unfold signedHello
  dsimp only
  split
  · exact refused _ _
  · refine (resolveEnrollmentFull_resolved cfg quiet managed _ _).attempt.bind
      fun enrolled known => ?_
    cases enrolled with
    | ok enrollment =>
        obtain ⟨info, told, valid, same⟩ := known
        refine (acceptPeer_registers cfg conn quiet (admits_handsOff conn _ _ _ _)).mono
          (fun _ _ h => h) (fun _ h => h) fun flow registers d next => ?_
        obtain ⟨rfl, registered⟩ := registers d next
        exact ⟨_, registered, rfl, .inr ⟨_, info, rfl, told, valid, same⟩⟩
    | error e =>
        dsimp only
        split
        · refine (acceptPeer_registers cfg conn quiet (admits_handsOff conn _ _ _ _)).mono
            (fun _ _ h => h) (fun _ h => h) fun flow registers d next => ?_
          obtain ⟨rfl, registered⟩ := registers d next
          exact ⟨_, registered, rfl, .inl rfl⟩
        · exact refused _ _

/-- A managed server registers nobody by an unsigned hello. -/
theorem hello_refused (managed : cfg.enrollment = .managed) (descriptor : PeerDescriptor) :
    (hello cfg conn descriptor).Upholds A HandsOff (fun flow => flow = .leave) := by
  have quiet : ∀ a : Action, a.Quiet → HandsOff a := handsOff_of_quiet
  unfold hello
  split
  · exact (replyError_upholds conn quiet _ _).bind fun _ _ => rfl
  · exact (replyError_upholds conn quiet _ _).bind fun _ _ => rfl

end Handshake

/-! ## What a connection does -/

/-- Authority is needed for what is done for a host, if all that was read fits. -/
def Entitled (owner : Uuid → Owner) (past : List (Event signature)) (a : Action) : Prop :=
  (∀ e ∈ past, Sound owner e.action e.answer) →
    match a with
    | .insertShareLink _ entry => Authorised past entry.hostPeerId
    | .removePairing h _ => Authorised past h
    | _ => True

theorem entitled_of_handsOff {owner : Uuid → Owner} {past : List (Event signature)} {a : Action}
    (handsOff : HandsOff a) : Entitled owner past a := by
  cases a
  case insertShareLink => exact handsOff.elim
  case removePairing => exact handsOff.elim
  all_goals exact fun _ => trivial

section Connection

variable {owner : Uuid → Owner} {past : List (Event signature)} {peer : PeerDescriptor}
  {h : Uuid}

theorem justified_handsOff {ε α : Type} {Q : α → Prop} {p : Program signature ε α}
    (handsOff : p.Upholds (fun _ _ => True) HandsOff Q) :
    p.Justified (Entitled owner) (fun later a => past ⊆ later ∧ Q a) past :=
  handsOff.justified fun _ _ _ => entitled_of_handsOff

/-- A connection on the device of a host that it has just read is authorised. -/
theorem authorised_of_device {host : ConnectedPeer}
    (admitted : Admitted (fun e => e ∈ past) peer)
    (sound : ∀ e ∈ past, Sound owner e.action e.answer) (fits : Fits owner host)
    (device : host.descriptor.deviceId = peer.deviceId)
    (shown : LastShown host.descriptor.peerId host.tenantId past) :
    Authorised past host.descriptor.peerId := by
  obtain ⟨self, registered, rfl, enrolled⟩ := admitted
  refine ⟨self, registered, ?_⟩
  have own : Fits owner self := sound _ registered
  replace own := own.1
  replace fits := fits.1
  rw [device] at fits
  cases owned : owner self.descriptor.deviceId with
  | single id =>
      rw [owned] at own fits
      exact .inl (own.trans fits.symm)
  | enrolled t =>
      rw [owned] at own fits
      refine .inr ⟨enrolled.resolve_left fun none => own.1 (own.2.symm.trans none), ?_⟩
      rw [own.2, ← fits.2]
      exact shown

theorem Admitted.later {more : List (Event signature)}
    (admitted : Admitted (fun e => e ∈ past) peer) : Admitted (fun e => e ∈ past ++ more) peer :=
  admitted.mono fun _ old => List.mem_append_left more old

theorem Authorised.append {later : List (Event signature)} (authorised : Authorised past h)
    (unread : ∀ e ∈ later, ¬ Reads h e.action) : Authorised (past ++ later) h := by
  obtain ⟨self, registered, own | ⟨⟨key, info, named, told, valid⟩, shown⟩⟩ := authorised
  · exact ⟨self, List.mem_append_left _ registered, .inl own⟩
  · refine ⟨self, List.mem_append_left _ registered,
      .inr ⟨⟨key, info, named, List.mem_append_left _ told, valid⟩, ?_⟩⟩
    obtain ⟨before, reading, after, rfl, shows, since⟩ := shown
    refine ⟨before, reading, after ++ later, by simp, shows, fun e member => ?_⟩
    rcases List.mem_append.mp member with old | new
    · exact since e old
    · exact unread e new

theorem orFail_justified {ε α : Type} {cause : List (Event signature) → Action → Prop} (e : ε)
    (o : Option α) :
    (orFail e o).Justified cause (fun later a => later = past ∧ o = some a) past := by
  cases o with
  | none => trivial
  | some a => exact ⟨rfl, rfl⟩

theorem require_justified {ε : Type} {cause : List (Event signature) → Action → Prop} (b : Bool)
    (e : ε) : (require b e).Justified cause (fun later _ => later = past ∧ b = true) past := by
  cases b with
  | false => trivial
  | true => exact ⟨rfl, rfl⟩

theorem shareLinkHost_justified (admitted : Admitted (fun e => e ∈ past) peer) :
    (shareLinkHost peer).Justified (Entitled owner) (fun later host =>
      (∀ e ∈ later, Sound owner e.action e.answer) → Authorised later host.1) past := by
  unfold shareLinkHost
  split
  · obtain ⟨self, registered, rfl, -⟩ := admitted
    exact fun _ => ⟨self, registered, .inl rfl⟩
  · refine ⟨entitled_of_handsOff trivial, fun peers => ?_⟩
    refine (orFail_justified _ _).bind fun later host known => ?_
    obtain ⟨rfl, found⟩ := known
    have matching := List.find?_some found
    have listed := List.mem_of_find?_eq_some found
    simp only [Bool.and_eq_true, decide_eq_true_eq] at matching
    intro sound
    have reading := sound ⟨.listPeers, peers⟩ (List.mem_append_right _ (.head _))
    refine authorised_of_device admitted.later sound (reading host listed) matching.2 ?_
    exact ⟨past, ⟨.listPeers, peers⟩, [], rfl, ⟨host, listed, rfl, rfl⟩, by simp⟩

/-- Between the choice of the host and the share code the connection reads the
clock and draws the code. -/
theorem createShareLink_justified {ttlSecs : Nat} {permissions : SessionPermissions}
    (admitted : Admitted (fun e => e ∈ past) peer) :
    (createShareLink peer ttlSecs permissions).Justified (Entitled owner) (fun _ _ => True)
      past := by
  refine (shareLinkHost_justified admitted).bind fun later (hostPeerId, hostLabel) authorised => ?_
  refine ⟨entitled_of_handsOff trivial, fun now => ?_⟩
  refine ⟨entitled_of_handsOff trivial, fun raw => ⟨fun sound => ?_, fun _ => trivial⟩⟩
  rw [List.append_assoc] at sound ⊢
  refine (authorised fun e member => sound e (List.mem_append_left _ member)).append ?_
  intro e member
  rcases List.mem_cons.mp member with rfl | member
  · exact not_or_intro nofun nofun
  · obtain rfl := List.mem_singleton.mp member
    exact not_or_intro nofun nofun

theorem mayRevoke_justified (admitted : Admitted (fun e => e ∈ past) peer) :
    (mayRevoke peer h).Justified (Entitled owner) (fun later allowed => allowed = true →
      (∀ e ∈ later, Sound owner e.action e.answer) → Authorised later h) past := by
  unfold mayRevoke
  split
  case isTrue client =>
    refine ⟨entitled_of_handsOff trivial, fun found allowed sound => ?_⟩
    rcases Bool.or_eq_true_iff.mp allowed with own | device
    · obtain ⟨self, registered, rfl, -⟩ := admitted
      exact ⟨self, List.mem_append_left _ registered, .inl (of_decide_eq_true own)⟩
    · have reading := sound ⟨.getPeer h, found⟩ (List.mem_append_right _ (.head _))
      replace device := of_decide_eq_true device
      cases found with
      | none =>
          -- an absent host counts as the nil device, which no client declares
          obtain ⟨self, registered, rfl, -⟩ := admitted
          have own := sound _ (List.mem_append_left _ registered)
          exact absurd device (own.2 client)
      | some host =>
          obtain ⟨rfl, fits⟩ := reading
          refine authorised_of_device admitted.later sound fits device.symm ?_
          exact ⟨past, ⟨.getPeer _, some host⟩, [], rfl, ⟨rfl, rfl⟩, by simp⟩
  case isFalse =>
    intro allowed _
    obtain ⟨self, registered, rfl, -⟩ := admitted
    exact ⟨self, registered, .inl (of_decide_eq_true allowed)⟩

theorem removePairing_justified {c : Uuid}
    (authorised : (∀ e ∈ past, Sound owner e.action e.answer) → Authorised past h) :
    (removePairing h c).Justified (Entitled owner) (fun _ _ => True) past := by
  refine ⟨authorised, fun (snapshot, removed) => ?_⟩
  cases removed with
  | false => trivial
  | true =>
      refine Justified.forget (justified_handsOff (Q := fun _ => True) ?_)
      refine Upholds.perform_bind trivial fun written _ => ?_
      exact (liftExcept_upholds _ _).bind fun _ _ => trivial

theorem revokePairing_justified (cfg : Config) {c : Uuid}
    (admitted : Admitted (fun e => e ∈ past) peer) :
    (revokePairing cfg peer h c).Justified (Entitled owner) (fun _ _ => True) past := by
  have quiet : ∀ a : Action, a.Quiet → HandsOff a := handsOff_of_quiet
  refine (mayRevoke_justified admitted).bind fun later allowed authorised => ?_
  refine (require_justified _ _).bind fun later' _ ⟨same, yes⟩ => ?_
  subst same yes
  refine (removePairing_justified (authorised rfl)).bind fun _ removed _ => ?_
  refine Justified.forget (justified_handsOff (Q := fun _ => True) ?_)
  refine (require_upholds _ _).bind fun _ _ => ?_
  refine Upholds.perform_bind trivial fun _ _ => ?_
  refine Upholds.bind (ignore_upholds (sendTo_upholds cfg quiet (by trivial))) fun _ _ => ?_
  exact ignore_upholds (sendTo_upholds cfg quiet (by trivial))

variable (cfg : Config) (conn : ConnId)

/-- Going on with a registered peer, or leaving. -/
def StaysAdmitted (later : List (Event signature)) (flow : Flow) : Prop :=
  ∀ d, flow = .next (some d) → Admitted (fun e => e ∈ later) d

/-- An arm of a registered peer that stays in the loop. -/
theorem stay_justified {arm : Proc Unit} (admitted : Admitted (fun e => e ∈ past) peer)
    (justified : arm.Justified (Entitled owner) (fun later _ => past ⊆ later) past) :
    (stay peer arm).Justified (Entitled owner) StaysAdmitted past := by
  refine justified.bind fun later _ more d next => ?_
  cases next
  exact admitted.mono fun _ old => more old

theorem onCreateShareLink_justified {ttlSecs : Nat} {permissions : SessionPermissions}
    (admitted : Admitted (fun e => e ∈ past) peer) :
    (onCreateShareLink cfg peer ttlSecs permissions).Justified (Entitled owner)
      (fun later _ => past ⊆ later) past := by
  have quiet : ∀ a : Action, a.Quiet → HandsOff a := handsOff_of_quiet
  refine (createShareLink_justified admitted).attempt.grows.bind fun later answer known => ?_
  have reported {p : Proc Unit} (told : p.Upholds (fun _ _ => True) HandsOff (fun _ => True)) :
      p.Justified (Entitled owner) (fun later _ => past ⊆ later) later :=
    (justified_handsOff told).imp fun _ _ more => List.Subset.trans known.1 more.1
  cases answer with
  | ok link => exact reported (ignore_upholds (sendTo_upholds cfg quiet (by trivial)))
  | error e => exact reported (sendError_upholds cfg quiet _ _ _)

theorem onRevokePairing_justified {c : Uuid} (admitted : Admitted (fun e => e ∈ past) peer) :
    (onRevokePairing cfg peer h c).Justified (Entitled owner) (fun later _ => past ⊆ later)
      past := by
  have quiet : ∀ a : Action, a.Quiet → HandsOff a := handsOff_of_quiet
  refine (revokePairing_justified cfg admitted).attempt.grows.bind fun later answer known => ?_
  cases answer with
  | ok u => exact known.1
  | error e =>
      exact (justified_handsOff (sendError_upholds cfg quiet _ _ _)).imp
        fun _ _ more => List.Subset.trans known.1 more.1

/-- Before the handshake nothing is done for a host. -/
theorem handshake_justified (managed : cfg.enrollment = .managed) (message : ClientMessage) :
    (handleMessage cfg conn none message).Justified (Entitled owner) StaysAdmitted past := by
  have quiet : ∀ a : Action, a.Quiet → HandsOff a := handsOff_of_quiet
  have left {p : Proc Flow} (h : p.Upholds (fun _ _ => True) HandsOff (fun flow => flow = .leave)) :
      p.Justified (Entitled owner) StaysAdmitted past :=
    (justified_handsOff h).imp fun _ _ known d next => nomatch known.2.symm.trans next
  cases message with
  | hello descriptor => exact left (hello_refused cfg conn managed descriptor)
  | signedHello signed =>
      exact Program.justified_of_seen
        (fun seen _ => signedHello_admitted cfg conn managed signed seen)
        fun _ _ => entitled_of_handsOff
  | _ => exact left ((replyError_upholds conn quiet _ _).bind fun _ _ => rfl)

theorem handleMessage_justified (message : ClientMessage)
    (admitted : Admitted (fun e => e ∈ past) peer) :
    (handleMessage cfg conn (some peer) message).Justified (Entitled owner) StaysAdmitted past := by
  by_cases acts : message.ActsForHost
  · cases message with
    | createShareLink ttl permissions =>
        exact stay_justified admitted (onCreateShareLink_justified cfg admitted)
    | revokePairing h c => exact stay_justified admitted (onRevokePairing_justified cfg admitted)
    | _ => exact acts.elim
  · refine (justified_handsOff ((handleMessage_ordinary cfg conn acts).mono (fun _ _ h => h)
      handsOff_of_ordinary fun _ h => h)).imp fun later flow known d next => ?_
    rcases known.2 with same | ⟨exit, -⟩
    · cases same.symm.trans next
      exact admitted.mono fun _ old => known.1 old
    · exact nomatch exit.symm.trans next

theorem handleFrame_justified (managed : cfg.enrollment = .managed)
    {registered : Option PeerDescriptor} (frame : Frame)
    (admitted : ∀ d, registered = some d → Admitted (fun e => e ∈ past) d) :
    (handleFrame cfg conn registered frame).Justified (Entitled owner) StaysAdmitted past := by
  have stays : StaysAdmitted past (.next registered) := by
    rintro d next
    exact admitted d (Flow.next.inj next)
  have replied (code text : String) : (do
      replyError conn code text
      return .next registered : Proc Flow).Justified (Entitled owner) StaysAdmitted past := by
    refine ⟨entitled_of_handsOff trivial, fun _ d next => ?_⟩
    exact (stays d next).later
  cases frame with
  | readError | close => exact fun d left => nomatch left
  | ping | pong => exact stays
  | binary => exact replied _ _
  | text payload =>
      simp only [handleFrame]
      cases cfg.decodeMessage payload with
      | error e => exact replied _ _
      | ok message =>
          cases registered with
          | none => exact handshake_justified cfg conn managed message
          | some peer => exact handleMessage_justified cfg conn message (admitted peer rfl)

theorem closeSocket_justified (registered : Option PeerDescriptor) :
    (closeSocket cfg registered).Justified (Entitled owner) (fun _ _ => True) past := by
  cases registered with
  | none => trivial
  | some peer =>
      exact Justified.forget (justified_handsOff (disconnect_upholds cfg handsOff_of_quiet trivial
        trivial trivial fun _ _ => ⟨trivial, trivial⟩))

/-- Over the frames of a connection, what it has registered stays in its past. -/
theorem handleSocket_justified (managed : cfg.enrollment = .managed) (frames : List Frame)
    {registered : Option PeerDescriptor}
    (admitted : ∀ d, registered = some d → Admitted (fun e => e ∈ past) d) :
    (handleSocket cfg conn registered frames).Justified (Entitled owner) (fun _ _ => True)
      past := by
  induction frames generalizing registered past with
  | nil => exact closeSocket_justified cfg registered
  | cons frame frames ih =>
      refine (handleFrame_justified cfg conn managed frame admitted).bind
        fun later flow stays => ?_
      cases flow with
      | next registered => exact ih fun d same => stays d (congrArg Flow.next same)
      | leave => exact closeSocket_justified cfg registered
      | exit => trivial

theorem task_justified (managed : cfg.enrollment = .managed) (task : Task) :
    (task.body cfg).Justified (Entitled owner) (fun _ _ => True) [] := by
  cases task with
  | socket conn frames => exact handleSocket_justified cfg conn managed frames nofun
  | listener self =>
      exact Justified.forget (justified_handsOff (clusterListener_upholds trivial
        (fun _ _ _ => trivial) fun _ _ _ => trivial))

end Connection

/-! ## Runs -/

/-- What a connection has seen fits, what it has done for hosts it was entitled
to, and so is what is left. -/
structure Behaves (owner : Uuid → Owner) (past : List (Event signature))
    (t : Thread signature Empty Task) : Prop where
  sound : ∀ e ∈ past, Sound owner e.action e.answer
  entitled : List.Along (fun past e => ∀ h, ActsFor h e.action e.answer → Authorised past h) []
    past
  rest : t.rest.Justified (Entitled owner) (fun _ _ => True) past

theorem Behaves.act {owner : Uuid → Owner} {past : List (Event signature)} {task : Task}
    {a : Action} {k : a.Answer → Proc Unit} (behaves : Behaves owner past ⟨task, .act a k⟩)
    {r : a.Answer} (sound : Sound owner a r) :
    Behaves owner (past ++ [⟨a, r⟩]) ⟨task, k r⟩ := by
  refine ⟨fun e member => ?_, behaves.entitled.concat fun h acts => ?_, behaves.rest.2 r⟩
  · rcases List.mem_append.mp member with old | new
    · exact behaves.sound e old
    · obtain rfl := List.mem_singleton.mp new
      exact sound
  · have entitled := behaves.rest.1 behaves.sound
    cases a
    case insertShareLink code entry =>
      obtain rfl : entry.hostPeerId = h := acts
      exact entitled
    case removePairing hostPeerId clientPeerId =>
      obtain ⟨rfl, -⟩ := acts
      exact entitled
    all_goals exact acts.elim

theorem behaves_move {cfg : Config} {owner : Uuid → Owner}
    {past : Nat → List (Event signature)} {P : SocketPool} {m : SocketMove}
    (holds : System.HoldsSince (AllFit owner) (Behaves owner) past P)
    (managed : cfg.enrollment = .managed) (owned : Owned owner P m) :
    System.HoldsSince (AllFit owner) (Behaves owner)
      (fun i => past i ++ (sockets cfg).performedBy i P m) ((sockets cfg).move P m) := by
  refine holds.move (sockets cfg) ?_ ?_ ?_
  · rintro task rfl
    exact ⟨by simp, trivial, task_justified cfg managed task⟩
  · rintro x rfl id peer found
    exact holds.shared id peer (by simpa using found)
  · rintro i task a k rfl found
    have registers (peer : ConnectedPeer) (same : a = .insertPeer peer) :
        P.shared.state.peers.lookup peer.descriptor.peerId = none → Fits owner peer :=
      owned peer (by rw [Pool.next?_step found, same]; rfl)
    exact ⟨holds.shared.exec registers,
      (holds.threads i _ found).act (holds.shared.sound registers)⟩

theorem onlyOwners_of_owned {cfg : Config} {owner : Uuid → Owner} {s : Server}
    {moves : List SocketMove} (managed : cfg.enrollment = .managed)
    (start : s.state.peers = ∅) (owned : (sockets cfg).Along (Owned owner) ⟨s, []⟩ moves) :
    OnlyOwners cfg ⟨s, []⟩ moves := by
  have initial : System.HoldsSince (AllFit owner) (Behaves owner) (fun _ => [])
      (⟨s, []⟩ : SocketPool) := by
    refine ⟨fun id peer found => ?_, by simp, fun _ _ => rfl⟩
    simp [start] at found
  have final := System.HoldsSince.schedule (sockets cfg)
    (fun _ _ _ ok holds => behaves_move holds managed ok) initial owned
  intro i past e later h split acts
  rcases found : ((sockets cfg).schedule ⟨s, []⟩ moves).threads[i]? with _ | t
  · have nothing := final.uncalled i (List.getElem?_eq_none_iff.mp found)
    simp [split] at nothing
  · have entitled := (final.threads i t found).entitled
    rw [List.nil_append, split] at entitled
    exact List.along_iff.mp entitled past e later rfl h acts

/-! ## Two clients on the device of a host -/

instance : (owner : Owner) → (peer : ConnectedPeer) → Decidable (owner.Covers peer)
  | .enrolled tenantId, peer =>
      inferInstanceAs (Decidable (tenantId ≠ Uuid.nil ∧ peer.tenantId = tenantId))
  | .single peerId, peer => inferInstanceAs (Decidable (peer.descriptor.peerId = peerId))

instance (owner : Uuid → Owner) (peer : ConnectedPeer) : Decidable (Fits owner peer) :=
  inferInstanceAs (Decidable (_ ∧ _))

instance (owner : Uuid → Owner) (P : SocketPool) (m : SocketMove) : Decidable (Owned owner P m) :=
  inferInstanceAs (Decidable (∀ peer ∈ (P.next? m).bind Action.newPeer?, _ → _))

namespace Sample

/-- A peer on the device 1. -/
def onDevice (peerId : Uuid) (role : PeerRole) : PeerDescriptor :=
  ⟨1, peerId, "device", role, .linux, {}⟩

def signedHelloText (peerId : Uuid) (role : String) (key : Nat) : String :=
  "\x7b\"type\":\"signed_hello\",\"payload\":\x7b\"descriptor\":\x7b" ++
    "\"device_id\":\"00000000-0000-0000-0000-000000000001\"," ++
    "\"peer_id\":\"" ++ peerId.toText ++ "\",\"device_name\":\"device\"," ++
    "\"role\":\"" ++ role ++ "\",\"os\":\"linux\",\"capabilities\":\x7b" ++
    "\"transports\":[],\"capture\":[],\"encoders\":[],\"decoders\":[],\"notes\":[]\x7d\x7d," ++
    "\"public_key\":[" ++ String.join (List.replicate 31 "0,") ++ toString key ++ "]," ++
    "\"signature\":[]\x7d\x7d"

def shareText : String :=
  "\x7b\"type\":\"create_share_link\",\"payload\":\x7b\"ttl_secs\":0\x7d\x7d"

/-- The messages of a host, and of a client with the key 6. -/
def sharing : Config :=
  { managed with
    decodeMessage := fun text =>
      if text = signedHelloText 1 "host" 5 then .ok (.signedHello ⟨onDevice 1 .host, 5, []⟩)
      else if text = signedHelloText 2 "client" 6 then
        .ok (.signedHello ⟨onDevice 2 .client, 6, []⟩)
      else if text = shareText then .ok (.createShareLink 0 {})
      else .error "expected value at line 1 column 1" }

/-- The device 1 is enrolled with these keys, in the tenant 3. -/
def enrolledWith (keys : List PublicKey) : Server :=
  let lookup (deviceId : Uuid) (key : PublicKey) :=
    if deviceId = 1 ∧ key ∈ keys then some ⟨3, 0, false⟩ else none
  { fresh [] with env := { env with lookup := fun deviceId key => .ok (lookup deviceId key) } }

/-- The host connects, and then a client that makes a share code. -/
def sharedByClient : List SocketMove :=
  .call (.socket 0 [.text (signedHelloText 1 "host" 5)]) :: List.replicate 4 (.step 0) ++
    .call (.socket 1 [.text (signedHelloText 2 "client" 6), .text shareText]) ::
      List.replicate 8 (.step 1)

end Sample

theorem enrolledClient_onlyOwners :
    ((sockets Sample.sharing).schedule ⟨Sample.enrolledWith [5, 6], []⟩
        Sample.sharedByClient).shared.state.shareLinks.keys = ["00000000"] ∧
      OnlyOwners Sample.sharing ⟨Sample.enrolledWith [5, 6], []⟩ Sample.sharedByClient := by
  have owned : (sockets Sample.sharing).Along (Owned fun _ => .enrolled 3)
      ⟨Sample.enrolledWith [5, 6], []⟩ Sample.sharedByClient := by
    decide +kernel
  exact ⟨by decide +kernel, onlyOwners_of_owned rfl rfl owned⟩

/-- An event without its answer, except whether a lookup resolved. -/
def Sample.gist (e : Event signature) : Action × Bool :=
  (e.action, match e with
    | ⟨.enrollmentLookup _ _, .ok (some _)⟩ => true
    | _ => false)

/-- The key of the client is not enrolled, and it makes a share code for the host. -/
theorem unresolvedClient_not_onlyOwners :
    ¬ OnlyOwners Sample.sharing ⟨Sample.enrolledWith [5], []⟩ Sample.sharedByClient := by
  intro only
  have gists : ((sockets Sample.sharing).ownTrace 1 ⟨Sample.enrolledWith [5], []⟩
      Sample.sharedByClient).map Sample.gist =
        [(.enrollmentLookup 1 6, false),
          (.insertPeer ⟨Sample.onDevice 2 .client, 1, some 6, 0, 0, 0⟩, false),
          (.reply 1 (.welcome ⟨2, "signaling connected"⟩), false),
          (.broadcastLocal 2 0 (.presence ⟨Sample.onDevice 2 .client, true⟩), false),
          (.listPeers, false), (.now, false), (.randomCode, false)] ++
        [(.insertShareLink "00000000" ⟨1, "device", {}, 901000⟩, false)] := by
    decide +kernel
  obtain ⟨past, last, split, before, here⟩ := List.map_eq_append_iff.mp gists
  obtain ⟨e, rfl, acted⟩ := List.map_eq_singleton_iff.mp here
  have acts : ActsFor 1 e.action e.answer := by
    obtain ⟨a, r⟩ := e
    obtain rfl : a = _ := congrArg Prod.fst acted
    rfl
  obtain ⟨self, registered, own⟩ := only 1 past e [] 1 split acts
  have gist := List.mem_map_of_mem (f := Sample.gist) registered
  rw [before] at gist
  obtain rfl : self = ⟨Sample.onDevice 2 .client, 1, some 6, 0, 0, 0⟩ := by
    simpa [Sample.gist] using gist
  rcases own with host | ⟨⟨key, info, named, told, -⟩, -⟩
  · exact absurd host (by decide)
  · have resolved := List.mem_map_of_mem (f := Sample.gist) told
    rw [before] at resolved
    simp [Sample.gist] at resolved

end Qubox.Signaling
