import Mathlib.Data.List.Sort
import Qubox.Host.Handler
import Qubox.Library.Answers
import Qubox.Library.Stepping
import Qubox.Signaling.State

/-!
# Operator consent

The host agent lists pairing requests and sessions for an operator, who reads the
lists at one moment and answers at another. An answer carries an id and nothing
else, and the client chooses the id. Three tasks pass it on: the handler of the
HTTP request, a task that forwards it, and the signaling server or the gate that
acts on it. Each step below is what one of them does up to its next await; what an
answer was shown travels with it as a proof-only field.

The host handles one message at a time, so at most one gate waits for the
operator, and nothing else is handled while it does.
-/

namespace Qubox.Host

open Signaling

/-! ## The lists and the answers -/

structure PendingPairingView where
  requestId : Uuid
  clientPeerId : Uuid
  clientDeviceId : Uuid
  clientName : String
  clientLabel : String
  receivedAtUnixMs : Nat
  deriving DecidableEq

structure PendingSessionView where
  sessionId : Uuid
  clientPeerId : Uuid
  clientName : String
  receivedAtUnixMs : Nat
  deriving DecidableEq

/-- An entry of the list of sessions. `gate` is proof-only: the gate it is for. -/
structure SessionEntry where
  view : PendingSessionView
  gate : Nat
  deriving DecidableEq

/-- A decision of the operator. `shown` is proof-only: the client that the entry
showed on which the operator decided. -/
structure Answer where
  id : Uuid
  approved : Bool
  shown : Uuid
  deriving DecidableEq

/-- A client that got in, with the answer on the strength of which it did. -/
structure Admission where
  id : Uuid
  client : Uuid
  answer : Answer
  deriving DecidableEq

/-- The operator was shown this client under this id, and approved. -/
def Admission.Consented (admission : Admission) : Prop :=
  admission.answer.id = admission.id ∧ admission.answer.shown = admission.client

instance (admission : Admission) : Decidable admission.Consented :=
  inferInstanceAs (Decidable (_ ∧ _))

/-- The keys and clients of the approvals among some answers. -/
def approvals (answers : List Answer) : List (Uuid × Uuid) :=
  (answers.filter (·.approved)).map fun answer => (answer.id, answer.shown)

theorem mem_approvals {answers : List Answer} {answer : Answer} (member : answer ∈ answers)
    (approved : answer.approved = true) : (answer.id, answer.shown) ∈ approvals answers :=
  List.mem_map.mpr ⟨answer, List.mem_filter.mpr ⟨member, approved⟩, rfl⟩

theorem approvals_subset {answers answers' : List Answer} (fewer : answers' ⊆ answers) :
    approvals answers' ⊆ approvals answers :=
  List.map_subset _ (List.filter_subset _ fewer)

theorem approvals_cons (answer : Answer) (answers : List Answer) :
    approvals (answer :: answers) =
      if answer.approved then (answer.id, answer.shown) :: approvals answers
      else approvals answers := by
  rw [approvals, List.filter_cons]
  split <;> rfl

/-! ## Pairings -/

/-- What of the server, the list and the channels an approval of a pairing passes
through. `prompting` are requests that the server has stored and not yet sent on. -/
structure PairingDesk where
  pendingPairings : AList (fun _ : Uuid => PendingPairing) := ∅
  prompting : List PendingPairing := []
  pending : AList (fun _ : Uuid => PendingPairingView) := ∅
  /-- What the operator has read. -/
  read : List PendingPairingView := []
  decisions : List Answer := []
  /-- Requests to `/decide` that have sent their answer and not removed its entry. -/
  deciding : List Uuid := []
  /-- Decisions on their way to the server, with the answer of the operator. -/
  outbox : List (PairingDecision × Option Answer) := []
  approved : List Admission := []

inductive PairingStep where
  /-- The server stores a request, for this host or for another. -/
  | request (pending : PendingPairing)
  /-- A decision of another peer takes the pending request of the id. -/
  | taken (requestId : Uuid)
  | reads
  /-- A click on an entry that was read. -/
  | decides (view : PendingPairingView) (approved : Bool)
  | removes (requestId : Uuid)
  /-- The decision task. -/
  | forwards
  /-- `decide_pairing`. The cloud may deny what the host approves. -/
  | judges (allowed : Bool)
  deriving DecidableEq

namespace PairingDesk

variable (selfPeerId : Uuid) (ownerAccountId : Option Uuid)

/-- The client whose pending request for this host is stored under the id. -/
def holder (desk : PairingDesk) (requestId : Uuid) : Option Uuid :=
  (desk.pendingPairings.lookup requestId).bind fun pending =>
    if pending.hostPeerId = selfPeerId then some pending.client.peerId else none

/-- The answers on their way. -/
def answers (desk : PairingDesk) : List Answer :=
  desk.decisions ++ desk.outbox.filterMap Prod.snd

/-- `PairingUiState::push`. -/
def push (desk : PairingDesk) (request : PairingRequested) (now : Nat) : PairingDesk :=
  { desk with
    pending := desk.pending.insert request.requestId
      ⟨request.requestId, request.client.peerId, request.client.deviceId,
        request.client.deviceName, request.clientLabel, now⟩ }

/-- The `PairingRequested` arm, without auto-approval. -/
def handle (desk : PairingDesk) (request : PairingRequested) (now : Nat) : PairingDesk :=
  if ownerAccountId = some request.client.deviceId then
    { desk with outbox := desk.outbox ++ [(⟨request.requestId, true⟩, none)] }
  else desk.push request now

/-- `list_pending`. -/
def list (desk : PairingDesk) : List PendingPairingView :=
  desk.pending.values.insertionSort fun a b => a.receivedAtUnixMs ≤ b.receivedAtUnixMs

def step (desk : PairingDesk) : PairingStep → Option PairingDesk
  | .request pending =>
      let desk := { desk with
        pendingPairings := desk.pendingPairings.insert pending.requestId pending }
      some (if pending.hostPeerId = selfPeerId then
        { desk with prompting := desk.prompting ++ [pending] }
      else desk)
  | .taken requestId =>
      some { desk with pendingPairings := desk.pendingPairings.erase requestId }
  | .reads => some { desk with read := desk.list }
  | .decides view approved =>
      if view ∈ desk.read then some { desk with
        decisions := desk.decisions ++ [⟨view.requestId, approved, view.clientPeerId⟩]
        deciding := desk.deciding ++ [view.requestId] }
      else none
  | .removes requestId =>
      if requestId ∈ desk.deciding then some { desk with
        deciding := desk.deciding.erase requestId
        pending := desk.pending.erase requestId }
      else none
  | .forwards =>
      match desk.decisions with
      | [] => none
      | answer :: rest => some { desk with
          decisions := rest
          outbox := desk.outbox ++ [(⟨answer.id, answer.approved⟩, some answer)] }
  | .judges allowed =>
      match desk.outbox with
      | [] => none
      | (decision, answer) :: rest =>
          match desk.pendingPairings.lookup decision.requestId with
          | none => some { desk with outbox := rest }
          | some pending =>
              let desk := { desk with
                outbox := rest
                pendingPairings := desk.pendingPairings.erase decision.requestId }
              if pending.hostPeerId = selfPeerId ∧ decision.approved = true ∧ allowed = true then
                some { desk with approved := desk.approved ++ answer.toList.map fun answer =>
                  ⟨decision.requestId, pending.client.peerId, answer⟩ }
              else some desk

end PairingDesk

/-! ## Sessions -/

inductive GatePhase where
  /-- The decision is registered, the entry not yet listed. -/
  | registered
  | waiting
  /-- The wait is over without consent; `kill_session` is still to come. -/
  | shut
  deriving DecidableEq

/-- The gate of a session request. -/
structure OperatorGate where
  number : Nat
  requested : SessionRequested
  phase : GatePhase := .registered
  /-- What was sent into its channel. -/
  verdict : Option Answer := none
  deriving DecidableEq

structure SessionDesk where
  pendingSessions : AList (fun _ : Uuid => SessionEntry) := ∅
  read : List SessionEntry := []
  decisions : List Answer := []
  deciding : List Uuid := []
  /-- `pending_decisions`: the number of the gate whose channel is registered. -/
  pendingDecisions : AList (fun _ : Uuid => Nat) := ∅
  gate : Option OperatorGate := none
  gates : Nat := 0
  /-- The decision task has delivered and not yet removed the entry. -/
  unlisting : Option Uuid := none
  /-- Gates that have timed out. -/
  timedOut : List Nat := []
  admitted : List Admission := []

inductive SessionStep where
  /-- `push_session` and the start of the wait. -/
  | pushes (now : Nat)
  | reads
  | decides (entry : SessionEntry) (approved : Bool)
  | removes (sessionId : Uuid)
  /-- The decision task takes an answer and delivers it. -/
  | delivers
  | unlists
  | timesOut
  /-- The sending half is gone. -/
  | canceled
  | resumes
  /-- `kill_session` of a session that was refused. -/
  | kills
  /-- The idle watchdog or a signed message kills a session. -/
  | watchdog (sessionId : Uuid)
  deriving DecidableEq

namespace SessionDesk

/-- The client behind the channel that is registered under the id. -/
def holder (desk : SessionDesk) (sessionId : Uuid) : Option Uuid :=
  desk.gate.bind fun gate =>
    if desk.pendingDecisions.lookup sessionId = some gate.number then
      some gate.requested.client.peerId
    else none

/-- A session request whose toast is shown. -/
def register (desk : SessionDesk) (requested : SessionRequested) : SessionDesk :=
  { desk with
    gate := some { number := desk.gates, requested }
    gates := desk.gates + 1
    pendingDecisions := desk.pendingDecisions.insert requested.sessionId desk.gates }

def dropPending (desk : SessionDesk) (sessionId : Uuid) : SessionDesk :=
  { desk with pendingDecisions := desk.pendingDecisions.erase sessionId }

/-- `list_pending_sessions`. -/
def list (desk : SessionDesk) : List SessionEntry :=
  desk.pendingSessions.values.insertionSort fun a b =>
    a.view.receivedAtUnixMs ≤ b.view.receivedAtUnixMs

/-- `deliver.send`, which fails when the gate no longer waits. -/
def send (desk : SessionDesk) (number : Nat) (answer : Answer) : SessionDesk :=
  match desk.gate with
  | some gate =>
      if gate.number = number ∧ gate.phase ≠ .shut then
        { desk with gate := some { gate with verdict := some answer } }
      else desk
  | none => desk

def step (desk : SessionDesk) : SessionStep → Option SessionDesk
  | .pushes now =>
      match desk.gate with
      | some gate =>
          if gate.phase = .registered then some { desk with
            gate := some { gate with phase := .waiting }
            pendingSessions := desk.pendingSessions.insert gate.requested.sessionId
              ⟨⟨gate.requested.sessionId, gate.requested.client.peerId,
                gate.requested.client.deviceName, now⟩, gate.number⟩ }
          else none
      | none => none
  | .reads => some { desk with read := desk.list }
  | .decides entry approved =>
      if entry ∈ desk.read then some { desk with
        decisions := desk.decisions ++ [⟨entry.view.sessionId, approved, entry.view.clientPeerId⟩]
        deciding := desk.deciding ++ [entry.view.sessionId] }
      else none
  | .removes sessionId =>
      if sessionId ∈ desk.deciding then some { desk with
        deciding := desk.deciding.erase sessionId
        pendingSessions := desk.pendingSessions.erase sessionId }
      else none
  | .delivers =>
      if desk.unlisting.isSome then none
      else
        match desk.decisions with
        | [] => none
        | answer :: rest =>
            let desk := { desk with decisions := rest }
            match desk.pendingDecisions.lookup answer.id with
            | none => some desk
            | some number =>
                some { (desk.dropPending answer.id).send number answer with
                  unlisting := some answer.id }
  | .unlists =>
      match desk.unlisting with
      | some sessionId => some { desk with
          unlisting := none
          pendingSessions := desk.pendingSessions.erase sessionId }
      | none => none
  | .timesOut =>
      match desk.gate with
      | some gate =>
          if gate.phase = .waiting ∧ gate.verdict = none then some { desk with
            gate := some { gate with phase := .shut }
            timedOut := gate.number :: desk.timedOut }
          else none
      | none => none
  | .canceled =>
      match desk.gate with
      | some gate =>
          if gate.phase = .waiting ∧ gate.verdict = none ∧
              desk.pendingDecisions.lookup gate.requested.sessionId ≠ some gate.number then
            some { desk with gate := some { gate with phase := .shut } }
          else none
      | none => none
  | .resumes =>
      match desk.gate with
      | some gate =>
          match gate.verdict with
          | some answer =>
              if gate.phase = .waiting then
                if answer.approved then some { desk with
                  gate := none
                  admitted := desk.admitted ++
                    [⟨gate.requested.sessionId, gate.requested.client.peerId, answer⟩] }
                else some { desk with gate := some { gate with phase := .shut } }
              else none
          | none => none
      | none => none
  | .kills =>
      match desk.gate with
      | some gate =>
          if gate.phase = .shut then
            some { desk.dropPending gate.requested.sessionId with gate := none }
          else none
      | none => none
  | .watchdog sessionId => some (desk.dropPending sessionId)

end SessionDesk

/-! ## The host -/

structure ConsentHost where
  selfPeerId : Uuid
  ownerAccountId : Option Uuid

/-- The signaling socket and the two desks. -/
structure ConsentState where
  inbox : List ServerMessage := []
  pairings : PairingDesk := {}
  sessions : SessionDesk := {}

inductive ConsentStep where
  | pairing (step : PairingStep)
  | session (step : SessionStep)
  /-- The server sends one of the prompts it owes. -/
  | prompts (index : Nat)
  /-- The server sends any other message. -/
  | sends (message : ServerMessage)
  /-- The loop takes the next message; a session request gets this toast decision. -/
  | takes (toast : ToastDecision) (now : Nat)
  deriving DecidableEq

namespace ConsentHost

variable (host : ConsentHost)

def isPrompt : ServerMessage → Bool
  | .pairingRequested _ => true
  | _ => false

/-- The arms that touch the two desks. A session whose toast is skipped or blocked
does not wait for the operator. -/
def handle (s : ConsentState) (toast : ToastDecision) (now : Nat) : ServerMessage → ConsentState
  | .pairingRequested request =>
      { s with pairings := s.pairings.handle host.ownerAccountId request now }
  | .sessionRequested requested =>
      if toast = .show then { s with sessions := s.sessions.register requested } else s
  | .sessionKicked sessionId _ => { s with sessions := s.sessions.dropPending sessionId }
  | _ => s

def step (s : ConsentState) : ConsentStep → Option ConsentState
  | .pairing step => (s.pairings.step host.selfPeerId step).map fun pairings => { s with pairings }
  | .session step => (s.sessions.step step).map fun sessions => { s with sessions }
  | .prompts index =>
      (s.pairings.prompting[index]?).map fun pending => { s with
        inbox := s.inbox ++ [.pairingRequested
          ⟨pending.requestId, pending.hostPeerId, pending.client, pending.clientLabel⟩]
        pairings := { s.pairings with prompting := s.pairings.prompting.eraseIdx index } }
  | .sends message =>
      if isPrompt message then none else some { s with inbox := s.inbox ++ [message] }
  | .takes toast now =>
      match s.sessions.gate, s.inbox with
      | none, message :: rest => some (host.handle { s with inbox := rest } toast now message)
      | _, _ => none

end ConsentHost

/-! ## Binding -/

/-- Who gets in on the strength of a decision was shown when it was made, and no
gate that has timed out is still listed. -/
structure ConsentBinds (s : ConsentState) : Prop where
  approved : ∀ admission ∈ s.pairings.approved, admission.Consented
  admitted : ∀ admission ∈ s.sessions.admitted, admission.Consented
  listed : ∀ entry ∈ s.sessions.list, entry.gate ∉ s.sessions.timedOut

namespace PairingDesk

variable {selfPeerId : Uuid} {desk next : PairingDesk} {action : PairingStep}

/-- A request for this host agrees with the approvals on their way under its id,
and the operator approves no other client than the one whose request is stored. -/
def Careful (selfPeerId : Uuid) (desk : PairingDesk) : PairingStep → Prop
  | .request pending => pending.hostPeerId = selfPeerId →
      Answers.Agree (approvals desk.answers) pending.requestId pending.client.peerId
  | .decides view true => desk.holder selfPeerId view.requestId = none ∨
      desk.holder selfPeerId view.requestId = some view.clientPeerId
  | _ => True

instance (selfPeerId : Uuid) (desk : PairingDesk) : DecidablePred (Careful selfPeerId desk)
  | .request _ | .decides _ true => by unfold Careful; infer_instance
  | .taken _ | .reads | .decides _ false | .removes _ | .forwards | .judges _ => .isTrue trivial

structure Sound (selfPeerId : Uuid) (desk : PairingDesk) : Prop where
  bound : Answers.Bound (desk.holder selfPeerId) (approvals desk.answers)
  forwarded : ∀ decision answer, (decision, some answer) ∈ desk.outbox →
    decision = ⟨answer.id, answer.approved⟩
  approved : ∀ admission ∈ desk.approved, admission.Consented

theorem holder_eq_some {requestId client : Uuid} : desk.holder selfPeerId requestId = some client ↔
    ∃ pending, desk.pendingPairings.lookup requestId = some pending ∧
      pending.hostPeerId = selfPeerId ∧ pending.client.peerId = client := by
  simp only [holder, Option.bind_eq_some_iff, Option.ite_none_right_eq_some, Option.some.injEq]

theorem Sound.mono (sound : desk.Sound selfPeerId)
    (pending : ∀ requestId request, next.pendingPairings.lookup requestId = some request →
      desk.pendingPairings.lookup requestId = some request)
    (answers : next.answers ⊆ desk.answers)
    (forwarded : ∀ decision answer, (decision, some answer) ∈ next.outbox →
      decision = ⟨answer.id, answer.approved⟩)
    (approved : ∀ admission ∈ next.approved, admission.Consented) : next.Sound selfPeerId := by
  refine ⟨sound.bound.mono (fun requestId client holds => ?_) (approvals_subset answers),
    forwarded, approved⟩
  obtain ⟨request, found, here⟩ := holder_eq_some.mp holds
  exact holder_eq_some.mpr ⟨request, pending requestId request found, here⟩

/-- A decision that is judged was made for the client it lets in. -/
theorem Sound.consented (sound : desk.Sound selfPeerId) {decision : PairingDecision}
    {answer : Answer} {rest : List (PairingDecision × Option Answer)}
    (first : desk.outbox = (decision, some answer) :: rest) {pending : PendingPairing}
    (found : desk.pendingPairings.lookup decision.requestId = some pending)
    (here : pending.hostPeerId = selfPeerId) (approves : decision.approved = true) :
    Admission.Consented ⟨decision.requestId, pending.client.peerId, answer⟩ := by
  have forwarded := sound.forwarded decision answer (by rw [first]; exact .head _)
  subst forwarded
  have travelling : answer ∈ desk.answers := by
    rw [answers, first]
    simp
  refine ⟨rfl, ?_⟩
  have holds := holder_eq_some.mpr ⟨pending, found, here, rfl⟩
  exact sound.bound _ _ holds _ (mem_approvals travelling approves) rfl

theorem Sound.request (sound : desk.Sound selfPeerId) (pending : PendingPairing)
    (agree : pending.hostPeerId = selfPeerId →
      Answers.Agree (approvals desk.answers) pending.requestId pending.client.peerId) :
    Sound selfPeerId { desk with
      pendingPairings := desk.pendingPairings.insert pending.requestId pending } := by
  refine ⟨?_, sound.forwarded, sound.approved⟩
  by_cases here : pending.hostPeerId = selfPeerId
  · refine sound.bound.place (agree here) fun requestId client holds => ?_
    obtain ⟨request, found, at_self, rfl⟩ := holder_eq_some.mp holds
    rw [AList.lookup_insert_ite] at found
    split at found
    · obtain rfl := Option.some.inj found
      exact .inr ⟨‹_›, rfl⟩
    · exact .inl (holder_eq_some.mpr ⟨request, found, at_self, rfl⟩)
  · refine sound.bound.mono (fun requestId client holds => ?_) (List.Subset.refl _)
    obtain ⟨request, found, at_self, rfl⟩ := holder_eq_some.mp holds
    rw [AList.lookup_insert_ite] at found
    split at found
    · obtain rfl := Option.some.inj found
      exact absurd at_self here
    · exact holder_eq_some.mpr ⟨request, found, at_self, rfl⟩

theorem Sound.decides (sound : desk.Sound selfPeerId) (view : PendingPairingView) (approved : Bool)
    (careful : desk.Careful selfPeerId (.decides view approved)) :
    Answers.Bound (desk.holder selfPeerId)
      (approvals (⟨view.requestId, approved, view.clientPeerId⟩ :: desk.answers)) := by
  rw [approvals_cons]
  cases approved with
  | false => exact sound.bound
  | true => exact sound.bound.answer careful (List.Subset.refl _)

theorem Sound.step (sound : desk.Sound selfPeerId) (careful : desk.Careful selfPeerId action)
    (stepped : desk.step selfPeerId action = some next) : next.Sound selfPeerId := by
  cases action with
  | request pending =>
      obtain rfl := Option.some.inj stepped
      have placed := sound.request pending careful
      split
      · exact ⟨placed.bound, placed.forwarded, placed.approved⟩
      · exact placed
  | taken requestId =>
      obtain rfl := Option.some.inj stepped
      refine sound.mono (fun id request found => ?_) (List.Subset.refl _) sound.forwarded
        sound.approved
      rw [AList.lookup_erase_ite] at found
      split at found
      · cases found
      · exact found
  | reads =>
      obtain rfl := Option.some.inj stepped
      exact ⟨sound.bound, sound.forwarded, sound.approved⟩
  | decides view approved =>
      obtain ⟨-, stepped⟩ := Option.ite_none_right_eq_some.mp stepped
      obtain rfl := Option.some.inj stepped
      refine ⟨?_, sound.forwarded, sound.approved⟩
      refine (sound.decides view approved careful).mono (fun _ _ holds => holds)
        (approvals_subset ?_)
      intro answer member
      simp only [answers, List.mem_append, List.mem_cons, List.not_mem_nil] at member ⊢
      tauto
  | removes requestId =>
      obtain ⟨-, stepped⟩ := Option.ite_none_right_eq_some.mp stepped
      obtain rfl := Option.some.inj stepped
      exact ⟨sound.bound, sound.forwarded, sound.approved⟩
  | forwards =>
      rw [PairingDesk.step] at stepped
      split at stepped
      · cases stepped
      · rename_i answer rest decisions
        obtain rfl := Option.some.inj stepped
        refine sound.mono (fun _ _ found => found) ?_ ?_ sound.approved
        · intro other member
          simp only [answers, decisions, List.filterMap_append, List.filterMap_cons,
            List.filterMap_nil, List.mem_append, List.mem_cons, List.not_mem_nil] at member ⊢
          tauto
        · intro decision other member
          obtain before | new := List.mem_append.mp member
          · exact sound.forwarded decision other before
          · cases List.mem_singleton.mp new
            rfl
  | judges allowed =>
      rw [PairingDesk.step] at stepped
      split at stepped
      · cases stepped
      · rename_i decision answer rest outbox
        have fewer : desk.decisions ++ rest.filterMap Prod.snd ⊆ desk.answers := by
          rw [answers, outbox, List.filterMap_cons]
          refine List.append_subset.mpr ⟨List.subset_append_left _ _, ?_⟩
          refine List.subset_append_of_subset_right _ ?_
          split
          · exact List.Subset.refl _
          · exact List.subset_cons_self _ _
        have forwarded : ∀ decision answer, (decision, some answer) ∈ rest →
            decision = ⟨answer.id, answer.approved⟩ := by
          intro decision answer member
          exact sound.forwarded decision answer (by rw [outbox]; exact .tail _ member)
        split at stepped
        · obtain rfl := Option.some.inj stepped
          exact sound.mono (fun _ _ found => found) fewer forwarded sound.approved
        · rename_i pending found
          have erased : ∀ id request,
              (desk.pendingPairings.erase decision.requestId).lookup id = some request →
                desk.pendingPairings.lookup id = some request := by
            intro id request found
            rw [AList.lookup_erase_ite] at found
            split at found
            · cases found
            · exact found
          dsimp only at stepped
          split at stepped
          · rename_i accepts
            obtain rfl := Option.some.inj stepped
            refine sound.mono erased fewer forwarded ?_
            intro admission member
            obtain before | new := List.mem_append.mp member
            · exact sound.approved admission before
            · obtain ⟨answer', given, rfl⟩ := List.mem_map.mp new
              obtain rfl := Option.mem_toList.mp given
              exact sound.consented outbox found accepts.1 accepts.2.1
          · obtain rfl := Option.some.inj stepped
            exact sound.mono erased fewer forwarded sound.approved

theorem Sound.handle (sound : desk.Sound selfPeerId) (ownerAccountId : Option Uuid)
    (request : PairingRequested) (now : Nat) :
    (desk.handle ownerAccountId request now).Sound selfPeerId := by
  rw [PairingDesk.handle]
  split
  · refine sound.mono (fun _ _ found => found) ?_ ?_ sound.approved
    · intro answer member
      simpa [answers] using member
    · intro decision answer member
      obtain before | new := List.mem_append.mp member
      · exact sound.forwarded decision answer before
      · cases List.mem_singleton.mp new
  · exact ⟨sound.bound, sound.forwarded, sound.approved⟩

end PairingDesk

namespace SessionDesk

variable {desk next : SessionDesk} {action : SessionStep}

/-- The operator approves the client whose gate waits, and no gate times out that
is still listed. -/
def Careful (desk : SessionDesk) : SessionStep → Prop
  | .decides entry true => desk.holder entry.view.sessionId = none ∨
      desk.holder entry.view.sessionId = some entry.view.clientPeerId
  | .timesOut => ∀ gate ∈ desk.gate, ∀ entry ∈ desk.list, entry.gate ≠ gate.number
  | _ => True

instance (desk : SessionDesk) : DecidablePred desk.Careful
  | .decides _ true | .timesOut => by unfold Careful; infer_instance
  | .pushes _ | .reads | .decides _ false | .removes _ | .delivers | .unlists | .canceled
  | .resumes | .kills | .watchdog _ => .isTrue trivial

theorem holder_eq_some {sessionId client : Uuid} : desk.holder sessionId = some client ↔
    ∃ gate, desk.gate = some gate ∧ desk.pendingDecisions.lookup sessionId = some gate.number ∧
      gate.requested.client.peerId = client := by
  simp only [holder, Option.bind_eq_some_iff, Option.ite_none_right_eq_some, Option.some.injEq]

theorem mem_list {entry : SessionEntry} :
    entry ∈ desk.list ↔ ∃ sessionId, desk.pendingSessions.lookup sessionId = some entry := by
  rw [list, List.mem_insertionSort, AList.mem_values]

/-! ### What a step has found -/

theorem pushes_eq_some {now : Nat} (stepped : desk.step (.pushes now) = some next) :
    ∃ gate, desk.gate = some gate ∧ gate.phase = .registered ∧ next = { desk with
      gate := some { gate with phase := .waiting }
      pendingSessions := desk.pendingSessions.insert gate.requested.sessionId
        ⟨⟨gate.requested.sessionId, gate.requested.client.peerId,
          gate.requested.client.deviceName, now⟩, gate.number⟩ } := by
  rw [step] at stepped
  split at stepped
  case h_1 gate there =>
    obtain ⟨registered, same⟩ := Option.ite_none_right_eq_some.mp stepped
    exact ⟨gate, there, registered, (Option.some.inj same).symm⟩
  case h_2 => cases stepped

/-- The decision task takes an answer, and finds a channel for it or none. -/
theorem delivers_eq_some (stepped : desk.step .delivers = some next) :
    ∃ answer rest, desk.decisions = answer :: rest ∧
      (next = { desk with decisions := rest } ∨
        ∃ number, desk.pendingDecisions.lookup answer.id = some number ∧
          next = { (SessionDesk.dropPending { desk with decisions := rest } answer.id).send
            number answer with unlisting := some answer.id }) := by
  rw [step] at stepped
  split at stepped
  · cases stepped
  · split at stepped
    · cases stepped
    · rename_i answer rest first
      refine ⟨answer, rest, first, ?_⟩
      dsimp only at stepped
      split at stepped
      · exact .inl (Option.some.inj stepped).symm
      · exact .inr ⟨_, ‹_›, (Option.some.inj stepped).symm⟩

theorem unlists_eq_some (stepped : desk.step .unlists = some next) :
    ∃ sessionId, next = { desk with
      unlisting := none
      pendingSessions := desk.pendingSessions.erase sessionId } := by
  rw [step] at stepped
  split at stepped
  · exact ⟨_, (Option.some.inj stepped).symm⟩
  · cases stepped

/-- What a step finds that only a gate can take. -/
theorem gate_of_step {guard : OperatorGate → Prop} [DecidablePred guard]
    {after : OperatorGate → SessionDesk}
    (stepped : (match desk.gate with
      | some gate => if guard gate then some (after gate) else none
      | none => none) = some next) : ∃ gate, desk.gate = some gate ∧ next = after gate := by
  split at stepped
  case h_1 gate there =>
    obtain ⟨-, same⟩ := Option.ite_none_right_eq_some.mp stepped
    exact ⟨gate, there, (Option.some.inj same).symm⟩
  case h_2 => cases stepped

theorem timesOut_eq_some (stepped : desk.step .timesOut = some next) :
    ∃ gate, desk.gate = some gate ∧ next = { desk with
      gate := some { gate with phase := .shut }
      timedOut := gate.number :: desk.timedOut } :=
  gate_of_step stepped

theorem canceled_eq_some (stepped : desk.step .canceled = some next) :
    ∃ gate, desk.gate = some gate ∧
      next = { desk with gate := some { gate with phase := .shut } } :=
  gate_of_step stepped

/-- The gate has an answer: the session is admitted, or the gate is shut. -/
theorem resumes_eq_some (stepped : desk.step .resumes = some next) :
    ∃ gate answer, desk.gate = some gate ∧ gate.verdict = some answer ∧
      (answer.approved = true ∧ next = { desk with
          gate := none
          admitted := desk.admitted ++
            [⟨gate.requested.sessionId, gate.requested.client.peerId, answer⟩] } ∨
        next = { desk with gate := some { gate with phase := .shut } }) := by
  rw [step] at stepped
  split at stepped
  · rename_i gate there
    split at stepped
    · rename_i answer sent
      refine ⟨gate, answer, there, sent, ?_⟩
      obtain ⟨-, stepped⟩ := Option.ite_none_right_eq_some.mp stepped
      split at stepped
      · exact .inl ⟨‹_›, (Option.some.inj stepped).symm⟩
      · exact .inr (Option.some.inj stepped).symm
    · cases stepped
  · cases stepped

theorem kills_eq_some (stepped : desk.step .kills = some next) :
    ∃ gate, desk.gate = some gate ∧
      next = { desk.dropPending gate.requested.sessionId with gate := none } :=
  gate_of_step stepped

/-! ### The channel -/

/-- A registered channel is that of the gate that waits, and what was sent into it
was meant for the client there. -/
structure Sound (desk : SessionDesk) : Prop where
  bound : Answers.Bound desk.holder (approvals desk.decisions)
  registered : ∀ sessionId number, desk.pendingDecisions.lookup sessionId = some number →
    ∃ gate, desk.gate = some gate ∧ gate.number = number ∧ gate.requested.sessionId = sessionId
  verdict : ∀ gate answer, desk.gate = some gate → gate.verdict = some answer →
    answer.id = gate.requested.sessionId ∧
      (answer.approved = true → answer.shown = gate.requested.client.peerId) ∧
      desk.pendingDecisions.lookup gate.requested.sessionId = none
  admitted : ∀ admission ∈ desk.admitted, admission.Consented

theorem Sound.mono (sound : desk.Sound)
    (gates : ∀ gate, next.gate = some gate → ∃ before, desk.gate = some before ∧
      before.number = gate.number ∧ before.requested = gate.requested ∧
      before.verdict = gate.verdict)
    (pending : ∀ sessionId number, next.pendingDecisions.lookup sessionId = some number →
      desk.pendingDecisions.lookup sessionId = some number ∧ next.gate ≠ none)
    (decisions : next.decisions ⊆ desk.decisions)
    (admitted : ∀ admission ∈ next.admitted, admission.Consented) : next.Sound := by
  refine ⟨?_, ?_, ?_, admitted⟩
  · refine sound.bound.mono (fun sessionId client holds => ?_) (approvals_subset decisions)
    obtain ⟨gate, there, found, shown⟩ := holder_eq_some.mp holds
    obtain ⟨before, was, number, requested, -⟩ := gates gate there
    refine holder_eq_some.mpr ⟨before, was, ?_, ?_⟩
    · rw [number]
      exact (pending _ _ found).1
    · rw [requested]
      exact shown
  · intro sessionId number found
    obtain ⟨found, present⟩ := pending sessionId number found
    obtain ⟨gate, there⟩ := Option.ne_none_iff_exists'.mp present
    obtain ⟨before, was, same, requested, -⟩ := gates gate there
    obtain ⟨registered, is, its, under⟩ := sound.registered sessionId number found
    obtain rfl := Option.some.inj (was.symm.trans is)
    exact ⟨gate, there, same.symm.trans its, by rw [← requested]; exact under⟩
  · intro gate answer there sent
    obtain ⟨before, was, -, requested, verdict⟩ := gates gate there
    obtain ⟨id, meant, gone⟩ := sound.verdict before answer was (verdict.trans sent)
    rw [requested] at id meant gone
    refine ⟨id, meant, ?_⟩
    cases found : next.pendingDecisions.lookup gate.requested.sessionId with
    | none => rfl
    | some number =>
        rw [(pending _ _ found).1] at gone
        cases gone

/-- Only the phase of the gate changes. -/
theorem Sound.phase (sound : desk.Sound) {gate : OperatorGate} (there : desk.gate = some gate)
    (phase : GatePhase) : Sound { desk with gate := some { gate with phase } } := by
  refine sound.mono ?_ ?_ (List.Subset.refl _) sound.admitted
  · intro other is
    obtain rfl := Option.some.inj is
    exact ⟨gate, there, rfl, rfl, rfl⟩
  · intro sessionId number found
    exact ⟨found, Option.some_ne_none _⟩

theorem Sound.dropPending (sound : desk.Sound) (sessionId : Uuid) :
    (desk.dropPending sessionId).Sound := by
  refine sound.mono (fun gate there => ⟨gate, there, rfl, rfl, rfl⟩) ?_ (List.Subset.refl _)
    sound.admitted
  intro id number found
  rw [SessionDesk.dropPending, AList.lookup_erase_ite] at found
  split at found
  · cases found
  · obtain ⟨gate, there, -⟩ := sound.registered id number found
    exact ⟨found, by rw [SessionDesk.dropPending, there]; exact Option.some_ne_none _⟩

/-- Without a gate and a channel of it, nothing is left to answer. -/
theorem Sound.leaves (sound : desk.Sound) {gate : OperatorGate} (there : desk.gate = some gate)
    (gone : next.pendingDecisions.lookup gate.requested.sessionId = none)
    (fewer : ∀ sessionId number, next.pendingDecisions.lookup sessionId = some number →
      desk.pendingDecisions.lookup sessionId = some number)
    (empty : next.gate = none) (decisions : next.decisions = desk.decisions)
    (admitted : ∀ admission ∈ next.admitted, admission.Consented) : next.Sound := by
  have none (sessionId : Uuid) (number : Nat) :
      next.pendingDecisions.lookup sessionId ≠ some number := by
    intro found
    obtain ⟨registered, is, -, under⟩ := sound.registered _ _ (fewer _ _ found)
    obtain rfl := Option.some.inj (there.symm.trans is)
    rw [← under, gone] at found
    cases found
  refine sound.mono ?_ ?_ ?_ admitted
  · intro gate is
    rw [empty] at is
    cases is
  · intro sessionId number found
    exact absurd found (none sessionId number)
  · rw [decisions]
    exact List.Subset.refl _

/-- An answer goes to the gate whose channel it finds, and was made for its client. -/
theorem Sound.deliver (sound : desk.Sound) {answer : Answer} {rest : List Answer}
    (first : desk.decisions = answer :: rest) {number : Nat}
    (found : desk.pendingDecisions.lookup answer.id = some number) :
    ((SessionDesk.dropPending { desk with decisions := rest } answer.id).send number
      answer).Sound := by
  have taken : Sound { desk with decisions := rest } := by
    refine sound.mono (fun gate there => ⟨gate, there, rfl, rfl, rfl⟩) ?_ ?_ sound.admitted
    · intro sessionId number found
      obtain ⟨gate, there, -⟩ := sound.registered _ _ found
      exact ⟨found, by rw [there]; exact Option.some_ne_none _⟩
    · rw [first]
      exact List.subset_cons_self _ _
  have dropped := taken.dropPending answer.id
  obtain ⟨gate, there, rfl, under⟩ := sound.registered _ _ found
  have gone : (desk.pendingDecisions.erase answer.id).lookup answer.id = none := by
    rw [AList.lookup_erase_ite, if_pos rfl]
  have meant : answer.approved = true → answer.shown = gate.requested.client.peerId := by
    intro approved
    have holds : desk.holder answer.id = some gate.requested.client.peerId :=
      holder_eq_some.mpr ⟨gate, there, found, rfl⟩
    exact sound.bound _ _ holds _
      (mem_approvals (by rw [first]; exact .head _) approved) rfl
  simp only [send, SessionDesk.dropPending, there]
  split
  · refine ⟨?_, ?_, ?_, dropped.admitted⟩
    · refine dropped.bound.mono (fun sessionId client holds => ?_) (List.Subset.refl _)
      obtain ⟨_, is, found, rfl⟩ := holder_eq_some.mp holds
      obtain rfl := Option.some.inj is
      exact holder_eq_some.mpr ⟨gate, there, found, rfl⟩
    · intro sessionId number found
      obtain ⟨other, is, its, under⟩ := dropped.registered sessionId number found
      obtain rfl := Option.some.inj (there.symm.trans is)
      exact ⟨_, rfl, its, under⟩
    · intro _ other is sent
      obtain rfl := Option.some.inj is
      obtain rfl := Option.some.inj sent
      exact ⟨under.symm, meant, by rw [under]; exact gone⟩
  · simpa only [SessionDesk.dropPending, there] using dropped

theorem Sound.decides (sound : desk.Sound) (entry : SessionEntry) (approved : Bool)
    (careful : desk.Careful (.decides entry approved)) :
    Answers.Bound desk.holder (approvals
      (desk.decisions ++ [⟨entry.view.sessionId, approved, entry.view.clientPeerId⟩])) := by
  have more : approvals (desk.decisions ++
        [⟨entry.view.sessionId, approved, entry.view.clientPeerId⟩]) ⊆
      approvals (⟨entry.view.sessionId, approved, entry.view.clientPeerId⟩ :: desk.decisions) :=
    approvals_subset (List.perm_append_singleton _ _).subset
  rw [approvals_cons] at more
  cases approved with
  | false => exact sound.bound.mono (fun _ _ holds => holds) more
  | true => exact sound.bound.answer careful more

theorem Sound.step (sound : desk.Sound) (careful : desk.Careful action)
    (stepped : desk.step action = some next) : next.Sound := by
  cases action with
  | pushes now =>
      obtain ⟨gate, there, -, rfl⟩ := pushes_eq_some stepped
      have waiting := sound.phase there .waiting
      exact ⟨waiting.bound, waiting.registered, waiting.verdict, waiting.admitted⟩
  | reads =>
      obtain rfl := Option.some.inj stepped
      exact ⟨sound.bound, sound.registered, sound.verdict, sound.admitted⟩
  | decides entry approved =>
      obtain ⟨-, stepped⟩ := Option.ite_none_right_eq_some.mp stepped
      obtain rfl := Option.some.inj stepped
      exact ⟨sound.decides entry approved careful, sound.registered, sound.verdict,
        sound.admitted⟩
  | removes sessionId =>
      obtain ⟨-, stepped⟩ := Option.ite_none_right_eq_some.mp stepped
      obtain rfl := Option.some.inj stepped
      exact ⟨sound.bound, sound.registered, sound.verdict, sound.admitted⟩
  | delivers =>
      obtain ⟨answer, rest, first, rfl | ⟨number, found, rfl⟩⟩ := delivers_eq_some stepped
      · refine sound.mono (fun gate there => ⟨gate, there, rfl, rfl, rfl⟩) ?_ ?_ sound.admitted
        · intro sessionId number found
          obtain ⟨gate, there, -⟩ := sound.registered _ _ found
          exact ⟨found, by rw [there]; exact Option.some_ne_none _⟩
        · rw [first]
          exact List.subset_cons_self _ _
      · have delivered := sound.deliver first found
        exact ⟨delivered.bound, delivered.registered, delivered.verdict, delivered.admitted⟩
  | unlists =>
      obtain ⟨sessionId, rfl⟩ := unlists_eq_some stepped
      exact ⟨sound.bound, sound.registered, sound.verdict, sound.admitted⟩
  | timesOut =>
      obtain ⟨gate, there, rfl⟩ := timesOut_eq_some stepped
      have shut := sound.phase there .shut
      exact ⟨shut.bound, shut.registered, shut.verdict, shut.admitted⟩
  | canceled =>
      obtain ⟨gate, there, rfl⟩ := canceled_eq_some stepped
      exact sound.phase there .shut
  | resumes =>
      obtain ⟨gate, answer, there, sent, ⟨approved, rfl⟩ | rfl⟩ := resumes_eq_some stepped
      · obtain ⟨id, meant, gone⟩ := sound.verdict gate answer there sent
        refine sound.leaves there gone (fun _ _ found => found) rfl rfl ?_
        intro admission member
        obtain before | new := List.mem_append.mp member
        · exact sound.admitted admission before
        · obtain rfl := List.mem_singleton.mp new
          exact ⟨id, meant approved⟩
      · exact sound.phase there .shut
  | kills =>
      obtain ⟨gate, there, rfl⟩ := kills_eq_some stepped
      refine sound.leaves there ?_ ?_ rfl rfl sound.admitted
      · simp only [SessionDesk.dropPending, AList.lookup_erase_ite, if_pos]
      · intro sessionId number found
        simp only [SessionDesk.dropPending, AList.lookup_erase_ite] at found
        split at found
        · cases found
        · exact found
  | watchdog sessionId =>
      obtain rfl := Option.some.inj stepped
      exact sound.dropPending sessionId

/-- A request that comes when no gate waits. -/
theorem Sound.register (sound : desk.Sound) (free : desk.gate = none)
    (requested : SessionRequested)
    (agree : Answers.Agree (approvals desk.decisions) requested.sessionId
      requested.client.peerId) : (desk.register requested).Sound := by
  have only {sessionId : Uuid} {number : Nat}
      (found : (desk.register requested).pendingDecisions.lookup sessionId = some number) :
      sessionId = requested.sessionId ∧ number = desk.gates := by
    rw [SessionDesk.register, AList.lookup_insert_ite] at found
    split at found
    · exact ⟨‹_›, (Option.some.inj found).symm⟩
    · obtain ⟨gate, there, -⟩ := sound.registered _ _ found
      rw [free] at there
      cases there
  refine ⟨?_, ?_, ?_, sound.admitted⟩
  · refine sound.bound.place agree fun sessionId client holds => .inr ?_
    obtain ⟨gate, there, found, rfl⟩ := holder_eq_some.mp holds
    obtain rfl := Option.some.inj there
    exact ⟨(only found).1, rfl⟩
  · intro sessionId number found
    obtain ⟨rfl, rfl⟩ := only found
    exact ⟨_, rfl, rfl, rfl⟩
  · intro gate answer there sent
    obtain rfl := Option.some.inj there
    cases sent

/-! ### The list -/

/-- No gate that has timed out is listed or still waits. -/
structure Unexpired (desk : SessionDesk) : Prop where
  waits : ∀ gate, desk.gate = some gate →
    gate.number < desk.gates ∧ (gate.phase ≠ .shut → gate.number ∉ desk.timedOut)
  past : ∀ number ∈ desk.timedOut, number < desk.gates
  listed : ∀ entry ∈ desk.list, entry.gate ∉ desk.timedOut

theorem Unexpired.mono (unexpired : desk.Unexpired)
    (gates : ∀ gate, next.gate = some gate → ∃ before, desk.gate = some before ∧
      before.number = gate.number ∧ (gate.phase ≠ .shut → before.phase ≠ .shut))
    (count : next.gates = desk.gates) (timedOut : next.timedOut = desk.timedOut)
    (list : next.list ⊆ desk.list) : next.Unexpired := by
  refine ⟨?_, ?_, ?_⟩
  · intro gate there
    obtain ⟨before, was, number, phase⟩ := gates gate there
    obtain ⟨below, fresh⟩ := unexpired.waits before was
    rw [count, timedOut, ← number]
    exact ⟨below, fun waits => fresh (phase waits)⟩
  · rw [count, timedOut]
    exact unexpired.past
  · rw [timedOut]
    exact fun entry member => unexpired.listed entry (list member)

theorem list_erase (desk : SessionDesk) (sessionId : Uuid) :
    list { desk with pendingSessions := desk.pendingSessions.erase sessionId } ⊆ desk.list := by
  intro entry member
  obtain ⟨id, found⟩ := mem_list.mp member
  rw [AList.lookup_erase_ite] at found
  split at found
  · cases found
  · exact mem_list.mpr ⟨id, found⟩

theorem Unexpired.shut (unexpired : desk.Unexpired) {gate : OperatorGate}
    (there : desk.gate = some gate) :
    Unexpired { desk with gate := some { gate with phase := .shut } } := by
  refine unexpired.mono ?_ rfl rfl (List.Subset.refl _)
  intro _ is
  obtain rfl := Option.some.inj is
  exact ⟨gate, there, rfl, fun waits => absurd rfl waits⟩

theorem Unexpired.dropPending (unexpired : desk.Unexpired) (sessionId : Uuid) :
    (desk.dropPending sessionId).Unexpired :=
  ⟨unexpired.waits, unexpired.past, unexpired.listed⟩

theorem Unexpired.leaves (unexpired : desk.Unexpired) (empty : next.gate = none)
    (count : next.gates = desk.gates) (timedOut : next.timedOut = desk.timedOut)
    (list : next.list = desk.list) : next.Unexpired := by
  refine unexpired.mono ?_ count timedOut (by rw [list]; exact List.Subset.refl _)
  intro gate there
  rw [empty] at there
  cases there

theorem Unexpired.send (unexpired : desk.Unexpired) (number : Nat) (answer : Answer) :
    (desk.send number answer).Unexpired := by
  rw [SessionDesk.send]
  split
  · rename_i gate there
    split
    · refine unexpired.mono ?_ rfl rfl (List.Subset.refl _)
      intro _ is
      obtain rfl := Option.some.inj is
      exact ⟨gate, there, rfl, id⟩
    · exact unexpired
  · exact unexpired

theorem Unexpired.push (unexpired : desk.Unexpired) {gate : OperatorGate}
    (there : desk.gate = some gate) (registered : gate.phase = .registered)
    (view : PendingSessionView) : Unexpired { desk with
      gate := some { gate with phase := .waiting }
      pendingSessions := desk.pendingSessions.insert gate.requested.sessionId
        ⟨view, gate.number⟩ } := by
  obtain ⟨below, fresh⟩ := unexpired.waits gate there
  refine ⟨?_, unexpired.past, ?_⟩
  · intro _ is
    obtain rfl := Option.some.inj is
    exact ⟨below, fun _ => fresh (by rw [registered]; decide)⟩
  · intro entry member
    obtain ⟨id, found⟩ := mem_list.mp member
    rw [AList.lookup_insert_ite] at found
    split at found
    · obtain rfl := Option.some.inj found
      exact fresh (by rw [registered]; decide)
    · exact unexpired.listed entry (mem_list.mpr ⟨id, found⟩)

theorem Unexpired.timeOut (unexpired : desk.Unexpired) {gate : OperatorGate}
    (there : desk.gate = some gate)
    (unlisted : ∀ entry ∈ desk.list, entry.gate ≠ gate.number) :
    Unexpired { desk with
      gate := some { gate with phase := .shut }
      timedOut := gate.number :: desk.timedOut } := by
  obtain ⟨below, -⟩ := unexpired.waits gate there
  refine ⟨?_, ?_, ?_⟩
  · intro _ is
    obtain rfl := Option.some.inj is
    exact ⟨below, fun waits => absurd rfl waits⟩
  · intro number member
    obtain rfl | before := List.mem_cons.mp member
    · exact below
    · exact unexpired.past number before
  · intro entry member expired
    obtain same | before := List.mem_cons.mp expired
    · exact unlisted entry member same
    · exact unexpired.listed entry member before

theorem Unexpired.step (unexpired : desk.Unexpired) (careful : desk.Careful action)
    (stepped : desk.step action = some next) : next.Unexpired := by
  have same : ∀ gate, desk.gate = some gate → ∃ before, desk.gate = some before ∧
      before.number = gate.number ∧ (gate.phase ≠ .shut → before.phase ≠ .shut) :=
    fun gate there => ⟨gate, there, rfl, id⟩
  cases action with
  | pushes now =>
      obtain ⟨gate, there, registered, rfl⟩ := pushes_eq_some stepped
      exact unexpired.push there registered _
  | reads =>
      obtain rfl := Option.some.inj stepped
      exact unexpired.mono same rfl rfl (List.Subset.refl _)
  | decides entry approved =>
      obtain ⟨-, stepped⟩ := Option.ite_none_right_eq_some.mp stepped
      obtain rfl := Option.some.inj stepped
      exact unexpired.mono same rfl rfl (List.Subset.refl _)
  | removes sessionId =>
      obtain ⟨-, stepped⟩ := Option.ite_none_right_eq_some.mp stepped
      obtain rfl := Option.some.inj stepped
      exact unexpired.mono same rfl rfl (desk.list_erase sessionId)
  | delivers =>
      obtain ⟨answer, rest, -, rfl | ⟨number, -, rfl⟩⟩ := delivers_eq_some stepped
      · exact unexpired.mono same rfl rfl (List.Subset.refl _)
      · have dropped : Unexpired
            (SessionDesk.dropPending { desk with decisions := rest } answer.id) :=
          unexpired.mono same rfl rfl (List.Subset.refl _)
        have sent := dropped.send number answer
        exact ⟨sent.waits, sent.past, sent.listed⟩
  | unlists =>
      obtain ⟨sessionId, rfl⟩ := unlists_eq_some stepped
      exact unexpired.mono same rfl rfl (desk.list_erase _)
  | timesOut =>
      obtain ⟨gate, there, rfl⟩ := timesOut_eq_some stepped
      exact unexpired.timeOut there (careful gate there)
  | canceled =>
      obtain ⟨gate, there, rfl⟩ := canceled_eq_some stepped
      exact unexpired.shut there
  | resumes =>
      obtain ⟨gate, answer, there, -, ⟨-, rfl⟩ | rfl⟩ := resumes_eq_some stepped
      · exact unexpired.leaves rfl rfl rfl rfl
      · exact unexpired.shut there
  | kills =>
      obtain ⟨gate, -, rfl⟩ := kills_eq_some stepped
      exact unexpired.leaves rfl rfl rfl rfl
  | watchdog sessionId =>
      obtain rfl := Option.some.inj stepped
      exact unexpired.dropPending sessionId

theorem Unexpired.register (unexpired : desk.Unexpired) (requested : SessionRequested) :
    (desk.register requested).Unexpired := by
  refine ⟨?_, ?_, unexpired.listed⟩
  · intro gate there
    obtain rfl := Option.some.inj there
    exact ⟨Nat.lt_succ_self _, fun _ expired => Nat.lt_irrefl _ (unexpired.past _ expired)⟩
  · intro number member
    exact Nat.lt_succ_of_lt (unexpired.past number member)

end SessionDesk

namespace ConsentHost

variable {host : ConsentHost} {s next : ConsentState} {action : ConsentStep}

def request? : ServerMessage → Option SessionRequested
  | .sessionRequested requested => some requested
  | _ => none

/-- Besides, a session request that gets a toast agrees with the approvals on
their way under its id. -/
def Careful (host : ConsentHost) (s : ConsentState) : ConsentStep → Prop
  | .pairing step => s.pairings.Careful host.selfPeerId step
  | .session step => s.sessions.Careful step
  | .takes .show _ => ∀ requested ∈ s.inbox.head?.bind request?,
      Answers.Agree (approvals s.sessions.decisions) requested.sessionId requested.client.peerId
  | _ => True

instance (host : ConsentHost) (s : ConsentState) : DecidablePred (host.Careful s)
  | .pairing _ | .session _ | .takes .show _ => by unfold Careful; infer_instance
  | .prompts _ | .sends _ | .takes .block _ | .takes .skipAutoAck _ => .isTrue trivial

structure Sound (host : ConsentHost) (s : ConsentState) : Prop where
  pairings : s.pairings.Sound host.selfPeerId
  sessions : s.sessions.Sound
  unexpired : s.sessions.Unexpired

theorem sound_start (host : ConsentHost) : host.Sound {} where
  pairings := by
    refine ⟨?_, ?_, ?_⟩
    · intro requestId client _ answer member
      cases member
    · intro decision answer member
      cases member
    · intro admission member
      cases member
  sessions := by
    refine ⟨?_, ?_, ?_, ?_⟩
    · intro sessionId client _ answer member
      cases member
    · intro sessionId number found
      cases found
    · intro gate answer there
      cases there
    · intro admission member
      cases member
  unexpired := by
    refine ⟨?_, ?_, ?_⟩
    · intro gate there
      cases there
    · intro number member
      cases member
    · intro entry member
      cases member

theorem Sound.handle (sound : host.Sound s) (toast : ToastDecision) (now : Nat)
    (message : ServerMessage) (free : s.sessions.gate = none)
    (agree : toast = .show → ∀ requested ∈ request? message,
      Answers.Agree (approvals s.sessions.decisions) requested.sessionId
        requested.client.peerId) : host.Sound (host.handle s toast now message) := by
  unfold ConsentHost.handle
  split
  · exact ⟨sound.pairings.handle _ _ _, sound.sessions, sound.unexpired⟩
  · rename_i requested
    split
    · exact ⟨sound.pairings, sound.sessions.register free requested (agree ‹_› requested rfl),
        sound.unexpired.register requested⟩
    · exact sound
  · exact ⟨sound.pairings, sound.sessions.dropPending _, sound.unexpired.dropPending _⟩
  · exact sound

theorem Sound.step (sound : host.Sound s) (careful : host.Careful s action)
    (stepped : host.step s action = some next) : host.Sound next := by
  cases action with
  | pairing step =>
      obtain ⟨pairings, moved, rfl⟩ := Option.map_eq_some_iff.mp stepped
      exact ⟨sound.pairings.step careful moved, sound.sessions, sound.unexpired⟩
  | session step =>
      obtain ⟨sessions, moved, rfl⟩ := Option.map_eq_some_iff.mp stepped
      exact ⟨sound.pairings, sound.sessions.step careful moved,
        sound.unexpired.step careful moved⟩
  | prompts index =>
      obtain ⟨pending, -, rfl⟩ := Option.map_eq_some_iff.mp stepped
      have pairings := sound.pairings
      exact ⟨⟨pairings.bound, pairings.forwarded, pairings.approved⟩, sound.sessions,
        sound.unexpired⟩
  | sends message =>
      obtain ⟨-, stepped⟩ := Option.ite_none_left_eq_some.mp stepped
      obtain rfl := Option.some.inj stepped
      exact ⟨sound.pairings, sound.sessions, sound.unexpired⟩
  | takes toast now =>
      rw [ConsentHost.step] at stepped
      split at stepped
      · rename_i message rest free waiting
        obtain rfl := Option.some.inj stepped
        have taken : host.Sound { s with inbox := rest } :=
          ⟨sound.pairings, sound.sessions, sound.unexpired⟩
        refine taken.handle toast now message free ?_
        rintro rfl requested is
        refine careful requested ?_
        rw [waiting]
        exact is
      · cases stepped

/-- In a run whose steps are all careful, consent binds. -/
theorem consentBinds_of_careful (host : ConsentHost) (steps : List ConsentStep)
    (careful : Stepping.Meets host.step host.Careful {} steps) (s : ConsentState)
    (ran : Stepping.run host.step {} steps = some s) : ConsentBinds s := by
  have sound : host.Sound s :=
    careful.invariant (fun sound careful stepped => sound.step careful stepped)
      (sound_start host) ran
  exact ⟨sound.pairings.approved, sound.sessions.admitted, sound.unexpired.listed⟩

end ConsentHost

/-! ## One id for two clients -/

namespace Sample

def attended : ConsentHost := ⟨1, none⟩

def caller (peerId : Uuid) : PeerDescriptor :=
  { deviceId := peerId, peerId, deviceName := "viewer", role := .client, os := .linux
    capabilities := {} }

/-- A request for the session 7. -/
def calls (peerId : Uuid) : SessionRequested where
  sessionId := 7
  client := caller peerId
  transport := .webRtc
  codec := .h264
  hostCredential := ⟨"token", 600000, 7, 2, 3, 0, 0⟩
  clientCredential := ⟨"token", 600000, 7, 2, 3, 0, 0⟩
  iceServers := []
  video := none
  permissions := {}
  syncOnly := false

/-- The request of a client, its gate and its entry. -/
def gateOf (peerId : Uuid) (now : Nat) : List ConsentStep :=
  [.sends (.sessionRequested (calls peerId)), .takes .show now, .session (.pushes now)]

/-- The operator approves a pairing and a session of one client. -/
def oneCaller : List ConsentStep :=
  [.pairing (.request ⟨5, 1, caller 2, "desk", 2⟩), .prompts 0, .takes .show 10,
    .pairing .reads, .pairing (.decides ⟨5, 2, 2, "viewer", "desk", 10⟩ true),
    .pairing (.removes 5), .pairing .forwards, .pairing (.judges true)] ++
  gateOf 2 20 ++
  [.session .reads, .session (.decides ⟨⟨7, 2, "viewer", 20⟩, 0⟩ true), .session .delivers,
    .session .unlists, .session (.removes 7), .session .resumes]

/-- The gate of the client that was read times out, another client takes the id, and the
operator clicks on what was read. -/
def reusedId : List ConsentStep :=
  gateOf 2 20 ++ [.session .reads, .session .timesOut, .session .kills] ++ gateOf 3 40 ++
  [.session (.decides ⟨⟨7, 2, "viewer", 20⟩, 0⟩ true), .session .delivers, .session .resumes]

theorem oneCaller_consentBinds : ∃ s, Stepping.run attended.step {} oneCaller = some s ∧
    s.pairings.approved.map (·.client) = [2] ∧ s.sessions.admitted.map (·.client) = [2] ∧
    ConsentBinds s := by
  have admits : (Stepping.run attended.step {} oneCaller).any (fun s =>
      decide (s.pairings.approved.map (·.client) = [2] ∧
        s.sessions.admitted.map (·.client) = [2])) = true := by decide
  obtain ⟨s, ran, admitted⟩ := (Option.any_eq_true _ _).mp admits
  obtain ⟨approved, admitted⟩ := of_decide_eq_true admitted
  exact ⟨s, ran, approved, admitted,
    attended.consentBinds_of_careful oneCaller (by decide) s ran⟩

theorem reusedId_not_consentBinds : ¬ ∀ (host : ConsentHost) (steps : List ConsentStep) s,
    Stepping.run host.step {} steps = some s → ConsentBinds s := by
  intro always
  have admits : (Stepping.run attended.step {} reusedId).any (fun s =>
      s.sessions.admitted.any fun admission => !decide admission.Consented) = true := by
    decide
  obtain ⟨s, ran, other⟩ := (Option.any_eq_true _ _).mp admits
  obtain ⟨admission, member, unshown⟩ := List.any_eq_true.mp other
  have consented := (always attended reusedId s ran).admitted admission member
  rw [decide_eq_true consented] at unshown
  cases unshown

end Sample

end Qubox.Host
