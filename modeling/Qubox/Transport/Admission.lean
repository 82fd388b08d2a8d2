import Qubox.Library.Stepping
import Qubox.Transport.Wire

/-!
# Admission of a media connection

For a session the host opens an endpoint and takes the first connection that
comes, whoever it is from. A native QUIC endpoint then reads the credential of the
session from it; a WebTransport endpoint reads none. A connection that fails leaves
the session without an endpoint.
-/

namespace Qubox.Transport

/-! ## The endpoints -/

structure ClientAuth where
  sessionId : Uuid
  credential : SessionCredential
  deriving DecidableEq

structure AuthAck where
  accepted : Bool
  message : String
  deriving DecidableEq

/-- A connection that somebody opens. -/
structure Attempt where
  /-- Its handshake, and with WebTransport its request, ends well. -/
  connects : Bool
  /-- What arrives on its first bidirectional stream, if it opens one. -/
  stream : Option Bytes
  /-- When the host looks at its credential. -/
  now : Nat
  /-- The acknowledgement of the host can be written. -/
  acks : Bool

inductive AuthError where
  | handshake
  | noStream
  | unreadable (cause : TransportError)
  | sessionMismatch
  | expired
  | pubkeyMismatch
  | hmacMismatch
  | longTail
  | acknowledgement
  deriving DecidableEq

namespace AuthError

/-- What the client is told before its connection is closed. -/
def ack : AuthError → Option AuthAck
  | .sessionMismatch => some ⟨false, "session mismatch"⟩
  | .expired => some ⟨false, "session expired"⟩
  | .pubkeyMismatch => some ⟨false, "credential pubkey does not match planned session"⟩
  | .hmacMismatch => some ⟨false, "credential HMAC does not match"⟩
  | _ => none

end AuthError

inductive EndpointKind where
  | nativeQuic
  | webTransport
  deriving DecidableEq

structure HostEndpoint where
  kind : EndpointKind
  codec : Codec ClientAuth
  sessionId : Uuid
  expectedClientCredential : SessionCredential

namespace HostEndpoint

variable (endpoint : HostEndpoint)

/-- The checks of a client's authentication, in the order of the host. -/
def checkAuth (auth : ClientAuth) (now : Nat) : Except AuthError Unit :=
  if auth.sessionId ≠ endpoint.sessionId then .error .sessionMismatch
  else if auth.credential.expiresUnixMillis < now ∨
      endpoint.expectedClientCredential.expiresUnixMillis < now then .error .expired
  else if auth.credential.clientPubkey ≠ endpoint.expectedClientCredential.clientPubkey then
    .error .pubkeyMismatch
  else if auth.credential.hmac ≠ endpoint.expectedClientCredential.hmac then .error .hmacMismatch
  else .ok ()

/-- `accept_authenticated_connection`, once a connection has come. -/
def acceptAuthenticatedConnection (attempt : Attempt) : Except AuthError Unit :=
  if attempt.connects then
    match attempt.stream with
    | none => .error .noStream
    | some stream =>
        match readJsonPrefixed endpoint.codec stream with
        | .error cause => .error (.unreadable cause)
        | .ok (auth, tail) =>
            match endpoint.checkAuth auth attempt.now with
            | .error e => .error e
            | .ok () =>
                if 1024 < tail.length then .error .longTail
                else if attempt.acks then .ok () else .error .acknowledgement
  else .error .handshake

/-- The session goes on with the connection. The path of a WebTransport request is
logged. -/
def admits (attempt : Attempt) : Bool :=
  match endpoint.kind with
  | .nativeQuic => (endpoint.acceptAuthenticatedConnection attempt).toOption.isSome
  | .webTransport => attempt.connects && attempt.stream.isSome

end HostEndpoint

/-! ## Connections in any order -/

inductive EndpointPhase where
  | listening
  /-- The session goes on with this connection. -/
  | serving (connection : Nat)
  /-- The session is over. -/
  | closed
  deriving DecidableEq

structure EndpointState where
  phase : EndpointPhase := .listening
  /-- The connections that came, in their order. -/
  attempts : List Attempt := []
  /-- Proof-only: the connections on which media was sent. -/
  media : List Nat := []
  /-- Proof-only: the connections whose input was injected. -/
  inputs : List Nat := []

inductive EndpointStep where
  | connects (attempt : Attempt)
  | sendsMedia
  | injectsInput

namespace HostEndpoint

variable (endpoint : HostEndpoint)

def step (s : EndpointState) : EndpointStep → Option EndpointState
  | .connects attempt =>
      some { s with
        attempts := s.attempts ++ [attempt]
        phase :=
          if s.phase = .listening then
            if endpoint.admits attempt then .serving s.attempts.length else .closed
          else s.phase }
  | .sendsMedia =>
      match s.phase with
      | .serving connection => some { s with media := s.media ++ [connection] }
      | _ => none
  | .injectsInput =>
      match s.phase with
      | .serving connection => some { s with inputs := s.inputs ++ [connection] }
      | _ => none

/-! ## Who gets the session -/

/-- The connection names the session and presents the public key and the tag that
were issued for it. -/
def presents (attempt : Attempt) : Bool :=
  match attempt.stream.map (readJsonPrefixed endpoint.codec) with
  | some (.ok (auth, _)) =>
      decide (auth.sessionId = endpoint.sessionId ∧
        auth.credential.clientPubkey = endpoint.expectedClientCredential.clientPubkey ∧
        auth.credential.hmac = endpoint.expectedClientCredential.hmac)
  | _ => false

/-- The planned client presents its credential in time, on a connection that works. -/
def Offers (attempt : Attempt) : Prop :=
  attempt.connects = true ∧ attempt.acks = true ∧
    attempt.now ≤ endpoint.expectedClientCredential.expiresUnixMillis ∧
    ∃ stream tail, attempt.stream = some stream ∧ tail.length ≤ 1024 ∧
      readJsonPrefixed endpoint.codec stream =
        .ok (⟨endpoint.sessionId, endpoint.expectedClientCredential⟩, tail)

/-- Media and input only with a connection that presented the credential, and the
planned client is served if nobody was. -/
structure ServesPlanned (s : EndpointState) : Prop where
  sound : ∀ connection ∈ s.media ++ s.inputs, ∃ attempt,
    s.attempts[connection]? = some attempt ∧ endpoint.presents attempt = true
  complete : (∀ connection, s.phase ≠ .serving connection) →
    ∀ attempt, endpoint.Offers attempt → ∃ next connection,
      endpoint.step s (.connects attempt) = some next ∧ next.phase = .serving connection ∧
        next.attempts[connection]? = some attempt

/-- The first connection gets through, and has presented the credential. -/
def Careful (s : EndpointState) : EndpointStep → Prop
  | .connects attempt => s.phase = .listening →
      endpoint.admits attempt = true ∧ endpoint.presents attempt = true
  | _ => True

instance (s : EndpointState) : DecidablePred (endpoint.Careful s)
  | .connects _ => by unfold Careful; infer_instance
  | .sendsMedia | .injectsInput => .isTrue trivial

variable {endpoint} {s next : EndpointState} {action : EndpointStep}

/-- Media and input go on with the connection that the session is served on. -/
theorem use_eq_some {action : EndpointStep} (uses : ∀ attempt, action ≠ .connects attempt)
    (stepped : endpoint.step s action = some next) :
    ∃ connection, s.phase = .serving connection ∧ next.phase = s.phase ∧
      next.attempts = s.attempts ∧
      ∀ other ∈ next.media ++ next.inputs, other ∈ s.media ++ s.inputs ∨ other = connection := by
  cases action with
  | connects attempt => exact absurd rfl (uses attempt)
  | sendsMedia =>
      rw [HostEndpoint.step] at stepped
      split at stepped
      · rename_i connection serving
        obtain rfl := Option.some.inj stepped
        refine ⟨connection, serving, rfl, rfl, fun other member => ?_⟩
        simp only [List.append_assoc, List.mem_append, List.mem_singleton] at member ⊢
        obtain before | new | after := member
        · exact .inl (.inl before)
        · exact .inr new
        · exact .inl (.inr after)
      · cases stepped
  | injectsInput =>
      rw [HostEndpoint.step] at stepped
      split at stepped
      · rename_i connection serving
        obtain rfl := Option.some.inj stepped
        refine ⟨connection, serving, rfl, rfl, fun other member => ?_⟩
        simp only [List.mem_append, List.mem_singleton] at member ⊢
        obtain before | after | new := member
        · exact .inl (.inl before)
        · exact .inl (.inr after)
        · exact .inr new
      · cases stepped

/-! ## Soundness -/

/-- The connection is one of those that came, and presented the credential. -/
def Proven (endpoint : HostEndpoint) (s : EndpointState) (connection : Nat) : Prop :=
  ∃ attempt, s.attempts[connection]? = some attempt ∧ endpoint.presents attempt = true

structure Sound (endpoint : HostEndpoint) (s : EndpointState) : Prop where
  serving : ∀ connection, s.phase = .serving connection → Proven endpoint s connection
  used : ∀ connection ∈ s.media ++ s.inputs, Proven endpoint s connection

theorem Proven.connects {connection : Nat} (proven : Proven endpoint s connection)
    (attempt : Attempt) (phase : EndpointPhase) :
    Proven endpoint { s with attempts := s.attempts ++ [attempt], phase } connection := by
  obtain ⟨other, came, presented⟩ := proven
  refine ⟨other, ?_, presented⟩
  have early := (List.getElem?_eq_some_iff.mp came).1
  show (s.attempts ++ [attempt])[connection]? = some other
  rw [List.getElem?_append_left early]
  exact came

/-- A step keeps who gets what, if a connection that is taken has presented the credential. -/
theorem Sound.step (sound : Sound endpoint s)
    (proves : ∀ attempt, action = .connects attempt → s.phase = .listening →
      endpoint.admits attempt = true → endpoint.presents attempt = true)
    (stepped : endpoint.step s action = some next) : Sound endpoint next := by
  cases action with
  | connects attempt =>
      obtain rfl := Option.some.inj stepped
      refine ⟨?_, fun connection member => (sound.used connection member).connects attempt _⟩
      intro connection serving
      change (if s.phase = .listening then _ else s.phase) = _ at serving
      split at serving
      · rename_i listening
        split at serving
        · rename_i admitted
          obtain rfl := EndpointPhase.serving.inj serving
          refine ⟨attempt, ?_, proves attempt rfl listening admitted⟩
          exact List.getElem?_concat_length
        · cases serving
      · exact (sound.serving connection serving).connects attempt _
  | sendsMedia | injectsInput =>
      obtain ⟨connection, serving, phase, attempts, members⟩ :=
        use_eq_some (fun _ differs => by cases differs) stepped
      have kept {other : Nat} (proven : Proven endpoint s other) : Proven endpoint next other := by
        rw [Proven, attempts]
        exact proven
      refine ⟨fun other now => kept (sound.serving other (phase ▸ now)), fun other member => ?_⟩
      obtain before | rfl := members other member
      · exact kept (sound.used other before)
      · exact kept (sound.serving other serving)

theorem sound_start (endpoint : HostEndpoint) : Sound endpoint {} := by
  constructor
  · intro connection serving
    cases serving
  · intro connection member
    cases member

theorem checkAuth_eq_ok {auth : ClientAuth} {now : Nat} :
    endpoint.checkAuth auth now = .ok () ↔ auth.sessionId = endpoint.sessionId ∧
      (now ≤ auth.credential.expiresUnixMillis ∧
        now ≤ endpoint.expectedClientCredential.expiresUnixMillis) ∧
      auth.credential.clientPubkey = endpoint.expectedClientCredential.clientPubkey ∧
      auth.credential.hmac = endpoint.expectedClientCredential.hmac := by
  rw [checkAuth]
  constructor
  · intro checked
    split at checked
    · cases checked
    · split at checked
      · cases checked
      · split at checked
        · cases checked
        · split at checked
          · cases checked
          · exact ⟨not_not.mp ‹_›, by omega, not_not.mp ‹_›, not_not.mp ‹_›⟩
  · rintro ⟨session, inTime, pubkey, hmac⟩
    rw [if_neg (not_not_intro session), if_neg (by omega), if_neg (not_not_intro pubkey),
      if_neg (not_not_intro hmac)]

/-! ## Completeness -/

theorem admits_of_offers {attempt : Attempt} (offers : endpoint.Offers attempt) :
    endpoint.admits attempt = true := by
  obtain ⟨connects, acks, inTime, stream, tail, opened, short, read⟩ := offers
  rw [admits]
  split
  · have checked : endpoint.checkAuth ⟨endpoint.sessionId, endpoint.expectedClientCredential⟩
        attempt.now = .ok () := checkAuth_eq_ok.mpr ⟨rfl, ⟨inTime, inTime⟩, rfl, rfl⟩
    rw [acceptAuthenticatedConnection, if_pos connects, opened]
    simp only [read, checked]
    rw [if_neg (by omega), if_pos acks]
    rfl
  · rw [connects, opened]
    rfl

/-- A listening endpoint serves the planned client. -/
theorem serves_of_listening (listening : s.phase = .listening) {attempt : Attempt}
    (offers : endpoint.Offers attempt) : ∃ next connection,
      endpoint.step s (.connects attempt) = some next ∧ next.phase = .serving connection ∧
        next.attempts[connection]? = some attempt := by
  refine ⟨_, s.attempts.length, rfl, ?_, List.getElem?_concat_length⟩
  show (if s.phase = .listening then _ else _) = _
  rw [if_pos listening, if_pos (admits_of_offers offers)]

theorem open_step (careful : endpoint.Careful s action) (opened : s.phase ≠ .closed)
    (stepped : endpoint.step s action = some next) : next.phase ≠ .closed := by
  cases action with
  | connects attempt =>
      obtain rfl := Option.some.inj stepped
      show (if s.phase = .listening then _ else s.phase) ≠ _
      split
      · rw [if_pos (careful ‹_›).1]
        intro closed
        cases closed
      · exact opened
  | sendsMedia | injectsInput =>
      obtain ⟨connection, -, phase, -⟩ := use_eq_some (fun _ differs => by cases differs) stepped
      rw [phase]
      exact opened

/-- Where the first connection gets through with the credential, the planned client and
nobody else is served. -/
theorem servesPlanned_of_careful (endpoint : HostEndpoint) (steps : List EndpointStep)
    (careful : Stepping.Meets endpoint.step endpoint.Careful {} steps) (s : EndpointState)
    (ran : Stepping.run endpoint.step {} steps = some s) : endpoint.ServesPlanned s := by
  have kept : Sound endpoint s ∧ s.phase ≠ .closed := by
    refine careful.invariant (I := fun s => Sound endpoint s ∧ s.phase ≠ .closed) ?_
      ⟨sound_start endpoint, fun closed => by cases closed⟩ ran
    intro s next action kept careful stepped
    refine ⟨kept.1.step ?_ stepped, open_step careful kept.2 stepped⟩
    rintro attempt rfl listening -
    exact (careful listening).2
  refine ⟨kept.1.used, fun unserved attempt offers => ?_⟩
  have listening : s.phase = .listening := by
    cases phase : s.phase with
    | listening => rfl
    | serving connection => exact absurd phase (unserved connection)
    | closed => exact absurd phase kept.2
  exact serves_of_listening listening offers

end HostEndpoint

/-! ## The first to come -/

namespace Sample

/-- A key of 32 bytes as JSON. -/
def keyText (last : String) : String := "[" ++ String.join (.replicate 31 "0,") ++ last ++ "]"

def authText : String :=
  "\x7b\"session_id\":\"00000000-0000-0000-0000-000000000000\",\"credential\":\x7b" ++
    "\"expires_unix_millis\":60000,\"client_pubkey\":" ++ keyText "2" ++ ",\"hmac\":" ++
    keyText "3" ++ "\x7d\x7d"

def issued : SessionCredential := ⟨"", 60000, Uuid.nil, 0, 2, 0, 3⟩

def authBytes : Bytes := authText.toList.map fun c => UInt8.ofNat c.toNat

/-- The authentication of the planned client as JSON. -/
def authJson : Codec ClientAuth where
  toVec _ := authBytes
  fromSlice bytes :=
    if bytes = authBytes then .ok ⟨Uuid.nil, issued⟩ else .error "expected value"

def endpointOf (kind : EndpointKind) : HostEndpoint := ⟨kind, authJson, Uuid.nil, issued⟩

def planned : Attempt := ⟨true, some (writeJsonPrefixed authJson ⟨Uuid.nil, issued⟩), 1000, true⟩

/-- Somebody else, who opens a stream and sends nothing that can be read. -/
def stranger : Attempt := ⟨true, some [0], 0, true⟩

theorem length_keyText (last : String) :
    (keyText last).toList.length = 64 + last.toList.length := by
  have zeros : (String.join (.replicate 31 "0,")).toList.length = 62 := by decide
  have opening : "[".toList.length = 1 := by decide
  have closing : "]".toList.length = 1 := by decide
  simp only [keyText, String.toList_append, List.length_append, zeros, opening, closing]
  omega

theorem length_pieces (a b c d e f : String) : (a ++ b ++ c ++ d ++ e ++ f).toList.length =
    a.toList.length + b.toList.length + c.toList.length + d.toList.length + e.toList.length +
      f.toList.length := by
  simp only [String.toList_append, List.length_append]

-- The text is measured piece by piece: the kernel takes long over a long text.
theorem length_authBytes : authBytes.length ≤ maxJsonFrame :=
  calc authBytes.length
      = authText.toList.length := List.length_map _
    _ = _ := length_pieces _ _ (keyText "2") _ (keyText "3") _
    _ = _ := by rw [length_keyText, length_keyText]
    _ ≤ maxJsonFrame := by decide

theorem read_planned : readJsonPrefixed authJson (writeJsonPrefixed authJson ⟨Uuid.nil, issued⟩) =
    .ok (⟨Uuid.nil, issued⟩, []) := by
  have inverts : authJson.Inverts ⟨Uuid.nil, issued⟩ := by
    simp only [Codec.Inverts, authJson, if_true]
  have small : authJson.Small ⟨Uuid.nil, issued⟩ := by
    simp only [Codec.Small, authJson]
    exact length_authBytes
  have read := readJsonPrefixed_append inverts small []
  rwa [List.append_nil] at read

theorem offers_planned (kind : EndpointKind) : (endpointOf kind).Offers planned :=
  ⟨rfl, rfl, show 1000 ≤ 60000 by omega, _, [], rfl, Nat.zero_le _, read_planned⟩

def plannedFirst : List EndpointStep :=
  [.connects planned, .sendsMedia, .injectsInput, .connects stranger]

theorem presents_planned (kind : EndpointKind) : (endpointOf kind).presents planned = true := by
  have read : planned.stream.map (readJsonPrefixed (endpointOf kind).codec) =
      some (.ok (⟨Uuid.nil, issued⟩, [])) := congrArg some read_planned
  rw [HostEndpoint.presents, read]
  exact decide_eq_true ⟨rfl, rfl, rfl⟩

theorem step_planned : (endpointOf .nativeQuic).step {} (.connects planned) =
    some { phase := .serving 0, attempts := [planned] } := by
  rw [HostEndpoint.step, if_pos rfl,
    if_pos (HostEndpoint.admits_of_offers (offers_planned .nativeQuic))]
  rfl

theorem careful_plannedFirst : Stepping.Meets (endpointOf .nativeQuic).step
    (endpointOf .nativeQuic).Careful {} plannedFirst := by
  refine ⟨fun _ => ⟨HostEndpoint.admits_of_offers (offers_planned .nativeQuic),
    presents_planned .nativeQuic⟩, fun served same => ?_⟩
  obtain rfl := Option.some.inj (step_planned.symm.trans same)
  refine ⟨trivial, fun shown same => ?_⟩
  obtain rfl := Option.some.inj same
  refine ⟨trivial, fun steered same => ?_⟩
  obtain rfl := Option.some.inj same
  exact ⟨fun listening => (by cases listening), fun _ _ => trivial⟩

theorem plannedFirst_servesPlanned : ∃ s,
    Stepping.run (endpointOf .nativeQuic).step {} plannedFirst = some s ∧
      s.media = [0] ∧ s.inputs = [0] ∧ (endpointOf .nativeQuic).ServesPlanned s := by
  have ran : Stepping.run (endpointOf .nativeQuic).step {} plannedFirst =
      some { phase := .serving 0, attempts := [planned, stranger], media := [0], inputs := [0] } := by
    rw [plannedFirst, Stepping.run_cons, step_planned]
    rfl
  exact ⟨_, ran, rfl, rfl, HostEndpoint.servesPlanned_of_careful (endpointOf .nativeQuic)
    plannedFirst careful_plannedFirst _ ran⟩

/-- A stranger that comes first keeps the planned client out of the one endpoint and gets the
media of the other. -/
theorem strangerFirst_not_servesPlanned :
    (∃ s, Stepping.run (endpointOf .nativeQuic).step {} [.connects stranger] = some s ∧
      ¬ (endpointOf .nativeQuic).ServesPlanned s) ∧
    ∃ s, Stepping.run (endpointOf .webTransport).step {} [.connects stranger, .sendsMedia] =
      some s ∧ ¬ (endpointOf .webTransport).ServesPlanned s := by
  constructor
  · refine ⟨_, rfl, fun serves => ?_⟩
    obtain ⟨next, connection, stepped, serving, -⟩ :=
      serves.complete (fun connection serving => by cases serving) planned (offers_planned _)
    obtain rfl := Option.some.inj stepped
    cases serving
  · refine ⟨_, rfl, fun serves => ?_⟩
    obtain ⟨attempt, came, presented⟩ := serves.sound 0 (.head _)
    obtain rfl := Option.some.inj came
    cases presented

end Sample

end Qubox.Transport
