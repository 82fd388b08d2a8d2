import Qubox.Library.Framing

/-!
# The socket of the daemon

The GUI, the host agent and the viewer ask the daemon over a local socket. A message is a header
of twenty bytes and a payload, which holds a request, a response or an event in bincode. The
daemon answers the requests of a connection one after the other, and leaves a connection at the
first thing that is not a request. A client takes the next message for the answer to what it has
asked: it looks neither at the kind nor at the correlation id.

The codec of the payloads and what the daemon does for a request are given.
-/

namespace Qubox.Daemon

open Bytes

/-! ## Headers -/

def ipcMagic : UInt32 := 0x71756278
def ipcVersion : UInt16 := 1
def ipcHeaderSize : Nat := 20
def ipcMaxPayload : UInt32 := 1048576

inductive IpcError where
  | badMagic (magic : UInt32)
  | unsupportedVersion (version : UInt16)
  | payloadTooLarge (payloadLen : UInt32)
  | read
  | deserialize (error : String)
  | unexpectedKind (kind : UInt16)
  deriving DecidableEq

structure Header where
  magic : UInt32
  version : UInt16
  kind : UInt16
  correlationId : UInt64
  payloadLen : UInt32
  deriving DecidableEq

namespace Header

def new (kind : UInt16) (correlationId : UInt64) (payloadLen : UInt32) : Header where
  magic := ipcMagic
  version := ipcVersion
  kind := kind
  correlationId := correlationId
  payloadLen := payloadLen

def encode (h : Header) : Bytes :=
  ofNatLE 4 h.magic.toNat ++ (ofNatLE 2 h.version.toNat ++ (ofNatLE 2 h.kind.toNat ++
    (ofNatLE 8 h.correlationId.toNat ++ ofNatLE 4 h.payloadLen.toNat)))

/-- The fields of twenty bytes. -/
def fields (buf : Bytes) : Header where
  magic := .ofNat (toNatLE (buf.take 4))
  version := .ofNat (toNatLE ((buf.drop 4).take 2))
  kind := .ofNat (toNatLE ((buf.drop 6).take 2))
  correlationId := .ofNat (toNatLE ((buf.drop 8).take 8))
  payloadLen := .ofNat (toNatLE (buf.drop 16))

def decode (buf : Bytes) : Except IpcError Header :=
  let h := fields buf
  if h.magic ≠ ipcMagic then .error (.badMagic h.magic)
  else if h.version ≠ ipcVersion then .error (.unsupportedVersion h.version)
  else if ipcMaxPayload < h.payloadLen then .error (.payloadTooLarge h.payloadLen)
  else .ok h

/-- The header passes the checks. -/
structure Valid (h : Header) : Prop where
  magic : h.magic = ipcMagic
  version : h.version = ipcVersion
  payloadLen : h.payloadLen ≤ ipcMaxPayload

variable {h : Header} {buf : Bytes}

theorem length_encode (h : Header) : h.encode.length = ipcHeaderSize := by
  simp only [encode, List.length_append, length_ofNatLE]
  rfl

theorem ofNatLE_read {width : Nat} {field : Bytes} (length : field.length = width) {n : Nat}
    (read : n = toNatLE field) : ofNatLE width n = field := by
  rw [read, ofNatLE_toNatLE_of_length length]

theorem fields_encode (h : Header) : fields h.encode = h := by
  have after_magic : h.encode.drop 4 = ofNatLE 2 h.version.toNat ++ (ofNatLE 2 h.kind.toNat ++
      (ofNatLE 8 h.correlationId.toNat ++ ofNatLE 4 h.payloadLen.toNat)) :=
    List.drop_left' (length_ofNatLE 4 _)
  have after_version : h.encode.drop 6 = ofNatLE 2 h.kind.toNat ++
      (ofNatLE 8 h.correlationId.toNat ++ ofNatLE 4 h.payloadLen.toNat) := by
    rw [show 6 = 4 + 2 from rfl, ← List.drop_drop, after_magic]
    exact List.drop_left' (length_ofNatLE 2 _)
  have after_kind : h.encode.drop 8 =
      ofNatLE 8 h.correlationId.toNat ++ ofNatLE 4 h.payloadLen.toNat := by
    rw [show 8 = 6 + 2 from rfl, ← List.drop_drop, after_version]
    exact List.drop_left' (length_ofNatLE 2 _)
  have after_id : h.encode.drop 16 = ofNatLE 4 h.payloadLen.toNat := by
    rw [show 16 = 8 + 8 from rfl, ← List.drop_drop, after_kind]
    exact List.drop_left' (length_ofNatLE 8 _)
  rw [fields, after_magic, after_version, after_kind, after_id, encode,
    List.take_left' (length_ofNatLE 4 _), List.take_left' (length_ofNatLE 2 _),
    List.take_left' (length_ofNatLE 2 _), List.take_left' (length_ofNatLE 8 _)]
  have magic : UInt32.ofNat (h.magic.toNat % 256 ^ 4) = h.magic := by
    rw [Nat.mod_eq_of_lt (show _ < 256 ^ 4 from h.magic.toNat_lt), UInt32.ofNat_toNat]
  have version : UInt16.ofNat (h.version.toNat % 256 ^ 2) = h.version := by
    rw [Nat.mod_eq_of_lt (show _ < 256 ^ 2 from h.version.toNat_lt), UInt16.ofNat_toNat]
  have kind : UInt16.ofNat (h.kind.toNat % 256 ^ 2) = h.kind := by
    rw [Nat.mod_eq_of_lt (show _ < 256 ^ 2 from h.kind.toNat_lt), UInt16.ofNat_toNat]
  have correlationId : UInt64.ofNat (h.correlationId.toNat % 256 ^ 8) = h.correlationId := by
    rw [Nat.mod_eq_of_lt (show _ < 256 ^ 8 from h.correlationId.toNat_lt), UInt64.ofNat_toNat]
  have payloadLen : UInt32.ofNat (h.payloadLen.toNat % 256 ^ 4) = h.payloadLen := by
    rw [Nat.mod_eq_of_lt (show _ < 256 ^ 4 from h.payloadLen.toNat_lt), UInt32.ofNat_toNat]
  simp only [toNatLE_ofNatLE, magic, version, kind, correlationId, payloadLen]

theorem encode_fields (length : buf.length = ipcHeaderSize) : (fields buf).encode = buf := by
  have magic : (buf.take 4).length = 4 := by
    rw [List.length_take, length]
    rfl
  have version : ((buf.drop 4).take 2).length = 2 := by
    rw [List.length_take, List.length_drop, length]
    rfl
  have kind : ((buf.drop 6).take 2).length = 2 := by
    rw [List.length_take, List.length_drop, length]
    rfl
  have correlationId : ((buf.drop 8).take 8).length = 8 := by
    rw [List.length_take, List.length_drop, length]
    rfl
  have payloadLen : (buf.drop 16).length = 4 := by
    rw [List.length_drop, length]
    rfl
  have below : ∀ {field : Bytes} {width : Nat}, field.length = width →
      toNatLE field < 256 ^ width := by
    rintro field _ rfl
    exact toNatLE_lt field
  rw [encode, fields]
  dsimp only
  rw [ofNatLE_read magic (UInt32.toNat_ofNat_of_lt' (below magic)),
    ofNatLE_read version (UInt16.toNat_ofNat_of_lt' (below version)),
    ofNatLE_read kind (UInt16.toNat_ofNat_of_lt' (below kind)),
    ofNatLE_read correlationId (UInt64.toNat_ofNat_of_lt' (below correlationId)),
    ofNatLE_read payloadLen (UInt32.toNat_ofNat_of_lt' (below payloadLen))]
  have after_kind : (buf.drop 8).take 8 ++ buf.drop 16 = buf.drop 8 := by
    rw [show 16 = 8 + 8 from rfl, ← List.drop_drop, List.take_append_drop]
  have after_version : (buf.drop 6).take 2 ++ buf.drop 8 = buf.drop 6 := by
    rw [show 8 = 6 + 2 from rfl, ← List.drop_drop, List.take_append_drop]
  have after_magic : (buf.drop 4).take 2 ++ buf.drop 6 = buf.drop 4 := by
    rw [show 6 = 4 + 2 from rfl, ← List.drop_drop, List.take_append_drop]
  rw [after_kind, after_version, after_magic, List.take_append_drop]

/-- What is accepted is the one encoding of a header that passes the checks. -/
theorem decode_eq_ok (length : buf.length = ipcHeaderSize) :
    decode buf = .ok h ↔ h.Valid ∧ buf = h.encode := by
  rw [decode]
  constructor
  · intro decoded
    split at decoded
    · cases decoded
    next magic =>
    split at decoded
    · cases decoded
    next version =>
    split at decoded
    · cases decoded
    next small =>
    obtain rfl := Except.ok.inj decoded
    exact ⟨⟨not_not.mp magic, not_not.mp version, UInt32.not_lt.mp small⟩,
      (encode_fields length).symm⟩
  · rintro ⟨valid, rfl⟩
    rw [fields_encode, if_neg (not_not.mpr valid.magic), if_neg (not_not.mpr valid.version),
      if_neg (UInt32.not_lt.mpr valid.payloadLen)]

theorem decode_large (magic : h.magic = ipcMagic) (version : h.version = ipcVersion)
    (large : ipcMaxPayload < h.payloadLen) :
    decode h.encode = .error (.payloadTooLarge h.payloadLen) := by
  rw [decode, fields_encode, if_neg (not_not.mpr magic), if_neg (not_not.mpr version),
    if_pos large]

/-- A header that passes the checks is one that the program writes. -/
theorem Valid.eq_new (valid : h.Valid) : h = new h.kind h.correlationId h.payloadLen := by
  obtain ⟨magic, version, kind, correlationId, payloadLen⟩ := h
  obtain ⟨rfl, rfl, -⟩ := valid
  rfl

end Header

/-! ## Messages -/

/-- `bincode`, for one type. -/
structure Bincode (α : Type) where
  serialize : α → Bytes
  deserialize : Bytes → Except String α
  deserialize_serialize : ∀ a, deserialize (serialize a) = .ok a

/-- A message of kind 1 is a request, 2 a response, 3 an event. -/
def ipcFrame (kind : UInt16) (correlationId : UInt64) (payload : Bytes) : Bytes :=
  (Header.new kind correlationId (.ofNat payload.length)).encode ++ payload

/-- The message at the front of a stream, and the stream behind it. There is none where there is
no whole header. -/
def readFrame (stream : Bytes) : Except IpcError (Option ((Header × Bytes) × Bytes)) :=
  if stream.length < ipcHeaderSize then .ok none
  else
    match Header.decode (stream.take ipcHeaderSize) with
    | .error e => .error e
    | .ok h =>
        let rest := stream.drop ipcHeaderSize
        if rest.length < h.payloadLen.toNat then .error .read
        else .ok (some ((h, rest.take h.payloadLen.toNat), rest.drop h.payloadLen.toNat))

/-- The payload is small enough for the readers. -/
def Small (payload : Bytes) : Prop := payload.length ≤ ipcMaxPayload.toNat

instance (payload : Bytes) : Decidable (Small payload) :=
  inferInstanceAs (Decidable (_ ≤ _))

section Frames

variable {kind : UInt16} {correlationId : UInt64} {payload stream rest : Bytes} {h : Header}

theorem Small.lt (small : Small payload) : payload.length < 2 ^ 32 :=
  Nat.lt_of_le_of_lt small (UInt32.toNat_lt _)

theorem Small.size (small : Small payload) :
    (UInt32.ofNat payload.length).toNat = payload.length :=
  UInt32.toNat_ofNat_of_lt' small.lt

theorem Small.valid (small : Small payload) (kind : UInt16) (correlationId : UInt64) :
    (Header.new kind correlationId (.ofNat payload.length)).Valid :=
  ⟨rfl, rfl, UInt32.le_iff_toNat_le.mpr (small.size.le.trans small)⟩

theorem ipcMaxPayload_lt (large : ¬ Small payload) (addressable : payload.length < 2 ^ 32) :
    ipcMaxPayload < UInt32.ofNat payload.length := by
  rw [UInt32.lt_iff_toNat_lt, UInt32.toNat_ofNat_of_lt' addressable]
  exact Nat.lt_of_not_le large

theorem readFrame_of_header (rest : Bytes) (h : Header) :
    readFrame (h.encode ++ rest) =
      match Header.decode h.encode with
      | .error e => .error e
      | .ok h =>
          if rest.length < h.payloadLen.toNat then .error .read
          else .ok (some ((h, rest.take h.payloadLen.toNat), rest.drop h.payloadLen.toNat)) := by
  have whole : ¬ (h.encode ++ rest).length < ipcHeaderSize := by
    rw [List.length_append, h.length_encode]
    omega
  rw [readFrame, if_neg whole, List.take_left' h.length_encode, List.drop_left' h.length_encode]

theorem readFrame_ipcFrame (kind : UInt16) (correlationId : UInt64) (small : Small payload)
    (rest : Bytes) :
    readFrame (ipcFrame kind correlationId payload ++ rest) =
      .ok (some ((.new kind correlationId (.ofNat payload.length), payload), rest)) := by
  have whole : ¬ (payload ++ rest).length < (UInt32.ofNat payload.length).toNat := by
    rw [small.size, List.length_append]
    omega
  have decoded := (Header.decode_eq_ok (Header.length_encode _)).mpr
    ⟨small.valid kind correlationId, rfl⟩
  rw [ipcFrame, List.append_assoc, readFrame_of_header, decoded]
  dsimp only [Header.new]
  rw [if_neg whole, small.size, List.take_left, List.drop_left]

theorem readFrame_large (kind : UInt16) (correlationId : UInt64) (large : ¬ Small payload)
    (addressable : payload.length < 2 ^ 32) (rest : Bytes) :
    readFrame (ipcFrame kind correlationId payload ++ rest) =
      .error (.payloadTooLarge (.ofNat payload.length)) := by
  rw [ipcFrame, List.append_assoc, readFrame_of_header,
    Header.decode_large rfl rfl (ipcMaxPayload_lt large addressable)]
  rfl

theorem readFrame_eq_some (read : readFrame stream = .ok (some ((h, payload), rest))) :
    Small payload ∧ stream = ipcFrame h.kind h.correlationId payload ++ rest := by
  rw [readFrame] at read
  split at read
  · cases read
  next whole =>
  split at read
  · cases read
  next header decoded =>
  dsimp only at read
  split at read
  · cases read
  next complete =>
  have front : (stream.take ipcHeaderSize).length = ipcHeaderSize :=
    List.length_take_of_le (Nat.le_of_not_lt whole)
  obtain ⟨valid, encoded⟩ := (Header.decode_eq_ok front).mp decoded
  simp only [Except.ok.injEq, Option.some.injEq, Prod.mk.injEq] at read
  obtain ⟨⟨rfl, rfl⟩, rfl⟩ := read
  have length : ((stream.drop ipcHeaderSize).take header.payloadLen.toNat).length =
      header.payloadLen.toNat :=
    List.length_take_of_le (Nat.le_of_not_lt complete)
  refine ⟨length.le.trans (UInt32.le_iff_toNat_le.mp valid.payloadLen), ?_⟩
  rw [ipcFrame, length, UInt32.ofNat_toNat, ← valid.eq_new, ← encoded, List.append_assoc,
    List.take_append_drop, List.take_append_drop]

end Frames

/-! ## A connection at the daemon -/

section Daemon

variable {S Req Resp : Type} (requests : Bincode Req) (responses : Bincode Resp)
  (subscribes : Req → Bool) (handle : S → Req → S × Resp)

def nextRequest (stream : Bytes) : Except IpcError (Option ((UInt64 × Req) × Bytes)) :=
  match readFrame stream with
  | .error e => .error e
  | .ok none => .ok none
  | .ok (some ((h, payload), rest)) =>
      if h.kind = 1 then
        match requests.deserialize payload with
        | .error error => .error (.deserialize error)
        | .ok request => .ok (some ((h.correlationId, request), rest))
      else .error (.unexpectedKind h.kind)

/-- What the daemon is told of the other side of a connection. -/
inductive Peer where
  /-- The platform is not asked. -/
  | unknown
  /-- `SO_PEERCRED` on Linux, which may fail. -/
  | credentials (uid : Option UInt32)
  deriving DecidableEq

/-- The peer is not known to be another user. -/
def Peer.trusted (daemonUid : UInt32) : Peer → Bool
  | unknown => true
  | credentials (some uid) => uid == daemonUid
  | credentials none => false

/-- What is written to a peer that is sent away. -/
def Peer.refusal : Peer → Bytes
  | credentials (some _) => (Header.new 2 0 0).encode
  | _ => []

/-- What becomes of the daemon in this many turns of the loop, and what it writes. A subscription
keeps the connection, and everything else that is not answered ends it. -/
def serveRequests : Nat → S → Bytes → S × Bytes
  | 0, s, _ => (s, [])
  | turns + 1, s, stream =>
      match nextRequest requests stream with
      | .error _ | .ok none => (s, [])
      | .ok (some ((correlationId, request), rest)) =>
          if subscribes request then (s, [])
          else
            let (s, response) := handle s request
            let (last, written) := serveRequests turns s rest
            (last, ipcFrame 2 correlationId (responses.serialize response) ++ written)

/-- The loop is for the daemon's own user. -/
def handleConnection (daemonUid : UInt32) (peer : Peer) (turns : Nat) (s : S) (stream : Bytes) :
    S × Bytes :=
  if peer.trusted daemonUid then serveRequests requests responses subscribes handle turns s stream
  else (s, peer.refusal)

/-- The requests answered in order, up to a subscription. -/
def answered : S → List (UInt64 × Req) → S × Bytes
  | s, [] => (s, [])
  | s, (correlationId, request) :: rest =>
      if subscribes request then (s, [])
      else
        let (s, response) := handle s request
        let (last, written) := answered s rest
        (last, ipcFrame 2 correlationId (responses.serialize response) ++ written)

/-- A message that holds a request. -/
structure RequestFrame where
  correlationId : UInt64
  payload : Bytes
  request : Req
  small : Small payload
  decodes : requests.deserialize payload = .ok request

variable {requests}

namespace RequestFrame

def bytes (frame : RequestFrame requests) : Bytes := ipcFrame 1 frame.correlationId frame.payload

/-- What the daemon makes of it. -/
def meaning (frame : RequestFrame requests) : UInt64 × Req := (frame.correlationId, frame.request)

theorem nextRequest_bytes (frame : RequestFrame requests) (rest : Bytes) :
    nextRequest requests (frame.bytes ++ rest) = .ok (some (frame.meaning, rest)) := by
  rw [nextRequest, bytes, readFrame_ipcFrame _ _ frame.small]
  dsimp only [Header.new]
  rw [if_pos rfl, frame.decodes]
  rfl

end RequestFrame

variable {stream rest : Bytes} {responses subscribes handle} {s : S}

theorem exists_frame {meaning : UInt64 × Req}
    (read : nextRequest requests stream = .ok (some (meaning, rest))) :
    ∃ frame : RequestFrame requests, frame.meaning = meaning ∧ stream = frame.bytes ++ rest := by
  rw [nextRequest] at read
  split at read
  · cases read
  · cases read
  next h payload tail front =>
  split at read
  case isFalse => cases read
  case isTrue kind =>
    split at read
    · cases read
    next request decodes =>
    simp only [Except.ok.injEq, Option.some.injEq, Prod.mk.injEq] at read
    obtain ⟨rfl, rfl⟩ := read
    obtain ⟨small, same⟩ := readFrame_eq_some front
    refine ⟨⟨h.correlationId, payload, request, small, decodes⟩, rfl, ?_⟩
    rw [same, kind]
    rfl

/-- The daemon reads nothing at the front of the stream. -/
def Stuck (requests : Bincode Req) (stream : Bytes) : Prop :=
  ∀ (frame : RequestFrame requests) rest, stream ≠ frame.bytes ++ rest

theorem length_bytes_pos (frame : RequestFrame requests) : 0 < frame.bytes.length := by
  rw [RequestFrame.bytes, ipcFrame, List.length_append, Header.length_encode]
  exact Nat.lt_of_lt_of_le (by decide) (Nat.le_add_right ipcHeaderSize _)

/-- A stream begins with requests, and then comes something else. -/
theorem exists_frames (requests : Bincode Req) (stream : Bytes) :
    ∃ (frames : List (RequestFrame requests)) (rest : Bytes),
      stream = frames.flatMap RequestFrame.bytes ++ rest ∧ Stuck requests rest := by
  induction size : stream.length using Nat.strongRecOn generalizing stream with
  | ind size ih =>
      subst size
      by_cases stuck : Stuck requests stream
      case pos => exact ⟨[], stream, rfl, stuck⟩
      case neg =>
        obtain ⟨frame, goes⟩ := not_forall.mp stuck
        obtain ⟨rest, goes⟩ := not_forall.mp goes
        obtain rfl := not_not.mp goes
        have shorter : rest.length < (frame.bytes ++ rest).length := by
          have pos := length_bytes_pos frame
          rw [List.length_append]
          omega
        obtain ⟨frames, last, rfl, ends⟩ := ih _ shorter rest rfl
        exact ⟨frame :: frames, last, by rw [List.flatMap_cons, List.append_assoc], ends⟩

theorem serveRequests_stuck (stuck : Stuck requests stream) (turns : Nat) :
    serveRequests requests responses subscribes handle turns s stream = (s, []) := by
  cases turns with
  | zero => rfl
  | succ turns =>
      rw [serveRequests]
      cases read : nextRequest requests stream with
      | error _ => rfl
      | ok found =>
          cases found with
          | none => rfl
          | some found =>
              obtain ⟨frame, -, same⟩ := exists_frame read
              exact absurd same (stuck frame _)

theorem serveRequests_frames {frames : List (RequestFrame requests)} (stuck : Stuck requests rest)
    {turns : Nat} (enough : frames.length ≤ turns) :
    serveRequests requests responses subscribes handle turns s
        (frames.flatMap RequestFrame.bytes ++ rest) =
      answered responses subscribes handle s (frames.map RequestFrame.meaning) := by
  induction frames generalizing s turns with
  | nil => exact serveRequests_stuck stuck turns
  | cons frame frames ih =>
      cases turns with
      | zero => exact absurd enough (Nat.not_succ_le_zero _)
      | succ turns =>
          rw [List.flatMap_cons, List.append_assoc, serveRequests, frame.nextRequest_bytes,
            List.map_cons]
          dsimp only [RequestFrame.meaning, answered]
          rw [ih (Nat.le_of_succ_le_succ enough)]

/-- Whatever a client writes, the daemon answers the requests at its front, in their order, each
under its own correlation id, and nothing behind them. A client of another user is not answered
at all. -/
theorem handleConnection_serves (requests : Bincode Req) (responses : Bincode Resp)
    (subscribes : Req → Bool) (handle : S → Req → S × Resp) (stream : Bytes) :
    ∃ (frames : List (RequestFrame requests)) (rest : Bytes),
      stream = frames.flatMap RequestFrame.bytes ++ rest ∧ Stuck requests rest ∧
        ∀ daemonUid peer s turns, stream.length ≤ turns →
          handleConnection requests responses subscribes handle daemonUid peer turns s stream =
            if peer.trusted daemonUid then
              answered responses subscribes handle s (frames.map RequestFrame.meaning)
            else (s, peer.refusal) := by
  obtain ⟨frames, rest, rfl, stuck⟩ := exists_frames requests stream
  have few : frames.length ≤ (frames.flatMap RequestFrame.bytes ++ rest).length := by
    have long : ∀ frames : List (RequestFrame requests),
        frames.length ≤ (frames.flatMap RequestFrame.bytes).length := by
      intro frames
      induction frames with
      | nil => exact Nat.le_refl 0
      | cons frame frames ih =>
          have pos := length_bytes_pos frame
          rw [List.flatMap_cons, List.length_append, List.length_cons]
          omega
    rw [List.length_append]
    exact Nat.le_add_right_of_le (long frames)
  refine ⟨frames, rest, rfl, stuck, fun daemonUid peer s turns enough => ?_⟩
  rw [handleConnection, serveRequests_frames stuck (few.trans enough)]

end Daemon

/-! ## A client -/

/-- A connection of a client that waits for each answer. Its writes do not fail. -/
structure Connection (S : Type) where
  daemon : S
  /-- What the client has written and the daemon has not read. -/
  toDaemon : Bytes := []
  toClient : Bytes := []
  /-- The daemon has not left the connection. -/
  serving : Bool := true

namespace Connection

variable {S Req Resp : Type} (requests : Bincode Req) (responses : Bincode Resp)
  (subscribes : Req → Bool) (handle : S → Req → S × Resp)

/-- A peer that is not trusted finds the connection left. -/
def accept (daemonUid : UInt32) (peer : Peer) (daemon : S) : Connection S :=
  if peer.trusted daemonUid then { daemon }
  else { daemon, toClient := peer.refusal, serving := false }

/-- A turn of the daemon's loop. While the connection is open, a message that is not there as a
whole is waited for. -/
def turn (c : Connection S) : Connection S :=
  if c.serving then
    match nextRequest requests c.toDaemon with
    | .ok none | .error .read => c
    | .error _ => { c with serving := false }
    | .ok (some ((correlationId, request), rest)) =>
        if subscribes request then { c with serving := false }
        else
          let (daemon, response) := handle c.daemon request
          { c with
            daemon
            toDaemon := rest
            toClient := c.toClient ++ ipcFrame 2 correlationId (responses.serialize response) }
  else c

/-- The client reads the next message. It has no result if it waits for ever. -/
def receive (c : Connection S) : Option (Connection S × Except IpcError Resp) :=
  match readFrame c.toClient with
  | .ok (some ((_, payload), rest)) =>
      some ({ c with toClient := rest },
        match responses.deserialize payload with
        | .ok response => .ok response
        | .error error => .error (.deserialize error))
  | .ok none | .error .read =>
      if c.serving then none else some ({ c with toClient := [] }, .error .read)
  | .error e => some ({ c with toClient := c.toClient.drop ipcHeaderSize }, .error e)

/-- `IpcClient::call`. -/
def call (c : Connection S) (correlationId : UInt64) (request : Req) :
    Option (Connection S × Except IpcError Resp) :=
  (turn requests responses subscribes handle { c with
    toDaemon := c.toDaemon ++ ipcFrame 1 correlationId (requests.serialize request) }).receive
      responses

/-- The results of calls on one connection. -/
def calls : Connection S → List (UInt64 × Req) → List (Except IpcError Resp)
  | _, [] => []
  | c, (correlationId, request) :: rest =>
      match c.call requests responses subscribes handle correlationId request with
      | none => []
      | some (c, result) => result :: calls c rest

/-- What the requests lead to, up to the first message that is too large. The daemon is not asked
if it is the request, and the answer is lost if it is the response. -/
def expected : S → List Req → List (Except IpcError Resp)
  | _, [] => []
  | s, request :: rest =>
      if Small (requests.serialize request) then
        let (s, response) := handle s request
        let payload := responses.serialize response
        if Small payload then .ok response :: expected s rest
        else [.error (.payloadTooLarge (.ofNat payload.length))]
      else [.error .read]

variable {requests responses subscribes handle} {s : S} {request : Req} {correlationId : UInt64}

theorem nextRequest_small (small : Small (requests.serialize request)) :
    nextRequest requests (ipcFrame 1 correlationId (requests.serialize request)) =
      .ok (some ((correlationId, request), [])) := by
  have read := RequestFrame.nextRequest_bytes ⟨correlationId, requests.serialize request, request,
    small, requests.deserialize_serialize request⟩ []
  rwa [List.append_nil] at read

theorem turn_small (plain : subscribes request = false)
    (small : Small (requests.serialize request)) :
    turn requests responses subscribes handle
        { daemon := s, toDaemon := ipcFrame 1 correlationId (requests.serialize request) } =
      { daemon := (handle s request).1
        toClient := ipcFrame 2 correlationId (responses.serialize (handle s request).2) } := by
  rw [turn, if_pos rfl]
  dsimp only
  rw [nextRequest_small small]
  dsimp only
  rw [plain]
  rfl

theorem turn_large (large : ¬ Small (requests.serialize request))
    (addressable : (requests.serialize request).length < 2 ^ 32) :
    turn requests responses subscribes handle
        { daemon := s, toDaemon := ipcFrame 1 correlationId (requests.serialize request) } =
      { daemon := s
        toDaemon := ipcFrame 1 correlationId (requests.serialize request)
        serving := false } := by
  have read := readFrame_large 1 correlationId large addressable []
  rw [List.append_nil] at read
  rw [turn, if_pos rfl]
  dsimp only
  rw [nextRequest, read]

theorem receive_response {response : Resp} (fits : Small (responses.serialize response)) (s : S) :
    receive responses
        { daemon := s, toClient := ipcFrame 2 correlationId (responses.serialize response) } =
      some ({ daemon := s }, .ok response) := by
  have read := readFrame_ipcFrame 2 correlationId fits []
  rw [List.append_nil] at read
  rw [receive]
  dsimp only
  rw [read]
  dsimp only
  rw [responses.deserialize_serialize]

theorem receive_large {response : Resp} (large : ¬ Small (responses.serialize response))
    (addressable : (responses.serialize response).length < 2 ^ 32) (s : S) :
    ∃ c, receive responses
        { daemon := s, toClient := ipcFrame 2 correlationId (responses.serialize response) } =
      some (c, .error (.payloadTooLarge (.ofNat (responses.serialize response).length))) := by
  have read := readFrame_large 2 correlationId large addressable []
  rw [List.append_nil] at read
  rw [receive]
  dsimp only
  rw [read]
  exact ⟨_, rfl⟩

theorem expected_prefix {asked : List (UInt64 × Req)}
    (plain : ∀ call ∈ asked, subscribes call.2 = false)
    (requests_addressable : ∀ request, (requests.serialize request).length < 2 ^ 32)
    (responses_addressable : ∀ response, (responses.serialize response).length < 2 ^ 32) (s : S) :
    expected requests responses handle s (asked.map Prod.snd) <+:
      calls requests responses subscribes handle { daemon := s } asked := by
  induction asked generalizing s with
  | nil => exact List.nil_prefix
  | cons first rest ih =>
      obtain ⟨correlationId, request⟩ := first
      have first_plain : subscribes request = false := plain _ List.mem_cons_self
      rw [List.map_cons, expected, calls, call]
      dsimp only [List.nil_append]
      split
      case isTrue small =>
        rw [turn_small first_plain small]
        split
        case isTrue fits =>
          rw [receive_response fits]
          exact List.cons_prefix_cons.mpr
            ⟨rfl, ih (fun call member => plain call (.tail _ member)) _⟩
        case isFalse large =>
          obtain ⟨c, received⟩ := receive_large large (responses_addressable _) (handle s request).1
          rw [received]
          exact List.cons_prefix_cons.mpr ⟨rfl, List.nil_prefix⟩
      case isFalse large =>
        rw [turn_large large (requests_addressable request)]
        exact List.cons_prefix_cons.mpr ⟨rfl, List.nil_prefix⟩

/-- Each call of a client of the daemon's user gets the response to its own request, and no other,
until a message is too large. -/
theorem expected_prefix_calls {asked : List (UInt64 × Req)} {daemonUid : UInt32} {peer : Peer}
    (own : peer.trusted daemonUid = true)
    (plain : ∀ call ∈ asked, subscribes call.2 = false)
    (requests_addressable : ∀ request, (requests.serialize request).length < 2 ^ 32)
    (responses_addressable : ∀ response, (responses.serialize response).length < 2 ^ 32) (s : S) :
    expected requests responses handle s (asked.map Prod.snd) <+:
      calls requests responses subscribes handle (accept daemonUid peer s) asked := by
  rw [accept, if_pos own]
  exact expected_prefix plain requests_addressable responses_addressable s

end Connection

namespace Sample

/-- One byte for each value. -/
def byte : Bincode UInt8 where
  serialize value := [value]
  deserialize
    | value :: _ => .ok value
    | [] => .error "io error: unexpected end of file"
  deserialize_serialize _ := rfl

/-- A daemon that counts. -/
def count (total request : UInt8) : UInt8 × UInt8 := (total + request, total)

def asked : List (UInt64 × UInt8) := [(7, 1), (7, 2)]

theorem counts : Connection.expected byte byte count 0 (asked.map Prod.snd) <+:
    Connection.calls byte byte (fun _ => false) count
      (.accept 1000 (.credentials (some 1000)) 0) asked := by
  have addressable : ∀ value, (byte.serialize value).length < 2 ^ 32 := by
    intro value
    exact Nat.one_lt_two_pow (by decide)
  apply Connection.expected_prefix_calls (by decide) _ addressable addressable
  intro call _
  rfl

end Sample

end Qubox.Daemon
