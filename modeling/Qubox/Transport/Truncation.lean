import Qubox.Transport.Reliable

/-!
# Streams that end

The three formats are framings with a width of four: what a receiver accepts is
smaller than what a sender sends, and one to three bytes of a length are the end
of the stream to a receiver. A control message moreover may have a JSON text that
is not read back. `Exact` says of a sender and a receiver that these are the only
reasons for which a stream does not arrive, or a cut is not noticed.
-/

namespace Qubox.Transport

open Framing

section Statement

variable {M R : Type} (send : M → Bytes)
  (next : Bytes → Except TransportError (Option (R × Bytes))) (deliver : M → R)

/-- The receiver gets all messages, and then the end of the stream. -/
def Transported (messages : List M) : Prop :=
  Ends next (messages.flatMap send) (messages.map deliver) (.ok ())

/-- Of a stream that is cut within a message, the receiver gets some of the
messages before it, and then an error. -/
def Detected (before : List M) (m : M) (count : Nat) : Prop :=
  ∃ received e, received <+: before.map deliver ∧
    Ends next (before.flatMap send ++ (send m).take count) received (.error e)

/-- Messages arrive exactly if the receiver accepts them as they are, and a cut is
detected unless it comes, after such messages, within a length, or the first message
that is not read as it is is read as another one. -/
structure Exact (Sent Fits Misread : M → Prop) : Prop where
  whole : ∀ messages, (∀ m ∈ messages, Sent m) →
    (Transported send next deliver messages ↔ ∀ m ∈ messages, Fits m)
  cut : ∀ before m count, (∀ m ∈ before, Sent m) → Sent m → 0 < count →
    count < (send m).length →
      (Detected send next deliver before m count ↔
        ¬ ((∀ m ∈ before, Fits m) ∧ count < 4) ∧ ¬ Strays Fits Misread before)

end Statement

/-- A format of width four is exact. -/
theorem exact_of_framing {M R : Type} (F : Framing M R TransportError) (width : F.width = 4) :
    Exact F.encode F.next F.deliver F.Sent F.Fits F.Misread where
  whole messages sent := F.arrives_iff sent
  cut before m count sent sent_cut _ within := by
    rw [← width]
    exact F.notices_iff sent sent_cut within

/-! ## Packets -/

namespace Packets

variable {H R : Type} {p : Packets H R} {sessionId : Uuid} {header : H} {bytes : Bytes}

theorem readHeader_append (readable : p.json.Readable header) (rest : Bytes) :
    p.readHeader (writeJsonPrefixed p.json header ++ rest) =
      if p.maxBytes < p.byteLen header then .error (p.tooLarge (p.byteLen header))
      else .ok (some (header, rest)) := by
  rw [readHeader, maybeReadJsonPrefixed_append readable.1 readable.2]

theorem readHeader_short {stream : Bytes} (short : stream.length < 4) :
    p.readHeader stream = .ok none := by
  rw [readHeader, maybeReadJsonPrefixed_short short]

theorem readHeader_cut (small : p.json.Small header) {count : Nat} (long : 4 ≤ count)
    (within : count < (writeJsonPrefixed p.json header).length) :
    ∃ e, p.readHeader ((writeJsonPrefixed p.json header).take count) = .error e := by
  obtain ⟨e, failed⟩ := maybeReadJsonPrefixed_cut small long within
  exact ⟨e, by rw [readHeader, failed]⟩

theorem read_of_error {stream : Bytes} {e : TransportError} (failed : p.readHeader stream = .error e) :
    p.read sessionId stream = .error (.context p.headerText e) := by
  rw [read, failed]
  rfl

theorem read_of_none {stream : Bytes} (nothing : p.readHeader stream = .ok none) :
    p.read sessionId stream = .ok none := by
  rw [read, nothing]
  rfl

theorem read_of_header {stream rest : Bytes} (found : p.readHeader stream = .ok (some (header, rest)))
    (ours : p.sessionId header = sessionId) :
    p.read sessionId stream = p.readBytes header rest := by
  rw [read, found]
  exact if_neg (not_not.mpr ours)

/-- A packet of the session that announces what follows, with a header that the
reader can read. -/
structure Proper (p : Packets H R) (sessionId : Uuid) (header : H) (bytes : Bytes) : Prop where
  readable : p.json.Readable header
  announced : p.byteLen header = bytes.length
  ours : p.sessionId header = sessionId

theorem Proper.read_fits (proper : p.Proper sessionId header bytes)
    (fits : bytes.length ≤ p.maxBytes) (rest : Bytes) :
    p.read sessionId (p.write header bytes ++ rest) = .ok (some (p.received header bytes, rest)) := by
  have found : p.readHeader (p.write header bytes ++ rest) = .ok (some (header, bytes ++ rest)) := by
    rw [write, List.append_assoc, readHeader_append proper.readable, proper.announced,
      if_neg (Nat.not_lt.mpr fits)]
  rw [read_of_header found proper.ours, readBytes, proper.announced, readExact_append]
  rfl

theorem Proper.read_unfit (proper : p.Proper sessionId header bytes)
    (unfit : ¬ bytes.length ≤ p.maxBytes) (rest : Bytes) :
    ∃ e, p.read sessionId (p.write header bytes ++ rest) = .error e := by
  suffices p.readHeader (p.write header bytes ++ rest) = .error (p.tooLarge (p.byteLen header)) from
    ⟨_, read_of_error this⟩
  rw [write, List.append_assoc, readHeader_append proper.readable, proper.announced,
    if_pos (Nat.not_le.mp unfit)]

theorem Proper.read_cut (proper : p.Proper sessionId header bytes) {count : Nat}
    (long : 4 ≤ count) (within : count < (p.write header bytes).length) :
    ∃ e, p.read sessionId ((p.write header bytes).take count) = .error e := by
  by_cases early : count < (writeJsonPrefixed p.json header).length
  case pos =>
    obtain ⟨e, failed⟩ := readHeader_cut proper.readable.2 long early
    rw [← List.take_append_of_le_length (Nat.le_of_lt early)] at failed
    exact ⟨_, read_of_error failed⟩
  case neg =>
    obtain ⟨more, rfl⟩ := Nat.exists_eq_add_of_le (Nat.not_lt.mp early)
    have cut : (p.write header bytes).take ((writeJsonPrefixed p.json header).length + more) =
        writeJsonPrefixed p.json header ++ bytes.take more := List.take_length_add_append _
    rw [write, List.length_append] at within
    rw [cut]
    have head := readHeader_append proper.readable (bytes.take more)
    split at head
    case isTrue => exact ⟨_, read_of_error head⟩
    case isFalse =>
      rw [read_of_header head proper.ours, readBytes, proper.announced,
        readExact_take (Nat.lt_of_add_lt_add_left within)]
      exact ⟨_, rfl⟩

/-- Packets that are written for a session, as a framing. -/
def framing {M : Type} (p : Packets H R) (sessionId : Uuid) (header : M → H) (bytes : M → Bytes)
    (Sent : M → Prop) (proper : ∀ m, Sent m → p.Proper sessionId (header m) (bytes m)) :
    Framing M R TransportError where
  width := 4
  encode m := p.write (header m) (bytes m)
  deliver m := p.received (header m) (bytes m)
  Sent
  Fits m := (bytes m).length ≤ p.maxBytes
  Misread _ := False
  next := p.read sessionId
  width_pos := by decide
  next_of_fits m rest sent fits := (proper m sent).read_fits fits rest
  next_of_misread _ _ _ misread := misread.elim
  next_of_refused m rest sent unfit _ := (proper m sent).read_unfit unfit rest
  next_of_short stream short := read_of_none (readHeader_short short)
  next_of_cut m count sent long within := (proper m sent).read_cut long within

end Packets

/-! ## The three channels -/

/-- A vector of bytes has no more than `isize::MAX` of them. -/
def Allocated (bytes : Bytes) : Prop := bytes.length < 2 ^ 63

/-- What arrives of an access unit: the bytes with their frame id, timestamp,
keyframe flag and codec. -/
def deliveredAccessUnit (accessUnit : EncodedVideoAccessUnit) : EncodedVideoAccessUnit :=
  { accessUnit with
    nalUnits := match accessUnit.codec with
      | .h264 => inspectH264AnnexBNalUnits accessUnit.bytes
      | .h265 | .av1 => []
    displayId := 0
    streamId := 0
    width := 0
    height := 0
    colorSpace := none
    bitDepth := 8 }

section Channels

variable (media : Codec WireAccessUnitHeader) (audio : Codec WireAudioChunkHeader) (sessionId : Uuid)

theorem media_exact :
    Exact (sendAccessUnit media sessionId) (readAccessUnit media sessionId) deliveredAccessUnit
      (fun accessUnit => Allocated accessUnit.bytes ∧
        media.Readable (accessUnitHeader sessionId accessUnit))
      (fun accessUnit => accessUnit.bytes.length ≤ maxVideoAuBytes) (fun _ => False) :=
  exact_of_framing ((mediaPackets media).framing sessionId (accessUnitHeader sessionId)
    EncodedVideoAccessUnit.bytes _ fun _ sent => ⟨sent.2, rfl, rfl⟩) rfl

theorem audio_exact :
    Exact (sentAudioChunk audio sessionId) (readAudioChunk audio sessionId) id
      (fun chunk => Allocated chunk.bytes ∧ audio.Readable (audioChunkHeader sessionId chunk))
      (fun chunk => chunk.bytes.length ≤ maxAudioChunkBytes) (fun _ => False) :=
  exact_of_framing ((audioPackets audio).framing sessionId (audioChunkHeader sessionId)
    NativeQuicAudioChunk.bytes _ fun _ sent => ⟨sent.2, rfl, rfl⟩) rfl

end Channels

section ControlChannel

variable {ControlMsg : Type} {control : Codec ControlMsg}

/-- The channel accepts a message. -/
def Accepted (json : Codec ControlMsg) (msg : ControlMsg) : Prop :=
  ∃ written, sendControl json msg = .ok written

theorem accepted_iff {msg : ControlMsg} :
    Accepted control msg ↔ (control.toVec msg).length < 2 ^ 32 := by
  constructor
  · rintro ⟨written, sent⟩
    rw [sendControl] at sent
    split at sent
    case isTrue bound => exact bound
    case isFalse => cases sent
  · intro bound
    exact ⟨_, if_pos bound⟩

/-- What a control message becomes on its stream. -/
def sentControl (json : Codec ControlMsg) (msg : ControlMsg) : Bytes :=
  (sendControl json msg).toOption.getD []

theorem sentControl_eq {msg : ControlMsg} (accepted : Accepted control msg) :
    sentControl control msg = writeJsonPrefixed control msg := by
  rw [sentControl, sendControl]
  exact congrArg (fun sent => Except.toOption sent |>.getD []) (if_pos (accepted_iff.mp accepted))

theorem recvControl_append {msg : ControlMsg} (accepted : Accepted control msg) (rest : Bytes) :
    recvControl control (sentControl control msg ++ rest) =
      if maxJsonFrame < (control.toVec msg).length
      then .error (.frameTooLarge (control.toVec msg).length)
      else
        match control.fromSlice (control.toVec msg) with
        | .error e => .error (.context
            s!"failed to decode control message of {(control.toVec msg).length} bytes" (.json e))
        | .ok msg => .ok (some (msg, rest)) := by
  rw [sentControl_eq accepted, writeJsonPrefixed, List.append_assoc, recvControl,
    readU32_append (accepted_iff.mp accepted)]
  cases read : control.fromSlice (control.toVec msg) <;> simp only [readExact_append, read]

/-- The receiver takes a control message, and reads it as it is. -/
def ReadBack (json : Codec ControlMsg) (msg : ControlMsg) : Prop :=
  (json.toVec msg).length ≤ maxJsonFrame ∧ json.Inverts msg

/-- The receiver takes a control message, and reads it as another one. -/
def ReadAsOther (json : Codec ControlMsg) (msg : ControlMsg) : Prop :=
  (json.toVec msg).length ≤ maxJsonFrame ∧
    ∃ other, other ≠ msg ∧ json.fromSlice (json.toVec msg) = .ok other

theorem ReadBack.recv {msg : ControlMsg} (back : ReadBack control msg)
    (accepted : Accepted control msg) (rest : Bytes) :
    recvControl control (sentControl control msg ++ rest) = .ok (some (msg, rest)) := by
  obtain ⟨small, inverts⟩ := back
  rw [Codec.Inverts] at inverts
  rw [recvControl_append accepted, if_neg (Nat.not_lt.mpr small), inverts]

theorem ReadAsOther.recv {msg : ControlMsg} (misread : ReadAsOther control msg)
    (accepted : Accepted control msg) (rest : Bytes) :
    ∃ other, other ≠ msg ∧
      recvControl control (sentControl control msg ++ rest) = .ok (some (other, rest)) := by
  obtain ⟨small, other, different, read⟩ := misread
  refine ⟨other, different, ?_⟩
  rw [recvControl_append accepted, if_neg (Nat.not_lt.mpr small), read]

theorem recvControl_refused {msg : ControlMsg} (accepted : Accepted control msg)
    (unfit : ¬ ReadBack control msg) (straight : ¬ ReadAsOther control msg) (rest : Bytes) :
    ∃ e, recvControl control (sentControl control msg ++ rest) = .error e := by
  rw [recvControl_append accepted]
  split
  case isTrue => exact ⟨_, rfl⟩
  case isFalse small =>
    cases read : control.fromSlice (control.toVec msg) with
    | error e => exact ⟨_, rfl⟩
    | ok other =>
        by_cases same : other = msg
        case pos => exact absurd ⟨Nat.not_lt.mp small, read.trans (congrArg _ same)⟩ unfit
        case neg => exact absurd ⟨Nat.not_lt.mp small, other, same, read⟩ straight

theorem recvControl_short {stream : Bytes} (short : stream.length < 4) :
    recvControl control stream = .ok none := by
  rw [recvControl, readU32_short short]

theorem recvControl_cut {msg : ControlMsg} (accepted : Accepted control msg) {count : Nat}
    (long : 4 ≤ count) (within : count < (sentControl control msg).length) :
    ∃ e, recvControl control ((sentControl control msg).take count) = .error e := by
  rw [sentControl_eq accepted] at within ⊢
  rw [length_writeJsonPrefixed] at within
  obtain ⟨more, rfl⟩ := Nat.exists_eq_add_of_le long
  rw [take_writeJsonPrefixed, recvControl, readU32_append (accepted_iff.mp accepted)]
  simp only [readExact_take (Nat.lt_of_add_lt_add_left within)]
  split
  case isTrue => exact ⟨_, rfl⟩
  case isFalse => exact ⟨_, rfl⟩

theorem control_exact (control : Codec ControlMsg) :
    Exact (sentControl control) (recvControl control) id
      (Accepted control) (ReadBack control) (ReadAsOther control) :=
  exact_of_framing {
    width := 4
    encode := sentControl control
    deliver := id
    Sent := Accepted control
    Fits := ReadBack control
    Misread := ReadAsOther control
    next := recvControl control
    width_pos := by decide
    next_of_fits := fun _ rest accepted back => back.recv accepted rest
    next_of_misread := fun _ rest accepted misread => misread.recv accepted rest
    next_of_refused := fun _ rest accepted unfit straight =>
      recvControl_refused accepted unfit straight rest
    next_of_short := fun _ short => recvControl_short short
    next_of_cut := fun _ _ accepted long within => recvControl_cut accepted long within } rfl

end ControlChannel

/-- On each of the three channels, messages that the sender accepts arrive exactly
if they are within the limit of the receiver, and a control message is read back from
its JSON. A cut is detected exactly if it is not within a length, and no control
message has been read as another one before. -/
theorem reliable_exact (media : Codec WireAccessUnitHeader) (audio : Codec WireAudioChunkHeader)
    {ControlMsg : Type} (control : Codec ControlMsg) (sessionId : Uuid) :
    Exact (sendAccessUnit media sessionId) (readAccessUnit media sessionId) deliveredAccessUnit
        (fun accessUnit => Allocated accessUnit.bytes ∧
          media.Readable (accessUnitHeader sessionId accessUnit))
        (fun accessUnit => accessUnit.bytes.length ≤ maxVideoAuBytes) (fun _ => False) ∧
      Exact (sentAudioChunk audio sessionId) (readAudioChunk audio sessionId) id
        (fun chunk => Allocated chunk.bytes ∧ audio.Readable (audioChunkHeader sessionId chunk))
        (fun chunk => chunk.bytes.length ≤ maxAudioChunkBytes) (fun _ => False) ∧
      Exact (sentControl control) (recvControl control) id
        (Accepted control) (ReadBack control) (ReadAsOther control) :=
  ⟨media_exact media sessionId, audio_exact audio sessionId, control_exact control⟩

namespace Sample

/-- A chunk of one byte more than the receiver takes. -/
def longChunk : NativeQuicAudioChunk where
  chunkId := 0
  bytes := List.replicate (maxAudioChunkBytes + 1) 0

def longChunkText : String :=
  "\x7b\"session_id\":\"00000000-0000-0000-0000-000000000000\",\"chunk_id\":0,\"byte_len\":524289\x7d"

/-- The header of the chunk as JSON. -/
def longChunkJson : Codec WireAudioChunkHeader where
  toVec _ := longChunkText.toList.map fun c => UInt8.ofNat c.toNat
  fromSlice _ := .ok (audioChunkHeader Uuid.nil longChunk)

theorem longChunk_readable : longChunkJson.Readable (audioChunkHeader Uuid.nil longChunk) :=
  ⟨rfl, by rw [Codec.Small]; decide⟩

/-- The receiver refuses a chunk that the sender has sent, and takes a stream that is
cut behind its first byte for one that has ended. -/
theorem longChunk_lost :
    (Allocated longChunk.bytes ∧ longChunkJson.Readable (audioChunkHeader Uuid.nil longChunk)) ∧
      ¬ Transported (sentAudioChunk longChunkJson Uuid.nil) (readAudioChunk longChunkJson Uuid.nil)
        id [longChunk] ∧
      ¬ Detected (sentAudioChunk longChunkJson Uuid.nil) (readAudioChunk longChunkJson Uuid.nil)
        id [] longChunk 1 := by
  have allocated : Allocated longChunk.bytes := by
    rw [Allocated, longChunk, List.length_replicate]
    decide
  have sent := And.intro allocated longChunk_readable
  have exact := audio_exact longChunkJson Uuid.nil
  refine ⟨sent, ?_, ?_⟩
  · rw [exact.whole [longChunk] fun chunk member => List.mem_singleton.mp member ▸ sent]
    intro fits
    have bound := fits longChunk (.head _)
    rw [longChunk, List.length_replicate] at bound
    exact Nat.not_succ_le_self _ bound
  · have within : 1 < (sentAudioChunk longChunkJson Uuid.nil longChunk).length := by
      rw [sentAudioChunk, Packets.write, List.length_append, length_writeJsonPrefixed]
      omega
    rw [exact.cut [] longChunk 1 (List.forall_mem_nil _) sent (by decide) within]
    exact fun detected => detected.1 ⟨List.forall_mem_nil _, by decide⟩

end Sample

end Qubox.Transport
