import Qubox.FileSync.Header

/-!
# The header codec of the sync library

The sync library has a copy of the transport's header with its own encoder and
decoder. They differ in the texts of three errors, which are left out.
-/

namespace Qubox.Sync.Header

open Qubox.FileSync (utf8)

structure FileTransferHeader where
  fileId : String
  relativePath : String
  size : UInt64
  blake3 : BitVec 256
  deriving DecidableEq

inductive HeaderError where
  | shortPathLen
  | shortPathBody
  | shortFileId
  | notUtf8
  deriving DecidableEq, Repr

namespace FileTransferHeader

def encode (header : FileTransferHeader) : Bytes :=
  Bytes.ofNatBE 2 (utf8 header.relativePath).length ++ utf8 header.relativePath ++
    Bytes.ofNatBE 8 header.size.toNat ++ Bytes.ofNatBE 32 header.blake3.toNat ++
    Bytes.ofNatBE 2 (utf8 header.fileId).length ++ utf8 header.fileId

/-- `String::from_utf8`. -/
def fromUtf8 (bytes : Bytes) : Except HeaderError String :=
  match String.fromUTF8? ⟨bytes.toArray⟩ with
  | some s => .ok s
  | none => .error .notUtf8

/-- The header at the front of the buffer and its length. -/
def decode (buf : Bytes) : Except HeaderError (FileTransferHeader × Nat) := do
  if buf.length < 2 then .error .shortPathLen
  let pathLen := Bytes.toNatBE (buf.take 2)
  if buf.length < 2 + pathLen + 8 + 32 + 2 then .error .shortPathBody
  let relativePath ← fromUtf8 ((buf.drop 2).take pathLen)
  let off := 2 + pathLen
  let size := UInt64.ofNat (Bytes.toNatBE ((buf.drop off).take 8))
  let blake3 := BitVec.ofNat 256 (Bytes.toNatBE ((buf.drop (off + 8)).take 32))
  let idLen := Bytes.toNatBE ((buf.drop (off + 40)).take 2)
  let off := off + 42
  if buf.length < off + idLen then .error .shortFileId
  let fileId ← fromUtf8 ((buf.drop off).take idLen)
  .ok ({ fileId, relativePath, size, blake3 }, off + idLen)

/-- The header as the transport has it. -/
def toTransport (header : FileTransferHeader) : FileSync.FileTransferHeader :=
  ⟨header.fileId, header.relativePath, header.size, header.blake3⟩

end FileTransferHeader

/-- The error of the transport in the same place. -/
def HeaderError.toTransport : HeaderError → FileSync.FileSyncError
  | .shortPathLen => .headerShort
  | .shortPathBody => .headerShortBody
  | .shortFileId => .headerShortId
  | .notUtf8 => .notUtf8

namespace FileTransferHeader

theorem encode_toTransport (header : FileTransferHeader) :
    header.encode = header.toTransport.encode :=
  rfl

theorem fromUtf8_toTransport (bytes : Bytes) :
    (fromUtf8 bytes).mapError HeaderError.toTransport = FileSync.fromUtf8 bytes := by
  rw [fromUtf8, FileSync.fromUtf8]
  cases String.fromUTF8? ⟨bytes.toArray⟩ <;> rfl

/-- The two decoders take the same buffers for the same headers, and fail in the
same places. -/
theorem decode_toTransport (buf : Bytes) :
    ((decode buf).map fun read => (read.1.toTransport, read.2)).mapError HeaderError.toTransport =
      FileSync.FileTransferHeader.decode buf := by
  simp only [decode, FileSync.FileTransferHeader.decode, bind, Except.bind, ← fromUtf8_toTransport]
  split
  case isTrue => rfl
  case isFalse =>
    split
    case isTrue => rfl
    case isFalse =>
      cases fromUtf8 ((buf.drop 2).take (Bytes.toNatBE (buf.take 2))) with
      | error e => rfl
      | ok relativePath =>
          by_cases short : buf.length < 2 + Bytes.toNatBE (buf.take 2) + 42 +
              Bytes.toNatBE ((buf.drop (2 + Bytes.toNatBE (buf.take 2) + 40)).take 2)
          · simp only [Except.mapError, if_pos short]
            rfl
          · simp only [Except.mapError, if_neg short]
            cases fromUtf8 ((buf.drop (2 + Bytes.toNatBE (buf.take 2) + 42)).take
              (Bytes.toNatBE ((buf.drop (2 + Bytes.toNatBE (buf.take 2) + 40)).take 2))) <;> rfl

end FileTransferHeader

end Qubox.Sync.Header

namespace Qubox.FileSync

/-- Headers are read back from whatever follows them, what is decoded is the
encoding of the header, the copies agree, and the receive stops behind it. -/
theorem header_roundTrips :
    (∀ (header : FileTransferHeader) (rest : Bytes), header.relativePath.utf8ByteSize ≤ 65535 →
      header.fileId.utf8ByteSize ≤ 65535 →
      FileTransferHeader.decode (header.encode ++ rest) = .ok (header, header.encode.length)) ∧
    (∀ (buf : Bytes) (header : FileTransferHeader) (n : Nat),
      FileTransferHeader.decode buf = .ok (header, n) →
        n ≤ buf.length ∧ header.encode = buf.take n) ∧
    (∀ header : Sync.Header.FileTransferHeader, header.encode = header.toTransport.encode) ∧
    (∀ buf : Bytes, ((Sync.Header.FileTransferHeader.decode buf).map fun read =>
        (read.1.toTransport, read.2)).mapError Sync.Header.HeaderError.toTransport =
      FileTransferHeader.decode buf) ∧
    ∀ (stream : Bytes) (maxBytes : Nat) (header : FileTransferHeader) (rest : Bytes),
      readHeader stream maxBytes = .ok (header, rest) →
        ∃ n, FileTransferHeader.decode stream = .ok (header, n) ∧ rest = stream.drop n := by
  refine ⟨fun header rest path id => ?_, fun buf header n read => ?_,
    Sync.Header.FileTransferHeader.encode_toTransport,
    Sync.Header.FileTransferHeader.decode_toTransport,
    fun stream maxBytes header rest ran => ?_⟩
  · exact FileTransferHeader.Fits.decode_encode_append ⟨path, id⟩ rest
  · obtain ⟨-, rfl, front⟩ := FileTransferHeader.decode_eq_ok_iff.mp read
    exact ⟨front.length_le, List.prefix_iff_eq_take.mp front⟩
  · obtain ⟨fits, rfl⟩ := readHeader_eq_ok ran
    exact ⟨_, fits.decode_encode_append rest, List.drop_left.symm⟩

namespace Sample

def shortHeader : FileTransferHeader := ⟨"f", "s", 1, 7⟩

/-- A header and a body of one byte. -/
def shortStream : Bytes := shortHeader.encode ++ [5]

theorem shortStream_roundTrips :
    FileTransferHeader.decode shortStream = .ok (shortHeader, 46) ∧
      46 ≤ shortStream.length ∧ shortHeader.encode = shortStream.take 46 ∧
      ∃ n, FileTransferHeader.decode shortStream = .ok (shortHeader, n) ∧
        [5] = shortStream.drop n := by
  have length : shortHeader.encode.length = 46 := by decide
  have read : FileTransferHeader.decode shortStream =
      .ok (shortHeader, shortHeader.encode.length) :=
    header_roundTrips.1 shortHeader [5] (by decide) (by decide)
  rw [length] at read
  obtain ⟨inside, kept⟩ := header_roundTrips.2.1 _ _ _ read
  have stopped := header_roundTrips.2.2.2.2 shortStream 1 shortHeader [5] (by decide)
  exact ⟨read, inside, kept, stopped⟩

end Sample

end Qubox.FileSync
