import Qubox.FileSync.Transfer

/-!
# Headers in binary form

The two copies of the header codec and the receive that reads a header piece by
piece. A buffer decodes exactly when it starts with the encoding of a header
whose path and id fit their 16-bit lengths, so the three agree on where a header
ends and what it is.
-/

namespace Qubox.FileSync

/-! ## Text -/

@[simp] theorem length_utf8 (s : String) : (utf8 s).length = s.utf8ByteSize := by
  rw [utf8, Array.length_toList]
  rfl

theorem fromUtf8_utf8 (s : String) : fromUtf8 (utf8 s) = .ok s := by
  have same : (⟨(utf8 s).toArray⟩ : ByteArray) = s.toByteArray := by simp [utf8]
  rw [fromUtf8, same, String.fromUTF8?, dif_pos s.isValidUTF8]
  rfl

theorem utf8_of_fromUtf8 {bytes : Bytes} {s : String} (read : fromUtf8 bytes = .ok s) :
    utf8 s = bytes := by
  rw [fromUtf8, String.fromUTF8?] at read
  split at read
  case h_1 s' found =>
    cases read
    split at found
    case isTrue valid =>
      rw [← Option.some.inj found, utf8]
      rfl
    case isFalse => cases found
  case h_2 => cases read

/-- The piece of a buffer between two others. -/
theorem take_drop_between {before piece : Bytes} (behind : Bytes) {off count : Nat}
    (start : before.length = off) (length : piece.length = count) :
    ((before ++ (piece ++ behind)).drop off).take count = piece := by
  subst start length
  rw [List.drop_left, List.take_left]

namespace FileTransferHeader

variable {header : FileTransferHeader}

/-- The path and the id fit their 16-bit lengths. -/
structure Fits (header : FileTransferHeader) : Prop where
  path : header.relativePath.utf8ByteSize ≤ 65535
  id : header.fileId.utf8ByteSize ≤ 65535

theorem length_encode (header : FileTransferHeader) :
    header.encode.length = header.relativePath.utf8ByteSize + header.fileId.utf8ByteSize + 44 := by
  simp only [encode, List.length_append, Bytes.length_ofNatBE, length_utf8]
  omega

theorem toNatBE_size (header : FileTransferHeader) :
    UInt64.ofNat (Bytes.toNatBE (Bytes.ofNatBE 8 header.size.toNat)) = header.size := by
  have fits : header.size.toNat < 256 ^ 8 := header.size.toNat_lt
  rw [Bytes.toNatBE_ofNatBE, Nat.mod_eq_of_lt fits, UInt64.ofNat_toNat]

theorem toNatBE_blake3 (header : FileTransferHeader) :
    BitVec.ofNat 256 (Bytes.toNatBE (Bytes.ofNatBE 32 header.blake3.toNat)) = header.blake3 := by
  have fits : header.blake3.toNat < 256 ^ 32 := header.blake3.isLt
  rw [Bytes.toNatBE_ofNatBE, Nat.mod_eq_of_lt fits, BitVec.ofNat_toNat, BitVec.setWidth_eq]

theorem toNatBE_length {s : String} (fits : s.utf8ByteSize ≤ 65535) :
    Bytes.toNatBE (Bytes.ofNatBE 2 (utf8 s).length) = s.utf8ByteSize := by
  rw [Bytes.toNatBE_ofNatBE, length_utf8, Nat.mod_eq_of_lt]
  omega

/-- A buffer that starts with a header that fits. -/
theorem Fits.decode_encode_append (fits : header.Fits) (rest : Bytes) :
    decode (header.encode ++ rest) = .ok (header, header.encode.length) := by
  have total := length_encode header
  have parts : header.encode ++ rest =
      Bytes.ofNatBE 2 (utf8 header.relativePath).length ++ (utf8 header.relativePath ++
        (Bytes.ofNatBE 8 header.size.toNat ++ (Bytes.ofNatBE 32 header.blake3.toNat ++
          (Bytes.ofNatBE 2 (utf8 header.fileId).length ++ (utf8 header.fileId ++ rest))))) := by
    simp only [encode, List.append_assoc]
  have path : (header.encode ++ rest).take 2 =
      Bytes.ofNatBE 2 (utf8 header.relativePath).length := by
    rw [parts]
    exact List.take_left' (by simp)
  have text : ((header.encode ++ rest).drop 2).take header.relativePath.utf8ByteSize =
      utf8 header.relativePath := by
    rw [parts]
    exact take_drop_between _ (by simp) (by simp)
  have size : ((header.encode ++ rest).drop (2 + header.relativePath.utf8ByteSize)).take 8 =
      Bytes.ofNatBE 8 header.size.toNat := by
    rw [parts, ← List.append_assoc]
    exact take_drop_between _ (by simp) (by simp)
  have hash : ((header.encode ++ rest).drop (2 + header.relativePath.utf8ByteSize + 8)).take 32 =
      Bytes.ofNatBE 32 header.blake3.toNat := by
    rw [parts, ← List.append_assoc, ← List.append_assoc]
    exact take_drop_between _ (by simp; omega) (by simp)
  have idLen : ((header.encode ++ rest).drop (2 + header.relativePath.utf8ByteSize + 40)).take 2 =
      Bytes.ofNatBE 2 (utf8 header.fileId).length := by
    rw [parts, ← List.append_assoc, ← List.append_assoc, ← List.append_assoc]
    exact take_drop_between _ (by simp; omega) (by simp)
  have id : ((header.encode ++ rest).drop (2 + header.relativePath.utf8ByteSize + 42)).take
      header.fileId.utf8ByteSize = utf8 header.fileId := by
    rw [parts, ← List.append_assoc, ← List.append_assoc, ← List.append_assoc, ← List.append_assoc]
    exact take_drop_between _ (by simp; omega) (by simp)
  have long : ¬ (header.encode ++ rest).length < 2 := by
    rw [List.length_append]
    omega
  have longer : ¬ (header.encode ++ rest).length <
      2 + header.relativePath.utf8ByteSize + 8 + 32 + 2 := by
    rw [List.length_append]
    omega
  have longest : ¬ (header.encode ++ rest).length <
      2 + header.relativePath.utf8ByteSize + 42 + header.fileId.utf8ByteSize := by
    rw [List.length_append]
    omega
  simp only [decode, path, toNatBE_length fits.path, text, size, hash, idLen,
    toNatBE_length fits.id, id, fromUtf8_utf8, toNatBE_size, toNatBE_blake3, long, longer, longest,
    if_false]
  have read : 2 + header.relativePath.utf8ByteSize + 42 + header.fileId.utf8ByteSize =
      header.encode.length := by omega
  rw [read]
  rfl

/-- What decoding has read: the two lengths and the pieces they delimit. -/
structure Parsed (buf : Bytes) (header : FileTransferHeader) (pathLen idLen : Nat) : Prop where
  pathLen_eq : pathLen = Bytes.toNatBE (buf.take 2)
  idLen_eq : idLen = Bytes.toNatBE ((buf.drop (2 + pathLen + 40)).take 2)
  inside : 2 + pathLen + 42 + idLen ≤ buf.length
  path : utf8 header.relativePath = (buf.drop 2).take pathLen
  size : header.size = UInt64.ofNat (Bytes.toNatBE ((buf.drop (2 + pathLen)).take 8))
  blake3 : header.blake3 =
    BitVec.ofNat 256 (Bytes.toNatBE ((buf.drop (2 + pathLen + 8)).take 32))
  id : utf8 header.fileId = (buf.drop (2 + pathLen + 42)).take idLen

theorem parsed_of_decode {buf : Bytes} {n : Nat} (read : decode buf = .ok (header, n)) :
    ∃ pathLen idLen, Parsed buf header pathLen idLen ∧ n = 2 + pathLen + 42 + idLen := by
  rw [decode] at read
  split at read
  case isTrue => cases read
  case isFalse =>
    simp only [bind, Except.bind] at read
    split at read
    case isTrue => cases read
    case isFalse =>
      split at read
      case h_1 => cases read
      case h_2 relativePath path =>
        split at read
        case isTrue => cases read
        case isFalse inside =>
          split at read
          case h_1 => cases read
          case h_2 fileId id =>
            cases read
            exact ⟨_, _, ⟨rfl, rfl, not_lt.mp inside, utf8_of_fromUtf8 path, rfl, rfl,
              utf8_of_fromUtf8 id⟩, rfl⟩

namespace Parsed

variable {buf : Bytes} {pathLen idLen : Nat}

theorem length_path (parsed : Parsed buf header pathLen idLen) :
    (utf8 header.relativePath).length = pathLen := by
  have inside := parsed.inside
  rw [parsed.path, List.length_take, List.length_drop]
  omega

theorem length_id (parsed : Parsed buf header pathLen idLen) :
    (utf8 header.fileId).length = idLen := by
  have inside := parsed.inside
  rw [parsed.id, List.length_take, List.length_drop]
  omega

theorem fits (parsed : Parsed buf header pathLen idLen) : header.Fits := by
  have inside := parsed.inside
  have two (off : Nat) (room : off + 2 ≤ buf.length) :
      Bytes.toNatBE ((buf.drop off).take 2) < 65536 := by
    have bound := Bytes.toNatBE_lt ((buf.drop off).take 2)
    rw [List.length_take, List.length_drop, Nat.min_eq_left (by omega)] at bound
    exact bound
  constructor
  · have bound := two 0 (by omega)
    rw [List.drop_zero, ← parsed.pathLen_eq] at bound
    rw [← length_utf8, parsed.length_path]
    omega
  · have bound := two (2 + pathLen + 40) (by omega)
    rw [← parsed.idLen_eq] at bound
    rw [← length_utf8, parsed.length_id]
    omega

/-- The bytes that were read are the encoding of the header. -/
theorem encode_eq (parsed : Parsed buf header pathLen idLen) :
    header.encode = buf.take (2 + pathLen + 42 + idLen) := by
  have inside := parsed.inside
  have length (off count : Nat) (room : off + count ≤ buf.length) :
      ((buf.drop off).take count).length = count := by
    rw [List.length_take, List.length_drop]
    omega
  have first : Bytes.ofNatBE 2 (utf8 header.relativePath).length = buf.take 2 := by
    rw [parsed.length_path, parsed.pathLen_eq]
    exact Bytes.ofNatBE_toNatBE_of_length (length 0 2 (by omega))
  have size : Bytes.ofNatBE 8 header.size.toNat = (buf.drop (2 + pathLen)).take 8 := by
    have eight := length (2 + pathLen) 8 (by omega)
    have bound := Bytes.toNatBE_lt ((buf.drop (2 + pathLen)).take 8)
    rw [eight] at bound
    rw [parsed.size, UInt64.toNat_ofNat', Nat.mod_eq_of_lt (show _ < 2 ^ 64 from bound),
      Bytes.ofNatBE_toNatBE_of_length eight]
  have hash : Bytes.ofNatBE 32 header.blake3.toNat = (buf.drop (2 + pathLen + 8)).take 32 := by
    have thirtyTwo := length (2 + pathLen + 8) 32 (by omega)
    have bound := Bytes.toNatBE_lt ((buf.drop (2 + pathLen + 8)).take 32)
    rw [thirtyTwo] at bound
    rw [parsed.blake3, BitVec.toNat_ofNat, Nat.mod_eq_of_lt (show _ < 2 ^ 256 from bound),
      Bytes.ofNatBE_toNatBE_of_length thirtyTwo]
  have second : Bytes.ofNatBE 2 (utf8 header.fileId).length =
      (buf.drop (2 + pathLen + 40)).take 2 := by
    rw [parsed.length_id, parsed.idLen_eq]
    exact Bytes.ofNatBE_toNatBE_of_length (length _ 2 (by omega))
  have cut : 2 + pathLen + 42 + idLen = 2 + pathLen + 8 + 32 + 2 + idLen := by omega
  rw [encode, first, parsed.path, size, hash, second, parsed.id, cut, List.take_add, List.take_add,
    List.take_add, List.take_add, List.take_add]

end Parsed

/-- A buffer decodes exactly if it starts with the encoding of a header that fits. -/
theorem decode_eq_ok_iff {buf : Bytes} {n : Nat} :
    decode buf = .ok (header, n) ↔
      header.Fits ∧ n = header.encode.length ∧ header.encode <+: buf := by
  constructor
  · intro read
    obtain ⟨pathLen, idLen, parsed, rfl⟩ := parsed_of_decode read
    refine ⟨parsed.fits, ?_, ?_⟩
    · rw [parsed.encode_eq, List.length_take, Nat.min_eq_left parsed.inside]
    · rw [parsed.encode_eq]
      exact List.take_prefix _ _
  · rintro ⟨fits, rfl, rest, rfl⟩
    exact fits.decode_encode_append rest

end FileTransferHeader

/-! ## Reading piece by piece -/

theorem readExact_eq_ok {count : Nat} {stream read rest : Bytes}
    (ran : readExact count stream = .ok (read, rest)) :
    stream = read ++ rest ∧ read.length = count := by
  rw [readExact] at ran
  split at ran
  case isTrue => cases ran
  case isFalse enough =>
    cases ran
    refine ⟨(List.take_append_drop _ _).symm, ?_⟩
    rw [List.length_take]
    omega

/-- Three reads whose sizes are those that decoding finds in what they yield. -/
theorem encode_eq_of_reads {first second third : Bytes} {header : FileTransferHeader} {n : Nat}
    (first_size : first.length = 2) (second_size : second.length = first.toNatBE + 8 + 32 + 2)
    (third_size : third.length = Bytes.toNatBE ((second.drop (first.toNatBE + 8 + 32)).take 2))
    (read : FileTransferHeader.decode (first ++ second ++ third) = .ok (header, n)) :
    header.encode = first ++ second ++ third := by
  obtain ⟨pathLen, idLen, parsed, rfl⟩ := FileTransferHeader.parsed_of_decode read
  have path : pathLen = first.toNatBE := by
    rw [parsed.pathLen_eq, List.append_assoc, List.take_left' first_size]
  have id : idLen = third.length := by
    have split : 2 + pathLen + 40 = first.length + (first.toNatBE + 8 + 32) := by omega
    have cut : ((first ++ second ++ third).drop (2 + pathLen + 40)).take 2 =
        (second.drop (first.toNatBE + 8 + 32)).take 2 := by
      rw [split, List.append_assoc, ← List.drop_drop, List.drop_left,
        List.drop_append_of_le_length (by omega),
        List.take_append_of_le_length (by rw [List.length_drop]; omega)]
    rw [parsed.idLen_eq, cut, third_size]
  rw [parsed.encode_eq, List.take_of_length_le]
  rw [List.length_append, List.length_append]
  omega

/-- The receive takes exactly the header from the stream. -/
theorem readHeader_eq_ok {stream rest : Bytes} {maxBytes : Nat} {header : FileTransferHeader}
    (ran : readHeader stream maxBytes = .ok (header, rest)) :
    header.Fits ∧ stream = header.encode ++ rest := by
  simp only [readHeader, bind, Except.bind] at ran
  split at ran
  case h_1 => cases ran
  case h_2 first readFirst =>
    obtain ⟨whole, first_size⟩ := readExact_eq_ok readFirst
    split at ran
    case isTrue => cases ran
    case isFalse =>
      split at ran
      case h_1 => cases ran
      case h_2 second readSecond =>
        obtain ⟨behind, second_size⟩ := readExact_eq_ok readSecond
        split at ran
        case isTrue => cases ran
        case isFalse =>
          split at ran
          case h_1 => cases ran
          case h_2 third readThird =>
            obtain ⟨last, third_size⟩ := readExact_eq_ok readThird
            split at ran
            case h_1 => cases ran
            case h_2 decoded read =>
              split at ran
              case isTrue => cases ran
              case isFalse =>
                split at ran
                case isTrue => cases ran
                case isFalse =>
                  cases ran
                  refine ⟨(FileTransferHeader.decode_eq_ok_iff.mp read).1, ?_⟩
                  rw [encode_eq_of_reads first_size second_size third_size read, whole, behind,
                    last, List.append_assoc, List.append_assoc]

end Qubox.FileSync
