import Qubox.FileSync.Header
import Qubox.FileSync.Receive
import Qubox.Library.Triple

/-!
# Receives that succeed

What the peer makes of a push. Its receive of a stream ends well if the stream
carries a header that names its file properly and all of the announced bytes,
the announced size is within the cap, nothing fails at the peer, and the partial
file is left alone meanwhile.
-/

namespace Qubox.FileSync

open Interaction

/-! ## Reading back a header -/

theorem readExact_append {count : Nat} {bytes : Bytes} (length : bytes.length = count)
    (rest : Bytes) : readExact count (bytes ++ rest) = .ok (bytes, rest) := by
  subst length
  rw [readExact, if_neg (by simp)]
  simp

/-- The lengths fit their fields and the receive's limits, and the file has an id. -/
structure FileTransferHeader.Proper (header : FileTransferHeader) : Prop where
  path : header.relativePath.utf8ByteSize ≤ maxRelPathBytes
  idLength : header.fileId.utf8ByteSize ≤ maxFileIdBytes
  id : ¬ (header.fileId = "" ∨ header.fileId.toList.contains (Char.ofNat 0))

namespace FileTransferHeader

variable {header : FileTransferHeader}

theorem Proper.fits (proper : header.Proper) : header.Fits :=
  ⟨proper.path.trans (by decide), proper.idLength.trans (by decide)⟩

theorem decode_encode (proper : header.Proper) :
    decode header.encode = .ok (header, header.encode.length) := by
  have read := proper.fits.decode_encode_append []
  rwa [List.append_nil] at read

end FileTransferHeader

theorem readHeader_encode_eq {header : FileTransferHeader} (proper : header.Proper)
    (maxBytes : Nat) (body : Bytes) :
    readHeader (header.encode ++ body) maxBytes =
      if header.size.toNat > min maxBytes maxFilesyncBytes then
        .error (.exceedsCap header.size.toNat)
      else .ok (header, body) := by
  have shape : header.encode ++ body =
      Bytes.ofNatBE 2 (utf8 header.relativePath).length ++
        ((utf8 header.relativePath ++ (Bytes.ofNatBE 8 header.size.toNat ++
          Bytes.ofNatBE 32 header.blake3.toNat) ++
          Bytes.ofNatBE 2 (utf8 header.fileId).length) ++ (utf8 header.fileId ++ body)) := by
    simp [FileTransferHeader.encode]
  have whole : Bytes.ofNatBE 2 (utf8 header.relativePath).length ++
        (utf8 header.relativePath ++ (Bytes.ofNatBE 8 header.size.toNat ++
          Bytes.ofNatBE 32 header.blake3.toNat) ++
          Bytes.ofNatBE 2 (utf8 header.fileId).length) ++ utf8 header.fileId = header.encode := by
    simp [FileTransferHeader.encode]
  have idLen : ((utf8 header.relativePath ++ (Bytes.ofNatBE 8 header.size.toNat ++
        Bytes.ofNatBE 32 header.blake3.toNat) ++ Bytes.ofNatBE 2 (utf8 header.fileId).length).drop
          (header.relativePath.utf8ByteSize + 8 + 32)).take 2 =
      Bytes.ofNatBE 2 (utf8 header.fileId).length := by
    rw [← List.append_nil (Bytes.ofNatBE 2 _)]
    exact take_drop_between _ (by simp) (by simp)
  have path : ¬ header.relativePath.utf8ByteSize > maxRelPathBytes := not_lt.mpr proper.path
  have id : ¬ header.fileId.utf8ByteSize > maxFileIdBytes := not_lt.mpr proper.idLength
  rw [readHeader, shape, readExact_append (by simp)]
  simp only [bind, Except.bind, FileTransferHeader.toNatBE_length proper.fits.path, path, if_false]
  rw [readExact_append (by simp)]
  simp only [idLen, FileTransferHeader.toNatBE_length proper.fits.id, id, if_false]
  rw [readExact_append (by simp)]
  simp only [whole, FileTransferHeader.decode_encode proper, proper.id, if_false]

theorem readHeader_encode {header : FileTransferHeader} (proper : header.Proper) {maxBytes : Nat}
    (size : header.size.toNat ≤ min maxBytes maxFilesyncBytes) (body : Bytes) :
    readHeader (header.encode ++ body) maxBytes = .ok (header, body) := by
  rw [readHeader_encode_eq proper, if_neg (not_lt.mpr size)]

/-! ## The peer -/

/-- `accept_filesync_uni`: the rest of a stream that is handed on. -/
def acceptFilesyncUni (stream : Bytes) : Option Bytes :=
  match readExact 2 stream with
  | .error _ => none
  | .ok (magic, rest) => if magic = filesyncEnvelope then some rest else none

/-- The receiving side of one stream: how many bytes get through, and what
happens to the volume before each action of the receive. -/
structure Peer (Location : Type) where
  delivered : Nat
  destDir : String
  maxBytes : Nat
  volume : Volume Location
  meanwhile : Nat → Volume Location → Volume Location

@[reducible] def machine {Location : Type} [DecidableEq Location] (locate : String → Location) :
    Machine signature (Volume Location) where
  exec := Volume.exec locate

section Peer

variable {Location : Type} [DecidableEq Location] (locate : String → Location)
  (blake3 : Bytes → BitVec 256)

/-- How the receive of the stream ends, if it is begun. -/
def Peer.outcome (peer : Peer Location) (sent : Bytes) :
    Option (Except FileSyncError (FileTransferHeader × String × Bytes)) :=
  (acceptFilesyncUni (sent.take peer.delivered)).map fun stream =>
    ((machine locate).runUnder (fun change v => change v)
      (recvFileBulk blake3 stream peer.destDir peer.maxBytes) peer.meanwhile peer.volume).1

/-- Nothing fails at the peer, the target lies in the destination directory, and
nobody touches the partial file. -/
structure Favours (destDir destCanon relativePath : String) (v v' : Volume Location) : Prop where
  createDirAll : ∀ path, v'.env.createDirAll path = .ok ()
  canonicalize : v'.env.canonicalize destDir = .ok destCanon
  parent : ∃ dir, UnixPath.parent (UnixPath.join destCanon relativePath) = some dir ∧
    v'.env.directory dir = true
  inside : ∀ path, path = UnixPath.join destCanon relativePath ∨
      UnixPath.parent (UnixPath.join destCanon relativePath) = some path →
    ∃ canon, v'.env.canonicalize path = .ok canon ∧ UnixPath.startsWith canon destCanon = true
  create : ∀ path, v'.env.createFault path = none
  write : v'.env.writeFault = none
  sync : v'.env.syncFault = none
  rename : ∀ source target, v'.env.renameFault source target = none
  named : v'.disk.names (locate (partialPath (UnixPath.join destCanon relativePath))) =
    v.disk.names (locate (partialPath (UnixPath.join destCanon relativePath)))
  kept : ∀ file, v.disk.names (locate (partialPath (UnixPath.join destCanon relativePath))) =
    some file → v'.disk.files file = v.disk.files file

end Peer

section Success

variable {Location : Type} [DecidableEq Location] {locate : String → Location}
  {blake3 : Bytes → BitVec 256} {destDir destCanon relativePath : String} {v v' : Volume Location}

omit [DecidableEq Location] in
theorem Favours.holds (fair : Favours locate destDir destCanon relativePath v v') {file : FileId}
    {content : Bytes}
    (h : v.disk.Holds (locate (partialPath (UnixPath.join destCanon relativePath))) file content) :
    v'.disk.Holds (locate (partialPath (UnixPath.join destCanon relativePath))) file content :=
  ⟨fair.named.trans h.named, (fair.kept file h.named).trans h.contains⟩

/-- A program that cannot fail under favourable changes. -/
abbrev Succeeds (locate : String → Location) (destDir destCanon relativePath : String) {α : Type}
    (post : α → Volume Location → Prop) (p : Program signature FileSyncError α)
    (v : Volume Location) : Prop :=
  p.Meets (machine locate) (Favours locate destDir destCanon relativePath) (fun _ _ => False) post v

theorem createParent_succeeds :
    Succeeds locate destDir destCanon relativePath (fun _ _ => True)
      (createParent (UnixPath.join destCanon relativePath)) v := by
  rw [createParent]
  split
  case h_1 => trivial
  case h_2 parent _ =>
    intro v' fair
    simp only [Volume.exec, fair.createDirAll]
    trivial

theorem deepestExisting_succeeds :
    Succeeds locate destDir destCanon relativePath
      (fun path _ => path = UnixPath.join destCanon relativePath ∨
        UnixPath.parent (UnixPath.join destCanon relativePath) = some path)
      (deepestExisting (UnixPath.ancestors (UnixPath.join destCanon relativePath))) v := by
  intro v₁ fair₁
  obtain ⟨dir, parent, -⟩ := fair₁.parent
  have above : (UnixPath.above
      (UnixPath.components (UnixPath.join destCanon relativePath)).reverse).head? = some dir := parent
  obtain ⟨rest, above⟩ := List.head?_eq_some_iff.mp above
  change Succeeds locate destDir destCanon relativePath _
    (if (Volume.exec locate (.pathExists (UnixPath.join destCanon relativePath)) v₁).1 then .done _
      else deepestExisting (UnixPath.above _)) v₁
  split
  case isTrue => exact .inl rfl
  case isFalse =>
    rw [above]
    intro v₂ fair₂
    obtain ⟨dir', parent', present⟩ := fair₂.parent
    obtain rfl : dir' = dir := Option.some.inj (parent'.symm.trans parent)
    have found : (Volume.exec locate (.pathExists dir') v₂).1 = true := by
      simp [Volume.exec, present]
    change Succeeds locate destDir destCanon relativePath _
      (if (Volume.exec locate (.pathExists dir') v₂).1 then .done dir' else deepestExisting rest) v₂
    rw [if_pos found]
    exact .inr parent

theorem resolveSafeTarget_succeeds (safe : validateRelativePath relativePath = .ok ()) :
    Succeeds locate destDir destCanon relativePath
      (fun target _ => target = UnixPath.join destCanon relativePath)
      (resolveSafeTarget destDir relativePath) v := by
  rw [resolveSafeTarget, safe]
  intro v₁ fair₁
  simp only [Volume.exec, fair₁.createDirAll]
  intro v₂ fair₂
  simp only [Volume.exec, fair₂.canonicalize]
  refine createParent_succeeds.bind fun _ _ _ => ?_
  refine deepestExisting_succeeds.bind fun path _ found => ?_
  intro v₃ fair₃
  obtain ⟨canon, resolved, inside⟩ := fair₃.inside path found
  simp only [Volume.exec, resolved]
  change Succeeds locate destDir destCanon relativePath _
    (if UnixPath.startsWith canon destCanon then .done _ else .fail _) v₃
  rw [if_pos inside]
  rfl

/-- The copy loop writes what follows on the stream. -/
theorem receiveChunks_succeeds {file : FileId} (remaining : Nat) (stream received : Bytes)
    (whole : stream.length = remaining) (v : Volume Location)
    (h : v.disk.Holds (locate (partialPath (UnixPath.join destCanon relativePath))) file received) :
    Succeeds locate destDir destCanon relativePath
      (fun all v => all = received ++ stream ∧
        v.disk.Holds (locate (partialPath (UnixPath.join destCanon relativePath))) file all)
      (receiveChunks file remaining stream received) v := by
  fun_induction receiveChunks file remaining stream received generalizing v with
  | case1 remaining stream received positive chunk error read =>
      have enough : ¬ stream.length < chunk := by
        have : chunk = min remaining bufLen := rfl
        omega
      rw [readExact, if_neg enough] at read
      cases read
  | case2 remaining stream received positive chunk bytes rest read ih =>
      rw [readExact] at read
      split at read
      case isTrue => cases read
      case isFalse enough =>
        cases read
        intro v₁ fair₁
        have held := (fair₁.holds h).append (stream.take chunk)
        simp only [Volume.exec, fair₁.write]
        refine (ih (by rw [List.length_drop, whole]) _ held).imp (fun _ _ => id) ?_
        rintro all v₂ ⟨rfl, held⟩
        rw [List.append_assoc, List.take_append_drop] at held ⊢
        exact ⟨rfl, held⟩
  | case3 remaining stream received finished =>
      obtain rfl : stream = [] := List.eq_nil_of_length_eq_zero (by omega)
      rw [List.append_nil]
      exact ⟨rfl, h⟩

theorem receiveInto_succeeds {header : FileTransferHeader} {body : Bytes}
    (length : body.length = header.size.toNat) (hash : blake3 body = header.blake3) :
    Succeeds locate destDir destCanon relativePath
      (fun installed v => installed = body ∧
        v.disk.content? (locate (UnixPath.join destCanon relativePath)) = some body)
      (receiveInto blake3 header body (UnixPath.join destCanon relativePath)) v := by
  intro v₁ fair₁
  simp only [Volume.exec, fair₁.create]
  refine (receiveChunks_succeeds header.size.toNat body [] length _
    (v₁.disk.create_holds _)).bind ?_
  rintro received v₂ ⟨same, held⟩
  rw [List.nil_append] at same
  subst received
  intro v₃ fair₃
  have held := fair₃.holds held
  simp only [Volume.exec, fair₃.sync]
  change Succeeds locate destDir destCanon relativePath _
    (if blake3 body ≠ header.blake3 then _ else _) v₃
  rw [if_neg (not_not.mpr hash)]
  intro v₄ fair₄
  have held := fair₄.holds held
  simp only [Volume.exec, fair₄.rename, held.content?]
  exact ⟨rfl, (held.renamed _).content?⟩

/-- The receive of a whole and truthful stream. -/
theorem recvFileBulk_succeeds {header : FileTransferHeader} {body : Bytes} {maxBytes : Nat}
    (proper : header.Proper) (safe : validateRelativePath header.relativePath = .ok ())
    (cap : header.size.toNat ≤ min maxBytes maxFilesyncBytes)
    (length : body.length = header.size.toNat) (hash : blake3 body = header.blake3) :
    Succeeds locate destDir destCanon header.relativePath
      (fun result v => result = (header, UnixPath.join destCanon header.relativePath, body) ∧
        v.disk.content? (locate (UnixPath.join destCanon header.relativePath)) = some body)
      (recvFileBulk blake3 (header.encode ++ body) destDir maxBytes) v := by
  rw [recvFileBulk, readHeader_encode proper cap]
  refine (resolveSafeTarget_succeeds safe).bind ?_
  rintro _ v₁ rfl
  refine (receiveInto_succeeds length hash).bind ?_
  rintro _ v₂ ⟨rfl, content⟩
  exact ⟨rfl, content⟩

end Success

end Qubox.FileSync
