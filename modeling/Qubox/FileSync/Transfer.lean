import Qubox.Library.Bytes
import Qubox.Library.UnixPath

/-!
# File transfers

The header of a bulk transfer with its binary form, and the checks on the
relative path it carries. Paths follow the Unix rules, under which no path has
a drive.
-/

namespace Qubox.FileSync

def maxFilesyncBytes : Nat := 512 * 1024 * 1024
def maxRelPathBytes : Nat := 4096
def maxFileIdBytes : Nat := 256

/-- Text of an error of the operating system. -/
abbrev IoError := String

inductive FileSyncError where
  -- `validate_relative_path`
  | emptyRelativePath
  | relativePathTooLong
  | nullByte
  | controlCharacter
  | leadingSeparator
  | driveLetter
  | absolutePath
  | emptyComponent
  | unsafePath (relativePath : String)
  -- `resolve_safe_target`
  | createDestDir (path : String) (error : IoError)
  | canonicalizeDestDir (path : String) (error : IoError)
  | createParent (path : String) (error : IoError)
  | escapedDestDir
  | canonicalize (path : String) (error : IoError)
  | escapes (resolved destDir : String)
  -- `FileTransferHeader::decode`
  | headerShort
  | headerShortBody
  | headerShortId
  | notUtf8
  -- `recv_file_bulk`
  | finishedEarly
  | fileIdTooLong
  | invalidFileId
  | exceedsCap (size : Nat)
  | hashMismatch (fileId : String)
  | io (error : IoError)
  deriving DecidableEq

def FileSyncError.text : FileSyncError → String
  | .emptyRelativePath => "empty relative_path"
  | .relativePathTooLong => "relative_path too long"
  | .nullByte => "relative_path contains null byte"
  | .controlCharacter => "relative_path contains control character"
  | .leadingSeparator => "relative_path must not start with separator"
  | .driveLetter => "relative_path must not include drive prefix"
  | .absolutePath => "relative_path must not be absolute"
  | .emptyComponent => "empty path component"
  | .unsafePath relativePath => s!"refusing unsafe relative_path {relativePath}"
  | .createDestDir path _ => s!"create dest_dir {path}"
  | .canonicalizeDestDir path _ => s!"canonicalize dest_dir {path}"
  | .createParent path _ => s!"create parent {path}"
  | .escapedDestDir => "path escaped dest_dir"
  | .canonicalize path _ => s!"canonicalize {path}"
  | .escapes resolved destDir => s!"resolved path escapes dest_dir ({resolved} not under {destDir})"
  | .headerShort => "FileTransferHeader short"
  | .headerShortBody => "FileTransferHeader short body"
  | .headerShortId => "FileTransferHeader short id"
  | .notUtf8 => "invalid utf-8 sequence"
  | .finishedEarly => "stream finished early"
  | .fileIdTooLong => "file_id too long"
  | .invalidFileId => "invalid file_id"
  | .exceedsCap size => s!"remote file size {size} exceeds cap"
  | .hashMismatch fileId => s!"blake3 mismatch for {fileId}"
  | .io error => error

/-! ## Relative paths -/

/-- `char::is_control`. -/
def isControl (c : Char) : Bool := c.toNat < 0x20 || (0x7f ≤ c.toNat && c.toNat < 0xa0)

/-- One round of the loop over the components. -/
def validateComponent (relativePath : String) : UnixPath.Component → Except FileSyncError Unit
  | .normal name => if name = "" then .error .emptyComponent else .ok ()
  | .curDir => .ok ()
  | .parentDir => .error (.unsafePath relativePath)
  | .rootDir => .error (.unsafePath relativePath)

def validateRelativePath (relativePath : String) : Except FileSyncError Unit :=
  if relativePath = "" then .error .emptyRelativePath
  else if relativePath.utf8ByteSize > maxRelPathBytes then .error .relativePathTooLong
  else if relativePath.toList.contains (Char.ofNat 0) then .error .nullByte
  else if relativePath.toList.any isControl then .error .controlCharacter
  else if relativePath.toList.head? = some '\\' ∨ relativePath.toList.head? = some '/' then
    .error .leadingSeparator
  else if relativePath.toList[1]? = some ':' then .error .driveLetter
  else if UnixPath.hasRoot relativePath then .error .absolutePath
  else (UnixPath.components relativePath).forM (validateComponent relativePath)

/-! ## Headers -/

structure FileTransferHeader where
  fileId : String
  relativePath : String
  size : UInt64
  blake3 : BitVec 256
  deriving DecidableEq

/-- The UTF-8 bytes of a string. -/
def utf8 (s : String) : Bytes := s.toByteArray.data.toList

/-- `String::from_utf8`. -/
def fromUtf8 (bytes : Bytes) : Except FileSyncError String :=
  match String.fromUTF8? ⟨bytes.toArray⟩ with
  | some s => .ok s
  | none => .error .notUtf8

namespace FileTransferHeader

def encode (header : FileTransferHeader) : Bytes :=
  Bytes.ofNatBE 2 (utf8 header.relativePath).length ++ utf8 header.relativePath ++
    Bytes.ofNatBE 8 header.size.toNat ++ Bytes.ofNatBE 32 header.blake3.toNat ++
    Bytes.ofNatBE 2 (utf8 header.fileId).length ++ utf8 header.fileId

/-- The header at the front of the buffer and its length. -/
def decode (buf : Bytes) : Except FileSyncError (FileTransferHeader × Nat) := do
  if buf.length < 2 then .error .headerShort
  let pathLen := Bytes.toNatBE (buf.take 2)
  if buf.length < 2 + pathLen + 8 + 32 + 2 then .error .headerShortBody
  let relativePath ← fromUtf8 ((buf.drop 2).take pathLen)
  let off := 2 + pathLen
  let size := UInt64.ofNat (Bytes.toNatBE ((buf.drop off).take 8))
  let blake3 := BitVec.ofNat 256 (Bytes.toNatBE ((buf.drop (off + 8)).take 32))
  let idLen := Bytes.toNatBE ((buf.drop (off + 40)).take 2)
  let off := off + 42
  if buf.length < off + idLen then .error .headerShortId
  let fileId ← fromUtf8 ((buf.drop off).take idLen)
  .ok ({ fileId, relativePath, size, blake3 }, off + idLen)

end FileTransferHeader

/-- `read_exact`: the next bytes of the stream and what follows them. -/
def readExact (count : Nat) (stream : Bytes) : Except FileSyncError (Bytes × Bytes) :=
  if stream.length < count then .error .finishedEarly
  else .ok (stream.take count, stream.drop count)

/-- `STREAM_MAGIC` and `StreamPurpose::FileSync`. -/
def filesyncEnvelope : Bytes := [0xA1, 0x06]

/-- How `recv_file_bulk` reads and checks the header, up to the size cap. -/
def readHeader (stream : Bytes) (maxBytes : Nat) :
    Except FileSyncError (FileTransferHeader × Bytes) := do
  let (pathLenBuf, stream) ← readExact 2 stream
  let pathLen := Bytes.toNatBE pathLenBuf
  if pathLen > maxRelPathBytes then .error .relativePathTooLong
  let (restPrefix, stream) ← readExact (pathLen + 8 + 32 + 2) stream
  let idLen := Bytes.toNatBE ((restPrefix.drop (pathLen + 8 + 32)).take 2)
  if idLen > maxFileIdBytes then .error .fileIdTooLong
  let (idBuf, stream) ← readExact idLen stream
  let (header, _) ← FileTransferHeader.decode (pathLenBuf ++ restPrefix ++ idBuf)
  if header.fileId = "" ∨ header.fileId.toList.contains (Char.ofNat 0) then
    .error .invalidFileId
  if header.size.toNat > min maxBytes maxFilesyncBytes then .error (.exceedsCap header.size.toNat)
  .ok (header, stream)

end Qubox.FileSync
