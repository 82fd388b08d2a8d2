import Qubox.Identity.Store
import Qubox.Library.UnixPath

/-!
# The recovery key of a host

The host keeps a recovery key in memory and, wrapped under a key that is derived from its
identity seed, in a file next to its identity file. The functions are programs over the calls
they make to the system. Argon2id, XChaCha20-Poly1305 and the JSON form of a record are
parameters; so is what `clap` makes of the arguments. A call for the seed of an identity is one
action: it may leave anything in the identity file and in the master key file.
-/

namespace Qubox.Host

open FileSync (utf8 fromUtf8)
open Identity (SecretKey keyBytes hexDecode)
open Interaction
open Update (hexEncode IoError)

/-! ## Paths -/

/-- A path is compared by its components. -/
abbrev PathBuf := List UnixPath.Component

namespace PathBuf

def fileName (path : PathBuf) : Option String :=
  match path.getLast? with
  | some (.normal name) => some name
  | _ => none

def withFileName (path : PathBuf) (name : String) : PathBuf :=
  match fileName path with
  | some _ => path.dropLast ++ [.normal name]
  | none => path ++ [.normal name]

def withExtension (path : PathBuf) (ext : String) : PathBuf :=
  match fileName path with
  | some name => path.dropLast ++ [.normal ((UnixPath.splitAtDot name).1 ++ "." ++ ext)]
  | none => path

def parent (path : PathBuf) : Option PathBuf :=
  match path.getLast? with
  | none | some .rootDir => none
  | some _ => some path.dropLast

end PathBuf

/-! ## Records -/

structure RecoveryKey where
  raw : Bytes
  length_raw : raw.length = 32
  deriving DecidableEq

structure RecoveryRecord where
  kdf : String
  kdfSaltHex : String
  wrap : String
  wrappedKeyHex : String
  wrappedNonceHex : String
  createdUnixMs : Option UInt64
  deriving DecidableEq

def wrapKdfAlgo : String := "argon2id-v1"
def wrapCipher : String := "xchacha20poly1305-v1"
def recoveryFileName : String := "recovery_key.json"

namespace RecoveryRecord

def isWellFormed (record : RecoveryRecord) : Bool :=
  record.kdf = wrapKdfAlgo && record.wrap = wrapCipher &&
    (hexDecode record.kdfSaltHex).any (·.length = 16) &&
    (hexDecode record.wrappedKeyHex).isSome &&
    (hexDecode record.wrappedNonceHex).any (·.length = 24)

end RecoveryRecord

/-- The crates that the store uses. -/
structure RecoveryCrates where
  /-- `hash_password_into` of Argon2id, from a seed and a salt to 32 bytes. -/
  argon2 : Bytes → Bytes → Except String (BitVec 256)
  /-- XChaCha20-Poly1305 under a key, with a nonce. -/
  encrypt : BitVec 256 → Bytes → Bytes → Except String Bytes
  decrypt : BitVec 256 → Bytes → Bytes → Except String Bytes
  /-- `to_string_pretty` -/
  pretty : RecoveryRecord → String
  /-- `from_str` -/
  parse : String → Option RecoveryRecord
  /-- Seeds and salts of these lengths are within the limits of Argon2. -/
  argon2_ok : ∀ seed salt, seed.length ≤ 32 → salt.length = 16 → ∃ key, argon2 seed salt = .ok key
  /-- Only a message that is too long is not encrypted. -/
  encrypt_ok : ∀ key nonce message, nonce.length = 24 → message.length = 32 →
    ∃ ciphertext, encrypt key nonce message = .ok ciphertext
  decrypt_encrypt : ∀ key nonce message ciphertext, encrypt key nonce message = .ok ciphertext →
    decrypt key nonce ciphertext = .ok message
  rejects : ∀ key other nonce message ciphertext, encrypt key nonce message = .ok ciphertext →
    other ≠ key → ∃ e, decrypt other nonce ciphertext = .error e
  parse_pretty : ∀ record, parse (pretty record) = some record

/-! ## Calls to the system -/

inductive RecoveryAction where
  | exists (path : PathBuf)
  | readToString (path : PathBuf)
  | createDirAll (path : PathBuf)
  | write (path : PathBuf) (body : Bytes)
  | rename (source target : PathBuf)
  | fillBytes (count : Nat)
  | now
  /-- `qubox_identity::host_seed_for_recovery` -/
  | hostSeed (identityPath : PathBuf)
  deriving DecidableEq

abbrev recoverySignature : Signature where
  Action := RecoveryAction
  Answer
    | .exists _ => Bool
    | .readToString _ => Except IoError String
    | .createDirAll _ | .write _ _ | .rename _ _ => Except IoError Unit
    | .fillBytes count => { bytes : Bytes // bytes.length = count }
    | .now => Option Nat
    | .hostSeed _ => Except String SecretKey

abbrev Recovering (ε α : Type) := Program recoverySignature ε α

/-- What lies at a path. -/
inductive Entry where
  | file (content : Bytes)
  | directory

/-- The operations that fail, and what the system answers about other things than files. A failed
write may have left some bytes. -/
structure RecoveryEnv where
  statFault : PathBuf → Bool
  readFault : PathBuf → Option IoError
  createDirFault : PathBuf → Option IoError
  writeFault : PathBuf → Option (IoError × Option Bytes)
  renameFault : PathBuf → PathBuf → Option IoError
  /-- Milliseconds since the epoch, unless the clock is before it. -/
  clock : Option Nat
  hostSeed : PathBuf → Except String SecretKey
  /-- What a call for a seed leaves in the files of the identity. -/
  identityFiles : PathBuf → Option Entry

structure RecoveryWorld where
  entries : PathBuf → Option Entry
  env : RecoveryEnv
  /-- The random bytes of each draw. -/
  draws : Nat → Bytes
  drawn : Nat

namespace RecoveryWorld

def missing : IoError := "No such file or directory (os error 2)"
def isADirectory : IoError := "Is a directory (os error 21)"

/-- Bytes of a given length. -/
def fit (count : Nat) (bytes : Bytes) : { bytes : Bytes // bytes.length = count } :=
  ⟨bytes.take count ++ List.replicate (count - bytes.length) 0, by simp; omega⟩

/-- The empty path denotes nothing. -/
def lookup (w : RecoveryWorld) (path : PathBuf) : Option Entry :=
  if path = [] then none else w.entries path

def put (w : RecoveryWorld) (path : PathBuf) (entry : Option Entry) : RecoveryWorld :=
  { w with entries := Function.update w.entries path entry }

/-- A path without a file name denotes a directory, or nothing. -/
def write (w : RecoveryWorld) (path : PathBuf) (body : Bytes) :
    Except IoError Unit × RecoveryWorld :=
  match PathBuf.fileName path, w.entries path with
  | none, _ => (.error (if path = [] then missing else isADirectory), w)
  | some _, some .directory => (.error isADirectory, w)
  | some _, _ =>
      match w.env.writeFault path with
      | some (e, some left) => (.error e, w.put path (some (.file left)))
      | some (e, none) => (.error e, w)
      | none => (.ok (), w.put path (some (.file body)))

def rename (w : RecoveryWorld) (source target : PathBuf) : Except IoError Unit × RecoveryWorld :=
  match w.env.renameFault source target, w.lookup source with
  | some e, _ => (.error e, w)
  | none, none => (.error missing, w)
  | none, some entry =>
      match PathBuf.fileName target, w.entries target with
      | none, _ => (.error (if target = [] then missing else isADirectory), w)
      | some _, some .directory => (.error isADirectory, w)
      | some _, _ => (.ok (), (w.put source none).put target (some entry))

/-- `create_dir_all` makes a directory of every path above, where there is nothing yet. -/
def makeDirs (w : RecoveryWorld) (path : PathBuf) : RecoveryWorld :=
  { w with entries := fun above =>
      if above.isPrefixOf path then some ((w.entries above).getD .directory) else w.entries above }

/-- The files of an identity are as a call for its seed leaves them. -/
def touchIdentity (w : RecoveryWorld) (identityPath : PathBuf) : RecoveryWorld :=
  { w with entries := fun path =>
      if path = identityPath ∨ path = PathBuf.withFileName identityPath "identity.key" then
        w.env.identityFiles path
      else w.entries path }

def exec : (a : RecoveryAction) → RecoveryWorld → recoverySignature.Answer a × RecoveryWorld
  | .exists path, w => (!w.env.statFault path && (w.lookup path).isSome, w)
  | .readToString path, w =>
      match w.env.readFault path, w.lookup path with
      | some e, _ => (.error e, w)
      | none, some (.file content) =>
          match fromUtf8 content with
          | .ok text => (.ok text, w)
          | .error _ => (.error "stream did not contain valid UTF-8", w)
      | none, some .directory => (.error isADirectory, w)
      | none, none => (.error missing, w)
  | .createDirAll path, w =>
      match w.env.createDirFault path with
      | some e => (.error e, w)
      | none => (.ok (), w.makeDirs path)
  | .write path body, w => w.write path body
  | .rename source target, w => w.rename source target
  | .fillBytes count, w => (fit count (w.draws w.drawn), { w with drawn := w.drawn + 1 })
  | .now, w => (w.env.clock, w)
  | .hostSeed identityPath, w => (w.env.hostSeed identityPath, w.touchIdentity identityPath)

def machine : Machine recoverySignature RecoveryWorld := ⟨exec⟩

end RecoveryWorld

/-! ## The store -/

structure RecoveryStore where
  path : PathBuf
  key : RecoveryKey
  record : RecoveryRecord

namespace RecoveryStore

section Programs

variable {ε α : Type} (crates : RecoveryCrates)

def perform (action : RecoveryAction) : Recovering ε (recoverySignature.Answer action) :=
  .act action .done

/-- The `?` of a call. -/
def raise : Except String α → Recovering String α
  | .ok value => .done value
  | .error e => .fail e

/-- The `?` of a call with a context, of which the error is the outermost. -/
def orFail (context : String) : Except String α → Recovering String α
  | .ok value => .done value
  | .error _ => .fail context

def generate : Recovering ε RecoveryKey := do
  let bytes ← perform (.fillBytes 32)
  return ⟨bytes.1, bytes.2⟩

def deriveWrapKey (seed salt : Bytes) : Except String (BitVec 256) :=
  if salt.length ≠ 16 then .error "KDF salt must be 16 bytes"
  else (crates.argon2 seed salt).mapError (s!"argon2 derive failed: {·}")

/-- The record of a key, from the salt, the nonce and the time of wrapping. -/
def recordOf (salt nonce ciphertext : Bytes) (time : Option Nat) : RecoveryRecord where
  kdf := wrapKdfAlgo
  kdfSaltHex := hexEncode salt
  wrap := wrapCipher
  wrappedKeyHex := hexEncode ciphertext
  wrappedNonceHex := hexEncode nonce
  createdUnixMs := some (UInt64.ofNat (time.getD 0))

def wrapKey (key : RecoveryKey) (hostIdentitySeed : Bytes) : Recovering String RecoveryRecord := do
  let salt ← perform (.fillBytes 16)
  let wrap ← raise (deriveWrapKey crates hostIdentitySeed salt.1)
  let nonce ← perform (.fillBytes 24)
  let ciphertext ← raise
    ((crates.encrypt wrap nonce.1 key.raw).mapError (s!"wrap_key encrypt failed: {·}"))
  return recordOf salt.1 nonce.1 ciphertext (← perform .now)

def unwrapKey (record : RecoveryRecord) (hostIdentitySeed : Bytes) : Except String RecoveryKey := do
  if !record.isWellFormed then .error "recovery record not well-formed"
  let some salt := hexDecode record.kdfSaltHex | .error "salt hex"
  let some ciphertext := hexDecode record.wrappedKeyHex | .error "ct hex"
  let some nonce := hexDecode record.wrappedNonceHex | .error "nonce hex"
  let wrap ← deriveWrapKey crates hostIdentitySeed salt
  let plaintext ← (crates.decrypt wrap nonce ciphertext).mapError
    (s!"unwrap_key decrypt failed: {·}")
  if length : plaintext.length = 32 then .ok ⟨plaintext, length⟩
  else .error s!"decrypted recovery key has wrong length: {plaintext.length}"

def tmpPath (path : PathBuf) : PathBuf := PathBuf.withExtension path "json.tmp"

/-- The directory that is created first, if any. -/
def directoryOf (path : PathBuf) : Option PathBuf := (PathBuf.parent path).filter (· ≠ [])

/-- What becomes of the errors on the way of a record into its file. -/
structure Contexts where
  create : PathBuf → Option String
  write : Option String
  rename : Option String

/-- The `?` of a call, with a context or without. -/
def underContext (context : Option String) (answer : Except String Unit) : Recovering String Unit :=
  match context with
  | some context => orFail context answer
  | none => raise answer

def createParent (contexts : Contexts) (path : PathBuf) : Recovering String Unit :=
  match directoryOf path with
  | some parent => do underContext (contexts.create parent) (← perform (.createDirAll parent))
  | none => return

/-- A file is written next to its place and moved there. -/
def placeFile (contexts : Contexts) (path : PathBuf) (body : Bytes) : Recovering String Unit := do
  createParent contexts path
  underContext contexts.write (← perform (.write (tmpPath path) body))
  underContext contexts.rename (← perform (.rename (tmpPath path) path))

def persistRecord (path : PathBuf) (record : RecoveryRecord) : Recovering String Unit := do
  if path = [] then return
  placeFile ⟨fun _ => none, none, none⟩ path (utf8 (crates.pretty record))

/-- The branch of `load_or_generate` for a file that exists. -/
def loadExisting (hostIdentitySeed : Bytes) (path : PathBuf) : Recovering String RecoveryStore := do
  let display := UnixPath.render path
  let raw ← orFail s!"read recovery {display}" (← perform (.readToString path))
  match crates.parse raw with
  | none => .fail s!"parse recovery {display}"
  | some record =>
      if !record.isWellFormed then .fail "recovery record malformed"
      else
        let key ← raise (unwrapKey crates record hostIdentitySeed)
        return ⟨path, key, record⟩

/-- The branch of `load_or_generate` for a first boot. -/
def generateNew (hostIdentitySeed : Bytes) (path : PathBuf) : Recovering String RecoveryStore := do
  let key ← generate
  let record ← wrapKey crates key hostIdentitySeed
  let contexts := {
    create := fun parent => some s!"create recovery dir {UnixPath.render parent}"
    write := some s!"write tmp recovery {UnixPath.render (tmpPath path)}"
    rename := some s!"rename recovery to {UnixPath.render path}" }
  placeFile contexts path (utf8 (crates.pretty record))
  return ⟨path, key, record⟩

def loadOrGenerate (hostIdentitySeed : Bytes) (path : PathBuf) :
    Recovering String RecoveryStore := do
  if ← perform (.exists path) then loadExisting crates hostIdentitySeed path
  else generateNew crates hostIdentitySeed path

def defaultPath (identityPath : PathBuf) : PathBuf :=
  PathBuf.withFileName identityPath recoveryFileName

def displayKey (store : RecoveryStore) : String := hexEncode store.key.raw

/-- What `rotate` does with a wrapped key: the memory is replaced before the file. -/
def replace (store : RecoveryStore) (newKey : RecoveryKey) (record : RecoveryRecord) :
    Recovering ε (Except String RecoveryKey × RecoveryStore) := do
  let rotated := { store with key := newKey, record }
  match ← (persistRecord crates store.path record).attempt with
  | .error e => return (.error e, rotated)
  | .ok () => return (.ok newKey, rotated)

/-- The result, and the store afterwards. -/
def rotate (store : RecoveryStore) (hostIdentitySeed : Bytes) :
    Recovering ε (Except String RecoveryKey × RecoveryStore) := do
  let newKey ← generate
  match ← (wrapKey crates newKey hostIdentitySeed).attempt with
  | .error e => return (.error e, store)
  | .ok record => store.replace crates newKey record

end Programs

end RecoveryStore

/-! ## The host -/

/-- What a process of the host gets from its command line and its environment. -/
structure Surroundings where
  args : List String
  /-- `args.identity_path` of `clap`, which takes it from the arguments or from
  `QUBOX_IDENTITY_PATH`. -/
  identityPathArg : Option PathBuf
  /-- `QUBOX_IDENTITY_PATH` -/
  identityPathVar : Option String
  /-- `XDG_CONFIG_HOME` -/
  configHome : Option String
  /-- `HOME` -/
  home : Option String
  /-- `data_local_dir` of `ProjectDirs` -/
  dataLocalDir : Option PathBuf
  tempDir : PathBuf

namespace Surroundings

variable (s : Surroundings)

/-- `default_identity_path`, as compiled for Linux. -/
def defaultIdentityPath : PathBuf :=
  match s.identityPathVar, s.configHome, s.home with
  | some path, _, _ => UnixPath.components path
  | none, some config, _ =>
      UnixPath.components config ++ [.normal "qubox", .normal "identity.json"]
  | none, none, some home =>
      UnixPath.components home ++ [.normal ".config", .normal "qubox", .normal "identity.json"]
  | none, none, none => [.normal ".qubox", .normal "identity.json"]

/-- The path of the identity that the host starts with. -/
def identityPath : PathBuf := s.identityPathArg.getD s.defaultIdentityPath

/-- `strip_prefix` -/
def stripPrefix (start text : String) : Option String :=
  (List.isPrefixOf? start.toList text.toList).map String.ofList

def resolveIdentityPathFromEnv : Except String PathBuf :=
  match s.args.findSome? (stripPrefix "--identity-path="),
      s.identityPathVar.filter (· ≠ ""), s.dataLocalDir with
  | some rest, _, _ => .ok (UnixPath.components rest)
  | none, some path, _ => .ok (UnixPath.components path)
  | none, none, some dir => .ok (dir ++ [.normal "identity.json"])
  | none, none, none => .error "could not resolve default identity directory"

end Surroundings

section Callers

variable (crates : RecoveryCrates) (s : Surroundings)

open RecoveryStore (defaultPath loadOrGenerate perform raise)

/-- The seed of the host, or zeros when there is none. -/
def seedOrZeros : Except String SecretKey → Bytes
  | .ok seed => keyBytes seed
  | .error _ => List.replicate 32 0

/-- The recovery part of the start of the host. It fails where the source panics. -/
def recoveryBootstrap (identityPath : PathBuf) : Recovering String RecoveryStore := do
  let hostSeed := seedOrZeros (← perform (.hostSeed identityPath))
  match ← (loadOrGenerate crates hostSeed (defaultPath identityPath)).attempt with
  | .ok store => return store
  | .error _ =>
      match ← (loadOrGenerate crates hostSeed []).attempt with
      | .ok store => return store
      | .error e => (.fail s!"memory recovery store: {e}" : Recovering String RecoveryStore)

/-- The seed of the host, or nothing when there is none: `unwrap_or_default`. -/
def seedOrDefault : Except String SecretKey → Bytes
  | .ok seed => keyBytes seed
  | .error _ => []

/-- The identity path that `rotate_recovery` looks at. -/
def rotationPath : PathBuf :=
  match s.resolveIdentityPathFromEnv with
  | .ok path => path
  | .error _ => s.tempDir ++ [.normal "qubox-fallback"]

/-- `rotate_recovery` of a running host, with the store afterwards. -/
def rotateRecovery {ε : Type} (store : RecoveryStore) :
    Recovering ε (Except String String × RecoveryStore) := do
  let seed := seedOrDefault (← perform (.hostSeed (rotationPath s)))
  let (result, rotated) ← store.rotate crates seed
  return (result.map fun key => hexEncode key.raw, rotated)

/-- The store and the seed of the recovery commands. -/
def recoveryCliStore : Recovering String (RecoveryStore × Bytes) := do
  let identityPath ← raise s.resolveIdentityPathFromEnv
  let seed ← raise ((← perform (.hostSeed identityPath)).mapError
    (s!"could not derive host seed: {·}"))
  return (← loadOrGenerate crates (keyBytes seed) (defaultPath identityPath), keyBytes seed)

/-- `qubox-host-agent recovery show | rotate`, with what it prints. -/
def handleRecoveryCli (sub : String) : Recovering String String := do
  let (store, seed) ← recoveryCliStore crates s
  if sub = "show" then return store.displayKey
  else if sub = "rotate" then
    let (result, _) ← store.rotate crates seed
    return hexEncode (← raise result).raw
  else .fail s!"unknown recovery subcommand {repr sub} (use 'show' or 'rotate')"

end Callers

end Qubox.Host
