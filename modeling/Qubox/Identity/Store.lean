import Qubox.FileSync.Transfer
import Qubox.Library.Interaction
import Qubox.Library.Json
import Qubox.Proto
import Qubox.Update.Checker

/-!
# The identity of a device

The identity file holds the ids of a device, its public key, and its private key sealed
under a key that comes from a passphrase or from a master key file next to it.
`load_or_create_identity` is a program over the calls it makes to the file system and to the
cryptographic crates, as compiled for Linux. The grammar of JSON and the forms of a UUID are
parameters; what a derived reader takes from a document is not.
-/

namespace Qubox.Identity

open FileSync (utf8 fromUtf8)
open Interaction
open Update (hexEncode hexDigest)

/-- The 32 bytes of a private key or of a key-encrypting key. -/
abbrev SecretKey := BitVec 256

def identitySchemaVersion : Nat := 3

def atRestAeadTag : String := "qubox-identity-v3-cha20p1305"

structure KeyEnvelope where
  tag : String
  saltHex : String
  nonceHex : String
  ciphertextHex : String
  aadPkSha256Hex : String
  deriving DecidableEq

structure DeviceIdentity where
  schemaVersion : Nat
  deviceId : Uuid
  hostPeerId : Uuid
  clientPeerId : Uuid
  displayName : String
  publicKey : PublicKey
  encryptedPrivateKey : KeyEnvelope
  deriving DecidableEq

def KeyEnvelope.emptyPlaceholder : KeyEnvelope := ⟨"", "", "", "", ""⟩

/-! ## Readers -/

/-- `serde_json` and `uuid`, as far as the readers below do not say what they do. -/
structure Serde where
  /-- The document that a text is, if it follows the grammar. -/
  document : String → Option Json
  parseUuid : String → Option Uuid
  /-- `to_string_pretty` -/
  pretty : DeviceIdentity → String
  /-- Why a text is not read as an identity. -/
  refusal : String → String

def asKey (json : Json) : Option (BitVec 256) :=
  (json.asBytes 32).map fun bytes => BitVec.ofNat 256 (Bytes.toNatBE bytes)

structure V1Identity where
  schemaVersion : Nat
  deviceId : Uuid
  hostPeerId : Uuid
  clientPeerId : Uuid
  displayName : String
  deriving DecidableEq

structure V2Identity where
  schemaVersion : Nat
  deviceId : Uuid
  hostPeerId : Uuid
  clientPeerId : Uuid
  displayName : String
  privateKey : SecretKey
  publicKey : PublicKey
  deriving DecidableEq

namespace Serde

variable (serde : Serde)

def asUuid (json : Json) : Option Uuid := json.asString.bind serde.parseUuid

def envelopeOf (json : Json) : Option KeyEnvelope := do
  let found ← json.fieldsOnce
    ["tag", "salt_hex", "nonce_hex", "ciphertext_hex", "aad_pk_sha256_hex"]
  match found with
  | [tag, saltHex, nonceHex, ciphertextHex, aad] =>
      return ⟨← tag.asString, ← saltHex.asString, ← nonceHex.asString, ← ciphertextHex.asString,
        ← aad.asString⟩
  | _ => none

def identityOf (json : Json) : Option DeviceIdentity := do
  let found ← json.fieldsOnce
    ["schema_version", "device_id", "host_peer_id", "client_peer_id", "display_name",
      "public_key", "encrypted_private_key"]
  match found with
  | [version, deviceId, hostPeerId, clientPeerId, name, publicKey, envelope] =>
      return ⟨← version.asNatural (2 ^ 32), ← serde.asUuid deviceId, ← serde.asUuid hostPeerId,
        ← serde.asUuid clientPeerId, ← name.asString, ← asKey publicKey, ← envelopeOf envelope⟩
  | _ => none

/-- `from_str` for the identity of this version. -/
def identity (text : String) : Option DeviceIdentity := (serde.document text).bind serde.identityOf

/-- `from_str` for a value. -/
def value (text : String) : Option Json := (serde.document text).filter (·.readable)

/-- `from_value` for `V1Identity` -/
def v1Of (raw : Json) : Option V1Identity := do
  let found ← raw.fields
    ["schema_version", "device_id", "host_peer_id", "client_peer_id", "display_name"]
  match found with
  | [version, deviceId, hostPeerId, clientPeerId, name] =>
      return ⟨← version.asNatural (2 ^ 32), ← serde.asUuid deviceId, ← serde.asUuid hostPeerId,
        ← serde.asUuid clientPeerId, ← name.asString⟩
  | _ => none

/-- `from_value` for `V2Identity` -/
def v2Of (raw : Json) : Option V2Identity := do
  let found ← raw.fields
    ["schema_version", "device_id", "host_peer_id", "client_peer_id", "display_name",
      "private_key", "public_key"]
  match found with
  | [version, deviceId, hostPeerId, clientPeerId, name, privateKey, publicKey] =>
      return ⟨← version.asNatural (2 ^ 32), ← serde.asUuid deviceId, ← serde.asUuid hostPeerId,
        ← serde.asUuid clientPeerId, ← name.asString, ← asKey privateKey, ← asKey publicKey⟩
  | _ => none

end Serde

/-! ## Calls to the system -/

inductive StoreFile where
  | identity
  /-- `identity.key` -/
  | masterKey
  deriving DecidableEq

inductive StoreAction where
  /-- `create_dir_all` for the parent of the identity file. -/
  | createDirs
  | exists (file : StoreFile)
  | read (file : StoreFile)
  /-- The permissions of a file are read, and set when they are not `0o600`. -/
  | tighten (file : StoreFile)
  /-- `open` with `create_new`. -/
  | createNew (file : StoreFile)
  /-- `open` with `create` and `truncate`. -/
  | truncate (file : StoreFile)
  | write (file : StoreFile) (bytes : Bytes)
  | randomBytes (count : Nat)
  | newUuid
  | generateKey
  /-- `hash_password_into`: Argon2id with a salt. -/
  | deriveKek (passphrase : String) (salt : Bytes)
  /-- ChaCha20-Poly1305 with the AAD of a public key. -/
  | encrypt (kek : SecretKey) (nonce : Bytes) (privateKey : SecretKey) (publicKey : PublicKey)
  | decrypt (kek : SecretKey) (nonce ciphertext : Bytes) (publicKey : PublicKey)
  deriving DecidableEq

/-- Errors are given by their texts. -/
abbrev storeSignature : Signature where
  Action := StoreAction
  Answer
    | .createDirs | .tighten _ | .createNew _ | .truncate _ | .write _ _ => Except String Unit
    | .exists _ => Bool
    | .read _ | .encrypt _ _ _ _ | .decrypt _ _ _ _ => Except String Bytes
    | .randomBytes _ => Bytes
    | .newUuid => Uuid
    | .generateKey => SecretKey
    | .deriveKek _ _ => Except String SecretKey

/-- A program that fails with the text of its outermost context. -/
abbrev Store (α : Type) := Program storeSignature String α

abbrev StoreEvent := Event storeSignature

/-- What a process gets from its environment and its crates. -/
structure StoreConfig where
  /-- `QUBOX_IDENTITY_PASSPHRASE`, when it is not empty. -/
  passphrase : Option String
  /-- `default_device_name()` -/
  defaultDeviceName : String
  path : String
  /-- The parent of the path. -/
  directory : String
  masterKeyPath : String
  /-- The verifying key of an Ed25519 key. -/
  publicKeyOf : SecretKey → PublicKey
  sha256 : Bytes → BitVec 256

def keyBytes (key : BitVec 256) : Bytes := Bytes.ofNatBE 32 key.toNat

def keyOfBytes (bytes : Bytes) : BitVec 256 := BitVec.ofNat 256 (Bytes.toNatBE bytes)

/-- `hex::decode` of one digit. -/
def hexValue (c : Char) : Option Nat :=
  if '0' ≤ c ∧ c ≤ '9' then some (c.toNat - '0'.toNat)
  else if 'a' ≤ c ∧ c ≤ 'f' then some (c.toNat - 'a'.toNat + 10)
  else if 'A' ≤ c ∧ c ≤ 'F' then some (c.toNat - 'A'.toNat + 10)
  else none

def hexDecodeChars : List Char → Option Bytes
  | [] => some []
  | [_] => none
  | high :: low :: rest => do
      let byte := UInt8.ofNat ((← hexValue high) * 16 + (← hexValue low))
      return byte :: (← hexDecodeChars rest)

def hexDecode (text : String) : Option Bytes := hexDecodeChars text.toList

theorem hexValue_digitChar {n : Nat} (digit : n < 16) : hexValue (Nat.digitChar n) = some n := by
  have all : ∀ n < 16, hexValue (Nat.digitChar n) = some n := by decide
  exact all n digit

theorem hexDecode_hexEncode (bytes : Bytes) : hexDecode (hexEncode bytes) = some bytes := by
  rw [hexDecode, hexEncode, String.toList_ofList]
  induction bytes with
  | nil => rfl
  | cons b rest ih =>
      have bound := b.toNat_lt
      have high := hexValue_digitChar (n := b.toNat / 16) (by omega)
      have low := hexValue_digitChar (n := b.toNat % 16) (by omega)
      have whole : UInt8.ofNat (b.toNat / 16 * 16 + b.toNat % 16) = b := by
        rw [Nat.div_add_mod', UInt8.ofNat_toNat]
      rw [List.flatMap_cons]
      simp only [hexDecodeChars, List.cons_append, List.nil_append, high, low, ih, whole,
        Option.bind_eq_bind, Option.bind_some]
      rfl

namespace Store

def perform (action : StoreAction) : Store (storeSignature.Answer action) := .act action .done

/-- The `?` of a call. -/
def raise {α : Type} : Except String α → Store α
  | .ok value => .done value
  | .error e => .fail e

/-- The `?` of a call with a context. -/
def orFail {ε α : Type} (context : String) : Except ε α → Store α
  | .ok value => .done value
  | .error _ => .fail context

def require {α : Type} (context : String) : Option α → Store α
  | some value => .done value
  | none => .fail context

variable (serde : Serde) (config : StoreConfig)

/-! ## The key-encrypting key -/

def loadMasterKey : Store SecretKey := do
  if !(← perform (.exists .masterKey)) then
    .fail (s!"missing identity master key at {config.masterKeyPath}: set " ++
      "QUBOX_IDENTITY_PASSPHRASE or run with the file in place")
  else
    raise (← perform (.tighten .masterKey))
    let bytes ← orFail s!"failed to read identity master key {config.masterKeyPath}"
      (← perform (.read .masterKey))
    if bytes.length ≠ 32 then
      .fail (s!"identity master key at {config.masterKeyPath} has wrong length: " ++
        s!"{bytes.length} bytes (expected 32)")
    else return keyOfBytes bytes

def ensureMasterKey : Store SecretKey := do
  if ← perform (.exists .masterKey) then loadMasterKey config
  else
    let bytes ← perform (.randomBytes 32)
    orFail s!"failed to create master key file {config.masterKeyPath}"
      (← perform (.createNew .masterKey))
    raise (← perform (.write .masterKey bytes))
    return keyOfBytes bytes

/-- `fs::read_to_string` on the identity file. -/
def readIdentityText : Store String := do
  let failure := s!"failed to read identity file {config.path}"
  let bytes ← orFail failure (← perform (.read .identity))
  orFail failure (fromUtf8 bytes)

def readEnvelopeSalt : Store Bytes := do
  let text ← readIdentityText config
  let raw ← require s!"identity file {config.path} is not valid JSON" (serde.value text)
  let saltHex ← require
    (s!"identity file {config.path} has no encrypted_private_key.salt_hex " ++
      "(cannot derive passphrase KEK)")
    (((raw.get "encrypted_private_key").bind (·.get "salt_hex")).bind Json.asString)
  require s!"invalid salt hex in {config.path}" (hexDecode saltHex)

def deriveKek : Store SecretKey := do
  match config.passphrase with
  | some passphrase =>
      let salt ← readEnvelopeSalt serde config
      raise (← perform (.deriveKek passphrase salt))
  | none => loadMasterKey config

/-- A new key-encrypting key, with the salt that it was derived with. -/
def pickKekAndSaltForFirstRun : Store (SecretKey × Bytes) := do
  match config.passphrase with
  | some passphrase =>
      let salt ← perform (.randomBytes 16)
      let kek ← raise (← perform (.deriveKek passphrase salt))
      return (kek, salt)
  | none => return (← ensureMasterKey config, List.replicate 16 0)

/-! ## The envelope -/

def encryptEnvelope (kek : SecretKey) (salt : Bytes) (privateKey : SecretKey)
    (publicKey : PublicKey) : Store KeyEnvelope := do
  let nonce ← perform (.randomBytes 12)
  let ciphertext ← raise (← perform (.encrypt kek nonce privateKey publicKey))
  return {
    tag := atRestAeadTag
    saltHex := hexEncode salt
    nonceHex := hexEncode nonce
    ciphertextHex := hexEncode ciphertext
    aadPkSha256Hex := hexDigest (config.sha256 (keyBytes publicKey)) }

def decryptEnvelope (kek : SecretKey) (envelope : KeyEnvelope) (publicKey : PublicKey) :
    Store SecretKey := do
  if envelope.tag ≠ atRestAeadTag then
    .fail (s!"unknown identity envelope tag {repr envelope.tag} (this build expects " ++
      s!"{atRestAeadTag})")
  else
    let nonce ← require "invalid nonce hex" (hexDecode envelope.nonceHex)
    if nonce.length ≠ 12 then
      .fail s!"envelope nonce must be 12 bytes, got {nonce.length}"
    else
      let ciphertext ← require "invalid ciphertext hex" (hexDecode envelope.ciphertextHex)
      let plaintext ← raise (← perform (.decrypt kek nonce ciphertext publicKey))
      if plaintext.length ≠ 32 then
        .fail s!"decrypted private key has wrong length: {plaintext.length} (expected 32)"
      else return keyOfBytes plaintext

def sealWithKek (identity : DeviceIdentity) (kek : SecretKey) (salt : Bytes)
    (privateKey : SecretKey) : Store DeviceIdentity := do
  if config.publicKeyOf privateKey ≠ identity.publicKey then
    .fail "private key does not match identity.public_key; refusing to seal"
  else
    let envelope ← encryptEnvelope config kek salt privateKey identity.publicKey
    return { identity with encryptedPrivateKey := envelope }

/-! ## Loading and creating -/

def writeIdentityWithMode (identity : DeviceIdentity) : Store Unit := do
  let failure := s!"failed to write identity file {config.path}"
  orFail failure (← perform (.truncate .identity))
  orFail failure (← perform (.write .identity (utf8 (serde.pretty identity))))

def tightenFiles : Store Unit := do
  raise (← perform (.tighten .identity))
  if ← perform (.exists .masterKey) then
    let _ ← perform (.tighten .masterKey)
    return ()

/-- An identity that is not sealed yet is sealed and written. -/
def install (sealFailure : String) (identity : DeviceIdentity) (privateKey : SecretKey) :
    Store DeviceIdentity := do
  let (kek, salt) ← pickKekAndSaltForFirstRun config
  let installed ←
    match ← (sealWithKek config identity kek salt privateKey).attempt with
    | .ok installed => pure installed
    | .error e => .fail (sealFailure ++ e)
  writeIdentityWithMode serde config installed
  tightenFiles
  return installed

/-- `DeviceIdentity::new`, with the private key. -/
def newIdentity (displayName : String) : Store (DeviceIdentity × SecretKey) := do
  let privateKey ← perform .generateKey
  let identity := {
    schemaVersion := identitySchemaVersion
    deviceId := ← perform .newUuid
    hostPeerId := ← perform .newUuid
    clientPeerId := ← perform .newUuid
    displayName
    publicKey := config.publicKeyOf privateKey
    encryptedPrivateKey := .emptyPlaceholder }
  return (identity, privateKey)

def migrateV2 (v2 : V2Identity) : Store DeviceIdentity :=
  let migrated := {
    schemaVersion := identitySchemaVersion
    deviceId := v2.deviceId
    hostPeerId := v2.hostPeerId
    clientPeerId := v2.clientPeerId
    displayName := v2.displayName
    publicKey := v2.publicKey
    encryptedPrivateKey := .emptyPlaceholder }
  install serde config "" migrated v2.privateKey

def migrateV1 (v1 : V1Identity) : Store DeviceIdentity := do
  let (fresh, privateKey) ← newIdentity config v1.displayName
  let fresh := { fresh with
    deviceId := v1.deviceId
    hostPeerId := v1.hostPeerId
    clientPeerId := v1.clientPeerId }
  install serde config "" fresh privateKey

/-- A text that is not read as an identity of this version is read as one of version 2 when it
has a private key, and else as one of version 1. -/
def migrate (text : String) : Store DeviceIdentity := do
  let raw ← require
    (s!"failed to parse identity file {config.path} (neither v1, v2 nor v3): " ++
      s!"{serde.refusal text}") (serde.value text)
  if (raw.get "private_key").isSome then
    migrateV2 serde config
      (← require s!"failed to parse v2 identity file {config.path}" (serde.v2Of raw))
  else
    migrateV1 serde config
      (← require s!"failed to parse v1 identity file {config.path}" (serde.v1Of raw))

def unlock (identity : DeviceIdentity) : Store SecretKey := do
  let kek ← deriveKek serde config
  decryptEnvelope kek identity.encryptedPrivateKey identity.publicKey

/-- The identity is sealed again under its new name, with the salt it has. -/
def rename (identity : DeviceIdentity) (displayName : String) (privateKey : SecretKey) :
    Store DeviceIdentity := do
  let renamed := { identity with displayName }
  let kek ← deriveKek serde config
  let salt ← require "invalid salt hex in existing envelope"
    (hexDecode identity.encryptedPrivateKey.saltHex)
  if salt.length ≠ 16 then .fail "existing envelope salt is not 16 bytes"
  else
    let installed ← sealWithKek config renamed kek salt privateKey
    writeIdentityWithMode serde config installed
    return installed

def reload (identity : DeviceIdentity) (displayName : String) : Store DeviceIdentity := do
  if identity.schemaVersion ≠ identitySchemaVersion then
    .fail s!"unsupported identity schema version {identity.schemaVersion} in {config.path}"
  else
    let privateKey ← unlock serde config identity
    if config.publicKeyOf privateKey ≠ identity.publicKey then
      .fail (s!"identity file {config.path} has mismatched private/public keys " ++
        "(passphrase/master key wrong?)")
    else
      let loaded ←
        if identity.displayName ≠ displayName then rename serde config identity displayName privateKey
        else pure identity
      tightenFiles
      return loaded

/-- What the call does with an identity file that it has found. -/
def loadText (text displayName : String) : Store DeviceIdentity :=
  match serde.identity text with
  | some identity => reload serde config identity displayName
  | none => migrate serde config text

def loadOrCreateIdentity (displayNameOverride : Option String) : Store DeviceIdentity := do
  orFail s!"failed to create identity directory {config.directory}" (← perform .createDirs)
  let displayName := displayNameOverride.getD config.defaultDeviceName
  if !(← perform (.exists .identity)) then
    let (identity, privateKey) ← newIdentity config displayName
    install serde config "first-run seal failed: " identity privateKey
  else
    loadText serde config (← readIdentityText config) displayName

def hostSeedForRecovery : Store SecretKey := do
  let identity ← loadOrCreateIdentity serde config none
  let kek ← deriveKek serde config
  decryptEnvelope kek identity.encryptedPrivateKey identity.publicKey

end Store

end Qubox.Identity
