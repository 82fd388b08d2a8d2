import Qubox.FileSync.Acceptance
import Qubox.Identity.Migration
import Qubox.Library.Interference

/-!
# The processes of a device

The host, the client, the daemon and whoever looks up the recovery seed call the same function
on the same two files. The files are a state that the calls of all processes act on, one action
at a time, and a process that crashes is one that is not scheduled any more. The processes have
one environment but for the default name. The random sources give what they like, in lengths
that are asked for; nothing else fails that is not said to.
-/

namespace Qubox

/-! ## The text of an id -/

namespace Uuid

theorem length_hexNibbles (value count : Nat) : (hexNibbles value count).length = count := by
  induction count with
  | zero => rfl
  | succ count ih => rw [hexNibbles, List.length_cons, ih]

theorem ne_hyphen_of_mem_hexNibbles {value count : Nat} {c : Char}
    (member : c ∈ hexNibbles value count) : c ≠ '-' := by
  have all : ∀ n < 16, hexDigit n ≠ '-' := by decide
  induction count with
  | zero => cases member
  | succ count ih =>
      rcases List.mem_cons.mp member with rfl | later
      · exact all _ (Nat.mod_lt _ (by decide))
      · exact ih later

theorem hexNibbles_inj {a b count : Nat} (same : hexNibbles a count = hexNibbles b count) :
    a % 16 ^ count = b % 16 ^ count := by
  have all : ∀ a < 16, ∀ b < 16, hexDigit a = hexDigit b → a = b := by decide
  induction count with
  | zero => rw [Nat.pow_zero, Nat.mod_one, Nat.mod_one]
  | succ count ih =>
      obtain ⟨digit, rest⟩ := List.cons.inj same
      have digit := all _ (Nat.mod_lt _ (by decide)) _ (Nat.mod_lt _ (by decide)) digit
      rw [Nat.mod_pow_succ, Nat.mod_pow_succ, ih rest, digit]

/-- The digits of an id are what is between the hyphens. -/
theorem filter_toText (id : Uuid) :
    id.toText.toList.filter (· ≠ '-') = hexNibbles id.toNat 32 := by
  have text (a b c d e : String) :
      "-".intercalate [a, b, c, d, e] = a ++ "-" ++ b ++ "-" ++ c ++ "-" ++ d ++ "-" ++ e := rfl
  have digits : (hexNibbles id.toNat 32).filter (· ≠ '-') = hexNibbles id.toNat 32 :=
    List.filter_eq_self.mpr fun c member => decide_eq_true (ne_hyphen_of_mem_hexNibbles member)
  have whole : (hexNibbles id.toNat 32).take (8 + 4 + 4 + 4 + 12) = hexNibbles id.toNat 32 :=
    List.take_of_length_le (Nat.le_of_eq (length_hexNibbles _ _))
  rw [List.take_add, List.take_add, List.take_add, List.take_add] at whole
  rw [← digits, ← whole]
  simp [toText, text]

theorem toText_injective {first second : Uuid} (same : first.toText = second.toText) :
    first = second := by
  have digits : hexNibbles first.toNat 32 = hexNibbles second.toNat 32 := by
    rw [← filter_toText, ← filter_toText, same]
  have numbers := hexNibbles_inj digits
  have small (id : Uuid) : id.toNat % 16 ^ 32 = id.toNat :=
    Nat.mod_eq_of_lt (Nat.lt_of_lt_of_le id.isLt (by decide))
  rw [small, small] at numbers
  exact BitVec.eq_of_toNat_eq numbers

end Uuid

namespace Identity

open FileSync (utf8 fromUtf8 fromUtf8_utf8)
open Interaction
open Update (hexEncode)

/-! ## Files -/

/-- What the random sources give next. -/
structure Chance where
  bytes : (count : Nat) → { bytes : Bytes // bytes.length = count }
  uuid : Uuid
  key : SecretKey

/-- The identity file and the master key file next to it, each with its content. -/
structure Home where
  identity : Option Bytes
  masterKey : Option Bytes
  chance : Chance

namespace Home

def content (home : Home) : StoreFile → Option Bytes
  | .identity => home.identity
  | .masterKey => home.masterKey

def put (home : Home) (bytes : Bytes) : StoreFile → Home
  | .identity => { home with identity := some bytes }
  | .masterKey => { home with masterKey := some bytes }

end Home

/-- The content of a file after bytes were written at its start. -/
def overwrite (bytes old : Bytes) : Bytes := bytes ++ old.drop bytes.length

structure Device where
  serde : Serde
  config : StoreConfig
  /-- Argon2id with the parameters of `derive_argon2_kek`. -/
  derive : String → Bytes → Except String SecretKey
  /-- ChaCha20-Poly1305 of a private key, with the AAD of a public key. -/
  encrypt : SecretKey → Bytes → SecretKey → PublicKey → Except String Bytes
  decrypt : SecretKey → Bytes → Bytes → PublicKey → Except String Bytes

namespace Device

variable (device : Device)

@[reducible] def machine : Machine storeSignature Home where
  exec
    | .createDirs, home => (.ok (), home)
    | .exists file, home => ((home.content file).isSome, home)
    | .read file, home =>
        match home.content file with
        | some bytes => (.ok bytes, home)
        | none => (.error "No such file or directory (os error 2)", home)
    | .tighten file, home =>
        match home.content file with
        | some _ => (.ok (), home)
        | none => (.error "No such file or directory (os error 2)", home)
    | .createNew file, home =>
        match home.content file with
        | some _ => (.error "File exists (os error 17)", home)
        | none => (.ok (), home.put [] file)
    | .truncate file, home => (.ok (), home.put [] file)
    | .write file bytes, home =>
        (.ok (), home.put (overwrite bytes ((home.content file).getD [])) file)
    | .randomBytes count, home => ((home.chance.bytes count).1, home)
    | .newUuid, home => (home.chance.uuid, home)
    | .generateKey, home => (home.chance.key, home)
    | .deriveKek passphrase salt, home => (device.derive passphrase salt, home)
    | .encrypt kek nonce privateKey publicKey, home =>
        (device.encrypt kek nonce privateKey publicKey, home)
    | .decrypt kek nonce ciphertext publicKey, home =>
        (device.decrypt kek nonce ciphertext publicKey, home)

/-- The environment of a process. -/
def configFor (defaultDeviceName : String) : StoreConfig := { device.config with defaultDeviceName }

/-- The identity that the identity file holds. -/
def stored (home : Home) : Option DeviceIdentity := home.identity.bind (identityIn device.serde)

end Device

/-! ## Calls -/

inductive Call where
  | load (displayNameOverride : Option String) (defaultDeviceName : String)
  /-- `host_seed_for_recovery` -/
  | hostSeed (defaultDeviceName : String)

inductive Returned where
  | loaded (identity : DeviceIdentity)
  | seed (privateKey : SecretKey)

namespace Call

def override : Call → Option String
  | .load displayNameOverride _ => displayNameOverride
  | .hostSeed _ => none

def defaultDeviceName : Call → String
  | .load _ name => name
  | .hostSeed name => name

def displayName (call : Call) : String := call.override.getD call.defaultDeviceName

def program (device : Device) : Call → Store Returned
  | .load displayNameOverride defaultDeviceName => do
      return .loaded (← Store.loadOrCreateIdentity device.serde
        (device.configFor defaultDeviceName) displayNameOverride)
  | .hostSeed defaultDeviceName => do
      return .seed (← Store.hostSeedForRecovery device.serde (device.configFor defaultDeviceName))

end Call

namespace Returned

def publicKey (config : StoreConfig) : Returned → PublicKey
  | .loaded identity => identity.publicKey
  | .seed privateKey => config.publicKeyOf privateKey

/-- The device id and the peer ids. -/
def ids : Returned → Option (Uuid × Uuid × Uuid)
  | .loaded identity => some (identity.deviceId, identity.hostPeerId, identity.clientPeerId)
  | .seed _ => none

/-- As far as both results show it, they are of one identity. -/
def Agrees (config : StoreConfig) (first second : Returned) : Prop :=
  first.publicKey config = second.publicKey config ∧
    ∀ a b, first.ids = some a → second.ids = some b → a = b

end Returned

/-- The processes of a device on its files. -/
@[reducible] def Device.system (device : Device) :
    System storeSignature Home (Except String Returned) Call Chance where
  toMachine := device.machine
  body call := (call.program device).conclude
  change chance home := { home with chance }

abbrev Processes := Pool storeSignature Home (Except String Returned) Call

/-! ## Identities that open -/

/-- The key in a master key file with this content. -/
def IsMasterKey (content : Option Bytes) (kek : SecretKey) : Prop :=
  ∃ bytes, content = some bytes ∧ bytes.length = 32 ∧ keyOfBytes bytes = kek

/-- The key-encrypting key for a salt, with this content of the master key file. -/
def Device.Kek (device : Device) (masterKey : Option Bytes) (salt : Bytes) (kek : SecretKey) :
    Prop :=
  match device.config.passphrase with
  | some passphrase => device.derive passphrase salt = .ok kek
  | none => IsMasterKey masterKey kek

/-- An identity of this version whose envelope opens, with the digits as they are written here. -/
structure Device.Sealed (device : Device) (masterKey : Option Bytes) (identity : DeviceIdentity) :
    Prop where
  version : identity.schemaVersion = identitySchemaVersion
  tag : identity.encryptedPrivateKey.tag = atRestAeadTag
  opens : ∃ salt nonce ciphertext kek privateKey,
    identity.encryptedPrivateKey.saltHex = hexEncode salt ∧ salt.length = 16 ∧
    identity.encryptedPrivateKey.nonceHex = hexEncode nonce ∧ nonce.length = 12 ∧
    identity.encryptedPrivateKey.ciphertextHex = hexEncode ciphertext ∧
    device.Kek masterKey salt kek ∧
    device.decrypt kek nonce ciphertext identity.publicKey = .ok (keyBytes privateKey) ∧
    device.config.publicKeyOf privateKey = identity.publicKey

/-! ## Reading back what was written -/

def KeyEnvelope.toJson (envelope : KeyEnvelope) : Json :=
  .object [("tag", .string envelope.tag), ("salt_hex", .string envelope.saltHex),
    ("nonce_hex", .string envelope.nonceHex), ("ciphertext_hex", .string envelope.ciphertextHex),
    ("aad_pk_sha256_hex", .string envelope.aadPkSha256Hex)]

/-- The derived `Serialize`. -/
def DeviceIdentity.toJson (identity : DeviceIdentity) : Json :=
  .object [("schema_version", .natural identity.schemaVersion),
    ("device_id", .string identity.deviceId.toText),
    ("host_peer_id", .string identity.hostPeerId.toText),
    ("client_peer_id", .string identity.clientPeerId.toText),
    ("display_name", .string identity.displayName),
    ("public_key", .array ((keyBytes identity.publicKey).map fun byte => .natural byte.toNat)),
    ("encrypted_private_key", identity.encryptedPrivateKey.toJson)]

/-- What the crates are relied on for. -/
structure Device.Lawful (device : Device) : Prop where
  parseUuid_toText : ∀ id, device.serde.parseUuid id.toText = some id
  document_pretty : ∀ identity,
    device.serde.document (device.serde.pretty identity) = some identity.toJson
  document_empty : device.serde.document "" = none
  encrypts : ∀ kek nonce privateKey publicKey, nonce.length = 12 →
    ∃ ciphertext, device.encrypt kek nonce privateKey publicKey = .ok ciphertext
  decrypt_encrypt : ∀ kek nonce privateKey publicKey ciphertext,
    device.encrypt kek nonce privateKey publicKey = .ok ciphertext →
      device.decrypt kek nonce ciphertext publicKey = .ok (keyBytes privateKey)

theorem length_keyBytes (key : BitVec 256) : (keyBytes key).length = 32 :=
  Bytes.length_ofNatBE _ _

theorem keyOfBytes_keyBytes (key : BitVec 256) : keyOfBytes (keyBytes key) = key := by
  have bound : key.toNat % 256 ^ 32 = key.toNat := Nat.mod_eq_of_lt key.isLt
  rw [keyOfBytes, keyBytes, Bytes.toNatBE_ofNatBE, bound, BitVec.ofNat_toNat, BitVec.setWidth_eq]

theorem asKey_bytes (key : BitVec 256) :
    asKey (.array ((keyBytes key).map fun byte => .natural byte.toNat)) = some key := by
  have items : ((keyBytes key).map fun byte => Json.natural byte.toNat).mapM
      (fun item => (item.asNatural 256).map UInt8.ofNat) = some (keyBytes key) := by
    rw [List.mapM_map, List.mapM_eq_some_map (g := id), List.map_id]
    intro byte _
    have small : (Json.natural byte.toNat).asNatural 256 = some byte.toNat := if_pos byte.toNat_lt
    rw [Function.comp_apply, small, Option.map_some, UInt8.ofNat_toNat, id]
  rw [asKey, Json.asBytes, if_pos (by rw [List.length_map, length_keyBytes]), items]
  exact congrArg some (keyOfBytes_keyBytes key)

theorem envelopeOf_toJson (envelope : KeyEnvelope) :
    Serde.envelopeOf envelope.toJson = some envelope := by
  rfl

theorem readable_toJson (identity : DeviceIdentity) : identity.toJson.readable = true := by
  have items (bytes : Bytes) :
      Json.readableItems (bytes.map fun byte => .natural byte.toNat) = true := by
    induction bytes with
    | nil => rfl
    | cons byte bytes ih => exact ih
  have key := items (keyBytes identity.publicKey)
  simp [DeviceIdentity.toJson, KeyEnvelope.toJson, Json.readable, Json.readableMembers, key]

namespace Device.Lawful

variable {device : Device} (lawful : device.Lawful)

include lawful

theorem identityOf_toJson {identity : DeviceIdentity} (version : identity.schemaVersion < 2 ^ 32) :
    device.serde.identityOf identity.toJson = some identity := by
  have uuid (id : Uuid) : device.serde.asUuid (.string id.toText) = some id :=
    lawful.parseUuid_toText id
  have number : (Json.natural identity.schemaVersion).asNatural (2 ^ 32) =
      some identity.schemaVersion := if_pos version
  have found : identity.toJson.fieldsOnce
      ["schema_version", "device_id", "host_peer_id", "client_peer_id", "display_name",
        "public_key", "encrypted_private_key"] = some [.natural identity.schemaVersion,
          .string identity.deviceId.toText, .string identity.hostPeerId.toText,
          .string identity.clientPeerId.toText, .string identity.displayName,
          .array ((keyBytes identity.publicKey).map fun byte => .natural byte.toNat),
          identity.encryptedPrivateKey.toJson] := by rfl
  rw [Serde.identityOf, found]
  simp only [Option.bind_eq_bind, Option.bind_some, number, uuid, Json.asString, asKey_bytes,
    envelopeOf_toJson]
  rfl

theorem identity_pretty {identity : DeviceIdentity} (version : identity.schemaVersion < 2 ^ 32) :
    device.serde.identity (device.serde.pretty identity) = some identity := by
  rw [Serde.identity, lawful.document_pretty, Option.bind_some, lawful.identityOf_toJson version]

theorem value_pretty (identity : DeviceIdentity) :
    device.serde.value (device.serde.pretty identity) = some identity.toJson := by
  rw [Serde.value, lawful.document_pretty, Option.filter_some, readable_toJson, if_pos rfl]

theorem identityIn_pretty {identity : DeviceIdentity} (version : identity.schemaVersion < 2 ^ 32) :
    identityIn device.serde (utf8 (device.serde.pretty identity)) = some identity :=
  (identityIn_of_text (fromUtf8_utf8 _)).trans (lawful.identity_pretty version)

theorem identityIn_empty : identityIn device.serde [] = none := by
  have text : fromUtf8 [] = .ok "" := fromUtf8_utf8 ""
  rw [identityIn_of_text text, Serde.identity, lawful.document_empty, Option.bind_none]

theorem utf8_pretty_ne_nil (identity : DeviceIdentity) :
    utf8 (device.serde.pretty identity) ≠ [] := by
  intro empty
  have text : fromUtf8 [] = .ok (device.serde.pretty identity) := empty ▸ fromUtf8_utf8 _
  have same : device.serde.pretty identity = "" :=
    Except.ok.inj (text.symm.trans (fromUtf8_utf8 ""))
  have written := lawful.document_pretty identity
  rw [same, lawful.document_empty] at written
  cases written

end Device.Lawful

end Identity

end Qubox
