import Qubox.FileSync.Acceptance
import Qubox.Identity.Store
import Qubox.Library.Blame

/-!
# Which identity files lose their key

A file that is not read as an identity of this version is migrated by the fields that it
happens to have, whatever version it names. So a key is kept only where such a file is an
identity of version 1 or 2 through and through. The calls here find one content of the
identity file; what else the system answers is left open.
-/

namespace Qubox.Identity

open FileSync (fromUtf8 utf8 fromUtf8_utf8)
open Interaction

variable (serde : Serde) (config : StoreConfig) (content : Bytes)

/-! ## Files and their versions -/

/-- The value that a file holds which is not read as an identity of this version. -/
def rawOf : Option Json :=
  (fromUtf8 content).toOption.bind fun text =>
    match serde.identity text with
    | some _ => none
    | none => serde.value text

/-- The identity of this version, or of a newer one of this shape. -/
def identityIn : Option DeviceIdentity := (fromUtf8 content).toOption.bind serde.identity

def IsVersion3 : Prop :=
  ∃ identity, identityIn serde content = some identity ∧
    identity.schemaVersion = identitySchemaVersion

/-- An identity with its private key in the clear, as it was written before there were
envelopes. -/
def IsVersion2 : Prop :=
  ∃ raw v2, rawOf serde content = some raw ∧ (raw.get "private_key").isSome ∧
    serde.v2Of raw = some v2 ∧ v2.schemaVersion = 2 ∧ raw.get "encrypted_private_key" = none

/-- An identity without a key. -/
def IsVersion1 : Prop :=
  ∃ raw v1, rawOf serde content = some raw ∧ serde.v1Of raw = some v1 ∧ v1.schemaVersion = 1 ∧
    raw.get "private_key" = none ∧ raw.get "public_key" = none ∧
    raw.get "encrypted_private_key" = none

def recordedKey : Option PublicKey :=
  match identityIn serde content with
  | some identity => some identity.publicKey
  | none => ((rawOf serde content).bind (·.get "public_key")).bind asKey

/-- The sealed private key of a file, as far as it can be read. -/
def recordedEnvelope : Option KeyEnvelope :=
  match identityIn serde content with
  | some identity => some identity.encryptedPrivateKey
  | none => ((rawOf serde content).bind (·.get "encrypted_private_key")).bind Serde.envelopeOf

def HasEnvelope : Prop :=
  (identityIn serde content).isSome ∨
    ((rawOf serde content).bind (·.get "encrypted_private_key")).isSome

/-! ## What a call does to the file -/

/-- The answers of a system with this identity file. -/
def Finds : (action : StoreAction) → storeSignature.Answer action → Prop
  | .exists .identity => fun found => found = true
  | .read .identity => fun read => ∀ bytes, read = .ok bytes → bytes = content
  | _ => fun _ => True

/-- The identity file is opened for writing, or written. -/
def Touches : StoreAction → Prop
  | .createNew file | .truncate file | .write file _ => file = .identity
  | _ => False

/-- An envelope is opened. -/
def Decrypts (envelope : KeyEnvelope) (event : StoreEvent) : Prop :=
  ∃ kek nonce ciphertext publicKey plaintext,
    event = ⟨.decrypt kek nonce ciphertext publicKey, .ok plaintext⟩ ∧
      hexDecode envelope.nonceHex = some nonce ∧ hexDecode envelope.ciphertextHex = some ciphertext

/-- What a call with an identity file owes to the key in it. -/
structure KeepsKey (events : List StoreEvent) (result : Except String DeviceIdentity) : Prop where
  /-- Another key than the recorded one is returned for a file of version 1 only. -/
  key : ∀ identity recorded, result = .ok identity → recordedKey serde content = some recorded →
    identity.publicKey ≠ recorded → IsVersion1 serde content
  /-- A sealed key is overwritten after it was opened, but for a file of version 1. -/
  envelope : HasEnvelope serde content → ∀ before event after, events = before ++ event :: after →
    Touches event.action →
      (∃ sealed, recordedEnvelope serde content = some sealed ∧
        ∃ earlier ∈ before, Decrypts sealed earlier) ∨ IsVersion1 serde content
  /-- A file of no version is refused and left as it is. -/
  other : ¬ IsVersion1 serde content → ¬ IsVersion2 serde content → ¬ IsVersion3 serde content →
    (∃ e, result = .error e) ∧ ∀ event ∈ events, ¬ Touches event.action

/-- Where the fields of a file make it one of version 1 or 2, it is one: it names that version
and has no key that the version does not have. -/
structure Honest : Prop where
  version2 : ∀ raw v2, rawOf serde content = some raw → (raw.get "private_key").isSome →
    serde.v2Of raw = some v2 → config.publicKeyOf v2.privateKey = v2.publicKey →
      v2.schemaVersion = 2 ∧ raw.get "encrypted_private_key" = none
  version1 : ∀ raw v1, rawOf serde content = some raw → raw.get "private_key" = none →
    serde.v1Of raw = some v1 →
      v1.schemaVersion = 1 ∧ raw.get "public_key" = none ∧ raw.get "encrypted_private_key" = none

/-! ## Readers -/

section Readers

variable {serde} {content} {text : String} {raw : Json} {identity : DeviceIdentity}

theorem identityIn_of_text (same : fromUtf8 content = .ok text) :
    identityIn serde content = serde.identity text := by
  rw [identityIn, same]
  rfl

theorem rawOf_of_text (same : fromUtf8 content = .ok text) (unread : serde.identity text = none) :
    rawOf serde content = serde.value text := by
  rw [rawOf, same]
  change (match serde.identity text with | some _ => none | none => serde.value text) = _
  rw [unread]

theorem rawOf_eq_some : rawOf serde content = some raw ↔
    ∃ text, fromUtf8 content = .ok text ∧ serde.identity text = none ∧
      serde.value text = some raw := by
  constructor
  · intro holds
    cases same : fromUtf8 content with
    | error e =>
        rw [rawOf, same] at holds
        cases holds
    | ok text =>
        cases unread : serde.identity text with
        | some identity =>
            simp only [rawOf, same, Except.toOption, Option.bind_some, unread] at holds
            cases holds
        | none => exact ⟨text, rfl, unread, (rawOf_of_text same unread).symm.trans holds⟩
  · rintro ⟨text, same, unread, value⟩
    rw [rawOf_of_text same unread, value]

/-- What is read as an identity of this version is nothing else. -/
theorem identityIn_of_rawOf (holds : rawOf serde content = some raw) :
    identityIn serde content = none := by
  obtain ⟨text, same, unread, -⟩ := rawOf_eq_some.mp holds
  rw [identityIn_of_text same, unread]

/-- The key of version 2 is the one that the file records. -/
theorem recordedKey_v2 {v2 : V2Identity} (holds : rawOf serde content = some raw)
    (keyed : (raw.get "private_key").isSome) (read : serde.v2Of raw = some v2) :
    recordedKey serde content = some v2.publicKey := by
  obtain ⟨found, fields, taken⟩ := Option.bind_eq_some_iff.mp read
  cases raw with
  | object members =>
      split at taken
      case h_1 =>
        have seen := Json.fields_object fields
        simp only [List.forall₂_cons] at seen
        obtain ⟨-, -, -, -, -, -, here, -⟩ := seen
        simp only [Option.bind_eq_bind, Option.bind_eq_some_iff] at taken
        obtain ⟨_, -, _, -, _, -, _, -, _, -, _, -, key, known, same⟩ := taken
        cases same
        rw [recordedKey, identityIn_of_rawOf holds, holds]
        exact Option.bind_eq_some_iff.mpr ⟨_, here, known⟩
      case h_2 => cases taken
  | _ => cases keyed

end Readers

/-! ## Contracts -/

section Contracts

variable {assume : (action : StoreAction) → storeSignature.Answer action → Prop}
  {ensure : StoreAction → Prop} {α β : Type} {post : β → Prop}

theorem upholds_perform {action : StoreAction} {f : storeSignature.Answer action → Store β}
    (allowed : ensure action)
    (rest : ∀ answer, assume action answer → (f answer).Upholds assume ensure post) :
    (Store.perform action >>= f).Upholds assume ensure post :=
  ⟨allowed, rest⟩

theorem upholds_then {p : Store α} {f : α → Store β}
    (first : p.Upholds assume ensure fun _ => True)
    (rest : ∀ value, (f value).Upholds assume ensure post) :
    (p >>= f).Upholds assume ensure post :=
  first.bind fun value _ => rest value

theorem upholds_raise {outcome : Except String α} {f : α → Store β}
    (rest : ∀ value, outcome = .ok value → (f value).Upholds assume ensure post) :
    (Store.raise outcome >>= f).Upholds assume ensure post := by
  cases outcome with
  | ok value => exact rest value rfl
  | error e => trivial

theorem upholds_orFail {ε : Type} {context : String} {outcome : Except ε α} {f : α → Store β}
    (rest : ∀ value, outcome = .ok value → (f value).Upholds assume ensure post) :
    (Store.orFail context outcome >>= f).Upholds assume ensure post := by
  cases outcome with
  | ok value => exact rest value rfl
  | error e => trivial

theorem upholds_require {context : String} {found : Option α} {f : α → Store β}
    (rest : ∀ value, found = some value → (f value).Upholds assume ensure post) :
    (Store.require context found >>= f).Upholds assume ensure post := by
  cases found with
  | some value => exact rest value rfl
  | none => trivial

variable (calm : ∀ action, ¬ Touches action → ensure action)

include calm

theorem upholds_loadMasterKey :
    (Store.loadMasterKey config).Upholds assume ensure fun _ => True := by
  refine upholds_perform (calm _ not_false) fun found _ => ?_
  cases found with
  | false => trivial
  | true =>
      refine upholds_perform (calm _ not_false) fun tightened _ => upholds_raise fun _ _ => ?_
      refine upholds_perform (calm _ not_false) fun read _ => upholds_orFail fun bytes _ => ?_
      split <;> trivial

theorem upholds_ensureMasterKey :
    (Store.ensureMasterKey config).Upholds assume ensure fun _ => True := by
  refine upholds_perform (calm _ not_false) fun found _ => ?_
  cases found with
  | true => exact upholds_loadMasterKey config calm
  | false =>
      refine upholds_perform (calm _ not_false) fun bytes _ => ?_
      refine upholds_perform (calm _ (by simp [Touches])) fun created _ => ?_
      refine upholds_orFail fun _ _ => upholds_perform (calm _ (by simp [Touches])) fun written _ => ?_
      exact upholds_raise fun _ _ => trivial

theorem upholds_readIdentityText :
    (Store.readIdentityText config).Upholds assume ensure fun _ => True := by
  refine upholds_perform (calm _ not_false) fun read _ => upholds_orFail fun bytes _ => ?_
  unfold Store.orFail
  split <;> trivial

theorem upholds_deriveKek :
    (Store.deriveKek serde config).Upholds assume ensure fun _ => True := by
  unfold Store.deriveKek
  split
  · refine upholds_then ?_ fun salt => ?_
    · refine (upholds_readIdentityText config calm).bind fun text _ => ?_
      refine upholds_require fun raw _ => upholds_require fun saltHex _ => ?_
      unfold Store.require
      split <;> trivial
    · refine upholds_perform (calm _ not_false) fun derived _ => ?_
      unfold Store.raise
      split <;> trivial
  · exact upholds_loadMasterKey config calm

theorem upholds_pickKekAndSalt :
    (Store.pickKekAndSaltForFirstRun config).Upholds assume ensure fun _ => True := by
  unfold Store.pickKekAndSaltForFirstRun
  split
  · refine upholds_perform (calm _ not_false) fun salt _ => ?_
    exact upholds_perform (calm _ not_false) fun derived _ => upholds_raise fun _ _ => trivial
  · exact (upholds_ensureMasterKey config calm).bind fun _ _ => trivial

/-- Only a matching key is sealed, and the identity stays the same otherwise. -/
theorem upholds_sealWithKek (identity : DeviceIdentity) (kek : SecretKey) (salt : Bytes)
    (privateKey : SecretKey) :
    (Store.sealWithKek config identity kek salt privateKey).Upholds assume ensure fun installed =>
      installed.publicKey = identity.publicKey ∧
        config.publicKeyOf privateKey = identity.publicKey := by
  unfold Store.sealWithKek
  split
  · trivial
  case isFalse same =>
    refine upholds_then ?_ fun _ => ⟨rfl, not_not.mp same⟩
    refine upholds_perform (calm _ not_false) fun nonce _ => ?_
    exact upholds_perform (calm _ not_false) fun sealed _ => upholds_raise fun _ _ => trivial

theorem upholds_tightenFiles : Store.tightenFiles.Upholds assume ensure fun _ => True := by
  refine upholds_perform (calm _ not_false) fun tightened _ => upholds_raise fun _ _ => ?_
  refine upholds_perform (calm _ not_false) fun found _ => ?_
  cases found with
  | true => exact upholds_perform (calm _ not_false) fun _ _ => trivial
  | false => trivial

theorem upholds_install {sealFailure : String} {identity : DeviceIdentity} {privateKey : SecretKey}
    (matching : config.publicKeyOf privateKey = identity.publicKey → ∀ action, ensure action) :
    (Store.install serde config sealFailure identity privateKey).Upholds assume ensure
      fun installed => installed.publicKey = identity.publicKey ∧
        config.publicKeyOf privateKey = identity.publicKey := by
  refine (upholds_pickKekAndSalt config calm).bind fun picked _ => ?_
  refine (upholds_sealWithKek config calm identity _ _ privateKey).attempt.bind ?_
  intro attempted post
  cases attempted with
  | error e => trivial
  | ok installed =>
      have written := matching post.2
      refine upholds_then (p := Store.writeIdentityWithMode serde config installed) ?_ fun _ => ?_
      · refine upholds_perform (written _) fun opened _ => upholds_orFail fun _ _ => ?_
        refine upholds_perform (written _) fun stored _ => ?_
        unfold Store.orFail
        split <;> trivial
      · exact (upholds_tightenFiles calm).bind fun _ _ => post

/-- A file is written to by a migration only when its fields make it one of version 1 or 2. -/
theorem upholds_migrate {text : String}
    (version2 : ∀ raw v2, serde.value text = some raw → (raw.get "private_key").isSome →
      serde.v2Of raw = some v2 → config.publicKeyOf v2.privateKey = v2.publicKey →
        ∀ action, ensure action)
    (version1 : ∀ raw v1, serde.value text = some raw → raw.get "private_key" = none →
      serde.v1Of raw = some v1 → ∀ action, ensure action) :
    (Store.migrate serde config text).Upholds assume ensure fun installed =>
      ∃ raw, serde.value text = some raw ∧
        ((∃ v2, (raw.get "private_key").isSome ∧ serde.v2Of raw = some v2 ∧
            config.publicKeyOf v2.privateKey = v2.publicKey ∧
            installed.publicKey = v2.publicKey) ∨
          ∃ v1, raw.get "private_key" = none ∧ serde.v1Of raw = some v1) := by
  refine upholds_require fun raw value => ?_
  split
  case isTrue keyed =>
    refine upholds_require fun v2 read => ?_
    refine (upholds_install serde config calm (version2 raw v2 value keyed read)).mono
      (fun _ _ => id) (fun _ => id) fun installed post => ?_
    exact ⟨raw, value, .inl ⟨v2, keyed, read, post.2, post.1⟩⟩
  case isFalse keyless =>
    have keyless := Option.not_isSome_iff_eq_none.mp keyless
    refine upholds_require fun v1 read => ?_
    have allowed := version1 raw v1 value keyless read
    refine upholds_then ?_ fun fresh => ?_
    · refine upholds_perform (allowed _) fun _ _ => upholds_perform (allowed _) fun _ _ => ?_
      exact upholds_perform (allowed _) fun _ _ => upholds_perform (allowed _) fun _ _ => trivial
    · exact (upholds_install serde config calm fun _ => allowed).mono (fun _ _ => id) (fun _ => id)
        fun _ _ => ⟨raw, value, .inr ⟨v1, keyless, read⟩⟩

omit calm

variable {seen : StoreEvent → Prop}

theorem upholds_decryptEnvelope (calm : ∀ action, ¬ Touches action → ensure action)
    (kek : SecretKey) (envelope : KeyEnvelope) (publicKey : PublicKey) :
    (Store.decryptEnvelope kek envelope publicKey).Upholds (fun a r => seen ⟨a, r⟩) ensure
      fun _ => ∃ event, seen event ∧ Decrypts envelope event := by
  unfold Store.decryptEnvelope
  split
  · trivial
  refine upholds_require fun nonce nonceHex => ?_
  split
  · trivial
  refine upholds_require fun ciphertext ciphertextHex => ?_
  refine upholds_perform (calm _ not_false) fun answer answered => ?_
  refine upholds_raise fun plaintext same => ?_
  split
  · trivial
  · subst same
    exact ⟨_, answered, kek, nonce, ciphertext, publicKey, plaintext, rfl, nonceHex, ciphertextHex⟩

/-- An identity of this version is written only after its envelope was opened. -/
theorem upholds_reload (identity : DeviceIdentity) (displayName : String) :
    (Store.reload serde config identity displayName).Upholds (fun a r => seen ⟨a, r⟩)
      (fun action => Touches action → identity.schemaVersion = identitySchemaVersion ∧
        ∃ event, seen event ∧ Decrypts identity.encryptedPrivateKey event)
      fun loaded => identity.schemaVersion = identitySchemaVersion ∧
        loaded.publicKey = identity.publicKey := by
  have calm : ∀ action, ¬ Touches action → Touches action →
      identity.schemaVersion = identitySchemaVersion ∧
        ∃ event, seen event ∧ Decrypts identity.encryptedPrivateKey event :=
    fun _ untouched touched => absurd touched untouched
  unfold Store.reload
  split
  · trivial
  case isFalse same =>
    have version := not_not.mp same
    have opened : (Store.unlock serde config identity).Upholds (fun a r => seen ⟨a, r⟩) _
        fun _ => ∃ event, seen event ∧ Decrypts identity.encryptedPrivateKey event :=
      (upholds_deriveKek serde config calm).bind fun kek _ =>
        upholds_decryptEnvelope calm kek _ identity.publicKey
    refine opened.bind fun privateKey decrypted => ?_
    split
    · trivial
    have finishes (loaded : DeviceIdentity) (kept : loaded.publicKey = identity.publicKey) :
        (Store.tightenFiles >>= fun _ => pure loaded).Upholds (fun a r => seen ⟨a, r⟩) _
          fun loaded => identity.schemaVersion = identitySchemaVersion ∧
            loaded.publicKey = identity.publicKey :=
      (upholds_tightenFiles calm).bind fun _ _ => And.intro version kept
    dsimp only
    split
    case isFalse => exact finishes identity rfl
    case isTrue =>
      refine Program.Upholds.bind ?_ finishes
      refine (upholds_deriveKek serde config calm).bind fun kek _ => ?_
      refine upholds_require fun salt _ => ?_
      split
      · trivial
      refine (upholds_sealWithKek config calm _ kek salt privateKey).bind fun installed post => ?_
      refine upholds_then (p := Store.writeIdentityWithMode serde config installed) ?_ fun _ => post.1
      refine upholds_perform (fun _ => ⟨version, decrypted⟩) fun _ _ => upholds_orFail fun _ _ => ?_
      refine upholds_perform (fun _ => ⟨version, decrypted⟩) fun _ _ => ?_
      unfold Store.orFail
      split <;> trivial

end Contracts

/-! ## What a file allows -/

variable {serde} {config} {content}

/-- The file may be written to, by its version and by what has been seen. -/
def Allows (serde : Serde) (content : Bytes) (seen : StoreEvent → Prop) : Prop :=
  (∃ identity, identityIn serde content = some identity ∧
      identity.schemaVersion = identitySchemaVersion ∧
      ∃ event, seen event ∧ Decrypts identity.encryptedPrivateKey event) ∨
    IsVersion2 serde content ∨ IsVersion1 serde content

/-- A key that may come from the file. -/
def Yields (serde : Serde) (content : Bytes) (publicKey : PublicKey) : Prop :=
  (IsVersion3 serde content ∧ recordedKey serde content = some publicKey) ∨
    (IsVersion2 serde content ∧ recordedKey serde content = some publicKey) ∨
    IsVersion1 serde content

theorem upholds_loadText (honest : Honest serde config content) {text : String}
    (same : fromUtf8 content = .ok text) (displayName : String) {seen : StoreEvent → Prop} :
    (Store.loadText serde config text displayName).Upholds (fun a r => seen ⟨a, r⟩)
      (fun action => Touches action → Allows serde content seen)
      fun loaded => Yields serde content loaded.publicKey := by
  unfold Store.loadText
  split
  case h_1 identity read =>
    have inside := (identityIn_of_text same).trans read
    refine (upholds_reload serde config identity displayName).mono (fun _ _ => id) ?_ ?_
    · intro action caused touched
      obtain ⟨version, decrypted⟩ := caused touched
      exact .inl ⟨identity, inside, version, decrypted⟩
    · intro loaded post
      refine .inl ⟨⟨identity, inside, post.1⟩, ?_⟩
      rw [recordedKey, inside, post.2]
  case h_2 unread =>
    have raws := rawOf_of_text same unread
    have asVersion2 {raw : Json} {v2 : V2Identity} (value : serde.value text = some raw)
        (keyed : (raw.get "private_key").isSome) (read : serde.v2Of raw = some v2)
        (matching : config.publicKeyOf v2.privateKey = v2.publicKey) :
        IsVersion2 serde content := by
      obtain ⟨version, bare⟩ := honest.version2 raw v2 (raws.trans value) keyed read matching
      exact ⟨raw, v2, raws.trans value, keyed, read, version, bare⟩
    have asVersion1 {raw : Json} {v1 : V1Identity} (value : serde.value text = some raw)
        (keyless : raw.get "private_key" = none) (read : serde.v1Of raw = some v1) :
        IsVersion1 serde content := by
      obtain ⟨version, bare⟩ := honest.version1 raw v1 (raws.trans value) keyless read
      exact ⟨raw, v1, raws.trans value, read, version, keyless, bare⟩
    refine (upholds_migrate serde config (fun _ untouched touched => absurd touched untouched)
      ?_ ?_).mono (fun _ _ => id) (fun _ => id) ?_
    · exact fun raw v2 value keyed read matching _ _ =>
        .inr (.inl (asVersion2 value keyed read matching))
    · exact fun raw v1 value keyless read _ _ => .inr (.inr (asVersion1 value keyless read))
    · rintro installed ⟨raw, value, ⟨v2, keyed, read, matching, kept⟩ | ⟨v1, keyless, read⟩⟩
      · refine .inr (.inl ⟨asVersion2 value keyed read matching, ?_⟩)
        rw [recordedKey_v2 (raws.trans value) keyed read, kept]
      · exact .inr (.inr (asVersion1 value keyless read))

theorem upholds_loadOrCreate (honest : Honest serde config content) (displayName : Option String)
    {seen : StoreEvent → Prop}
    (finds : ∀ event, seen event → Finds content event.action event.answer) :
    (Store.loadOrCreateIdentity serde config displayName).Upholds (fun a r => seen ⟨a, r⟩)
      (fun action => Touches action → Allows serde content seen)
      fun loaded => Yields serde content loaded.publicKey := by
  refine upholds_perform (fun touched => touched.elim) fun made _ => upholds_orFail fun _ _ => ?_
  refine upholds_perform (fun touched => touched.elim) fun found answered => ?_
  obtain rfl : found = true := finds _ answered
  have text : (Store.readIdentityText config).Upholds (fun a r => seen ⟨a, r⟩)
      (fun action => Touches action → Allows serde content seen)
      fun text => fromUtf8 content = .ok text := by
    refine upholds_perform (fun touched => touched.elim) fun read answered => ?_
    refine upholds_orFail fun bytes same => ?_
    obtain rfl : bytes = content := finds _ answered bytes same
    unfold Store.orFail
    split
    case h_1 text decoded => exact decoded
    case h_2 => trivial
  exact text.bind fun text same => upholds_loadText honest same _

theorem Honest.keepsKey (honest : Honest serde config content) {displayName : Option String}
    {events : List StoreEvent} {result : Except String DeviceIdentity}
    (runs : (Store.loadOrCreateIdentity serde config displayName).Runs events result)
    (finds : ∀ event ∈ events, Finds content event.action event.answer) :
    KeepsKey serde content events result := by
  have allowed {before after : List StoreEvent} {event : StoreEvent}
      (split : events = before ++ event :: after) (touched : Touches event.action) :
      Allows serde content fun earlier => earlier ∈ before := by
    have contract (seen : StoreEvent → Prop)
        (kinds : ∀ event, seen event → Finds content event.action event.answer) :
        (Store.loadOrCreateIdentity serde config displayName).Upholds (fun a r => seen ⟨a, r⟩)
          (fun action => Touches action → Allows serde content seen) fun _ => True :=
      (upholds_loadOrCreate honest displayName kinds).mono (fun _ _ => id) (fun _ => id)
        fun _ _ => trivial
    exact runs.caused finds contract split touched
  have yields : ∀ loaded, result = .ok loaded → Yields serde content loaded.publicKey :=
    (runs.upholds (upholds_loadOrCreate honest displayName finds) fun event member => member).2
  refine ⟨?_, ?_, ?_⟩
  · intro identity recorded returned records other
    obtain ⟨-, records'⟩ | ⟨-, records'⟩ | version := yields identity returned
    · exact absurd (Option.some.inj (records'.symm.trans records)) other
    · exact absurd (Option.some.inj (records'.symm.trans records)) other
    · exact version
  · intro has before event after split touched
    obtain ⟨identity, inside, -, decrypted⟩ | version | version := allowed split touched
    · refine .inl ⟨identity.encryptedPrivateKey, ?_, decrypted⟩
      rw [recordedEnvelope, inside]
    · obtain ⟨raw, v2, raws, -, -, -, bare⟩ := version
      rw [HasEnvelope, identityIn_of_rawOf raws, raws] at has
      change _ ∨ (raw.get "encrypted_private_key").isSome at has
      rw [bare] at has
      simp at has
    · exact .inr version
  · intro not1 not2 not3
    have untouched : ∀ event ∈ events, ¬ Touches event.action := by
      intro event member touched
      obtain ⟨before, after, split⟩ := List.append_of_mem member
      obtain ⟨identity, inside, version, -⟩ | version | version := allowed split touched
      · exact not3 ⟨identity, inside, version⟩
      · exact not2 version
      · exact not1 version
    refine ⟨?_, untouched⟩
    cases result with
    | error e => exact ⟨e, rfl⟩
    | ok loaded =>
        obtain ⟨version, -⟩ | ⟨version, -⟩ | version := yields loaded rfl
        · exact absurd version not3
        · exact absurd version not2
        · exact absurd version not1

/-! ## Runs of a migration -/

section Migrating

variable {action : StoreAction} {α : Type}

theorem mayReturn_perform {f : storeSignature.Answer action → Store α} {value : α}
    (answer : storeSignature.Answer action) (answered : Finds content action answer)
    (rest : (f answer).MayReturn (Finds content) value) :
    (Store.perform action >>= f).MayReturn (Finds content) value :=
  .act answer answered rest

variable (serde) (config) (content)

theorem pickKekAndSalt_mayReturn :
    ∃ picked, (Store.pickKekAndSaltForFirstRun config).MayReturn (Finds content) picked := by
  unfold Store.pickKekAndSaltForFirstRun
  split
  · refine ⟨(0, []), ?_⟩
    exact mayReturn_perform [] trivial
      (mayReturn_perform (.ok 0) trivial (Program.mayReturn_done _))
  · refine ⟨(keyOfBytes [], List.replicate 16 0), ?_⟩
    have created : (Store.ensureMasterKey config).MayReturn (Finds content) (keyOfBytes []) :=
      mayReturn_perform false trivial (mayReturn_perform [] trivial
        (mayReturn_perform (.ok ()) trivial (mayReturn_perform (.ok ()) trivial
          (Program.mayReturn_done _))))
    exact created.bind (Program.mayReturn_done _)

theorem install_mayReturn (sealFailure : String) (identity : DeviceIdentity)
    (privateKey : SecretKey) (matching : config.publicKeyOf privateKey = identity.publicKey) :
    ∃ installed, (Store.install serde config sealFailure identity privateKey).MayReturn
      (Finds content) installed := by
  obtain ⟨⟨kek, salt⟩, picked⟩ := pickKekAndSalt_mayReturn config content
  have sealed : ∃ installed, (Store.sealWithKek config identity kek salt privateKey).MayReturn
      (Finds content) installed := by
    unfold Store.sealWithKek
    rw [if_neg (not_not.mpr matching)]
    exact ⟨_, mayReturn_perform [] trivial
      (mayReturn_perform (.ok []) trivial (Program.mayReturn_done _))⟩
  obtain ⟨installed, sealed⟩ := sealed
  refine ⟨installed, picked.bind (sealed.attempt.bind ?_)⟩
  exact mayReturn_perform (.ok ()) trivial (mayReturn_perform (.ok ()) trivial
    (mayReturn_perform (.ok ()) trivial
      (mayReturn_perform false trivial (Program.mayReturn_done _))))

/-- A call returns what a migration returns. -/
theorem loadOrCreate_mayReturn (displayName : Option String) {text : String}
    {migrated : DeviceIdentity} (same : fromUtf8 content = .ok text)
    (unread : serde.identity text = none)
    (migrates : (Store.migrate serde config text).MayReturn (Finds content) migrated) :
    (Store.loadOrCreateIdentity serde config displayName).MayReturn (Finds content) migrated := by
  have loads (name : String) :
      (Store.loadText serde config text name).MayReturn (Finds content) migrated := by
    unfold Store.loadText
    rw [unread]
    exact migrates
  have reads : (Store.readIdentityText config).MayReturn (Finds content) text := by
    refine mayReturn_perform (.ok content) (fun bytes same => (Except.ok.inj same).symm) ?_
    change (Store.orFail _ (fromUtf8 content)).MayReturn (Finds content) text
    rw [same]
    exact Program.mayReturn_done text
  exact mayReturn_perform (.ok ()) trivial (mayReturn_perform true rfl (reads.bind (loads _)))

theorem migrateV2_mayReturn {text : String} {raw : Json} {v2 : V2Identity}
    (value : serde.value text = some raw) (keyed : (raw.get "private_key").isSome)
    (read : serde.v2Of raw = some v2)
    (matching : config.publicKeyOf v2.privateKey = v2.publicKey) :
    ∃ migrated, (Store.migrate serde config text).MayReturn (Finds content) migrated := by
  have installs : ∃ migrated, (Store.migrateV2 serde config v2).MayReturn (Finds content)
      migrated :=
    install_mayReturn serde config content "" ⟨_, _, _, _, _, v2.publicKey, _⟩ v2.privateKey matching
  obtain ⟨migrated, installs⟩ := installs
  refine ⟨migrated, ?_⟩
  unfold Store.migrate
  rw [value]
  change (if (raw.get "private_key").isSome then _ else _ : Store DeviceIdentity).MayReturn _ _
  rw [if_pos keyed, read]
  exact installs

theorem migrateV1_mayReturn {text : String} {raw : Json} {v1 : V1Identity}
    (value : serde.value text = some raw) (keyless : raw.get "private_key" = none)
    (read : serde.v1Of raw = some v1) :
    ∃ migrated, (Store.migrate serde config text).MayReturn (Finds content) migrated := by
  have installs : ∃ migrated, (Store.migrateV1 serde config v1).MayReturn (Finds content)
      migrated := by
    obtain ⟨migrated, installs⟩ := install_mayReturn serde config content ""
      ⟨identitySchemaVersion, v1.deviceId, v1.hostPeerId, v1.clientPeerId, v1.displayName,
        config.publicKeyOf 0, .emptyPlaceholder⟩ 0 rfl
    exact ⟨migrated, mayReturn_perform 0 trivial (mayReturn_perform 0 trivial
      (mayReturn_perform 0 trivial (mayReturn_perform 0 trivial installs)))⟩
  obtain ⟨migrated, installs⟩ := installs
  refine ⟨migrated, ?_⟩
  unfold Store.migrate
  rw [value]
  change (if (raw.get "private_key").isSome then _ else _ : Store DeviceIdentity).MayReturn _ _
  rw [if_neg (Option.not_isSome_iff_eq_none.mpr keyless), read]
  exact installs

end Migrating

/-- A migration is owed to a file of version 1 or 2. -/
theorem honest_of_keepsKey {displayName : Option String}
    (keeps : ∀ events result,
      (Store.loadOrCreateIdentity serde config displayName).Runs events result →
      (∀ event ∈ events, Finds content event.action event.answer) →
        KeepsKey serde content events result) : Honest serde config content := by
  have versioned {text : String} {migrated : DeviceIdentity}
      (same : fromUtf8 content = .ok text) (unread : serde.identity text = none)
      (migrates : (Store.migrate serde config text).MayReturn (Finds content) migrated) :
      IsVersion1 serde content ∨ IsVersion2 serde content := by
    obtain ⟨events, runs, finds⟩ :=
      loadOrCreate_mayReturn serde config content displayName same unread migrates
    by_contra neither
    obtain ⟨not1, not2⟩ := not_or.mp neither
    have not3 : ¬ IsVersion3 serde content := by
      rintro ⟨identity, inside, -⟩
      rw [identityIn_of_text same, unread] at inside
      cases inside
    obtain ⟨⟨e, failed⟩, -⟩ := (keeps events _ runs finds).other not1 not2 not3
    cases failed
  constructor
  · intro raw v2 raws keyed read matching
    obtain ⟨text, same, unread, value⟩ := rawOf_eq_some.mp raws
    obtain ⟨migrated, migrates⟩ :=
      migrateV2_mayReturn serde config content value keyed read matching
    obtain version | version := versioned same unread migrates
    · obtain ⟨_, _, raws', -, -, keyless, -⟩ := version
      obtain rfl := Option.some.inj (raws'.symm.trans raws)
      rw [keyless] at keyed
      cases keyed
    · obtain ⟨_, _, raws', -, read', version, bare⟩ := version
      obtain rfl := Option.some.inj (raws'.symm.trans raws)
      obtain rfl := Option.some.inj (read'.symm.trans read)
      exact ⟨version, bare⟩
  · intro raw v1 raws keyless read
    obtain ⟨text, same, unread, value⟩ := rawOf_eq_some.mp raws
    obtain ⟨migrated, migrates⟩ := migrateV1_mayReturn serde config content value keyless read
    obtain version | version := versioned same unread migrates
    · obtain ⟨_, _, raws', read', version, -, bare⟩ := version
      obtain rfl := Option.some.inj (raws'.symm.trans raws)
      obtain rfl := Option.some.inj (read'.symm.trans read)
      exact ⟨version, bare⟩
    · obtain ⟨_, _, raws', keyed, -⟩ := version
      obtain rfl := Option.some.inj (raws'.symm.trans raws)
      rw [keyless] at keyed
      cases keyed

/-- A call keeps the key of a file exactly when the file is of the version that its fields make
it look like. -/
theorem keepsKey_iff_honest (serde : Serde) (config : StoreConfig) (content : Bytes)
    (displayName : Option String) :
    (∀ events result,
        (Store.loadOrCreateIdentity serde config displayName).Runs events result →
        (∀ event ∈ events, Finds content event.action event.answer) →
          KeepsKey serde content events result) ↔
      Honest serde config content := by
  constructor
  · intro keeps
    exact honest_of_keepsKey keeps
  · intro honest events result runs finds
    exact honest.keepsKey runs finds

namespace Sample

/-- An identity of version 3 whose public key is written in hexadecimal digits. -/
def hexKeyed : Json :=
  .object [("schema_version", .natural 3), ("device_id", .string (Uuid.toText 1)),
    ("host_peer_id", .string (Uuid.toText 2)), ("client_peer_id", .string (Uuid.toText 3)),
    ("display_name", .string "desk"), ("public_key", .string "d75a980182b10ab7"),
    ("encrypted_private_key", .object [("tag", .string atRestAeadTag),
      ("salt_hex", .string "00000000000000000000000000000000"),
      ("nonce_hex", .string "000102030405060708090a0b"),
      ("ciphertext_hex", .string "5f"), ("aad_pk_sha256_hex", .string "21")])]

def hexKeyedText : String :=
  s!"\x7b\"schema_version\":3,\"device_id\":\"{Uuid.toText 1}\",\"host_peer_id\":\"{Uuid.toText 2}\"," ++
    s!"\"client_peer_id\":\"{Uuid.toText 3}\",\"display_name\":\"desk\"," ++
    s!"\"public_key\":\"d75a980182b10ab7\",\"encrypted_private_key\":\x7b\"tag\":\"{atRestAeadTag}\"," ++
    s!"\"salt_hex\":\"00000000000000000000000000000000\",\"nonce_hex\":\"000102030405060708090a0b\"," ++
    s!"\"ciphertext_hex\":\"5f\",\"aad_pk_sha256_hex\":\"21\"\x7d\x7d"

/-- `to_string_pretty`, for texts without characters to escape. -/
def prettyIdentity (identity : DeviceIdentity) : String :=
  let member (indent name text : String) := s!"{indent}\"{name}\": \"{text}\""
  let bytes := (keyBytes identity.publicKey).map fun byte => s!"    {byte.toNat}"
  let envelope := identity.encryptedPrivateKey
  ",\n".intercalate [s!"\x7b\n  \"schema_version\": {identity.schemaVersion}",
    member "  " "device_id" identity.deviceId.toText,
    member "  " "host_peer_id" identity.hostPeerId.toText,
    member "  " "client_peer_id" identity.clientPeerId.toText,
    member "  " "display_name" identity.displayName,
    "  \"public_key\": [\n" ++ ",\n".intercalate bytes ++ "\n  ]",
    "  \"encrypted_private_key\": \x7b\n" ++ member "    " "tag" envelope.tag,
    member "    " "salt_hex" envelope.saltHex, member "    " "nonce_hex" envelope.nonceHex,
    member "    " "ciphertext_hex" envelope.ciphertextHex,
    member "    " "aad_pk_sha256_hex" envelope.aadPkSha256Hex] ++ "\n  \x7d\n\x7d"

/-- The parsers on this text and on its ids. -/
def hexKeyedSerde : Serde where
  document text := if text = hexKeyedText then some hexKeyed else none
  parseUuid text := ([1, 2, 3] : List Uuid).find? fun id => id.toText = text
  pretty := prettyIdentity
  refusal _ := "invalid type: string, expected an array of length 32 at line 1 column 228"

/-- A device without a passphrase. -/
def device : StoreConfig where
  passphrase := none
  defaultDeviceName := "unnamed-device"
  path := "/home/kim/.config/qubox/identity.json"
  directory := "/home/kim/.config/qubox"
  masterKeyPath := "/home/kim/.config/qubox/identity.key"
  publicKeyOf key := key
  sha256 _ := 0

theorem rawOf_hexKeyed : rawOf hexKeyedSerde (utf8 hexKeyedText) = some hexKeyed := by
  have document : hexKeyedSerde.document hexKeyedText = some hexKeyed := by
    simp only [hexKeyedSerde, ↓reduceIte]
  refine rawOf_eq_some.mpr ⟨hexKeyedText, fromUtf8_utf8 hexKeyedText, ?_, ?_⟩
  · rw [Serde.identity, document]
    rfl
  · rw [Serde.value, document]
    rfl

/-- The malformed identity is taken for one of version 1 and gets a new key. -/
theorem hexKeyed_loses_key :
    ¬ ∀ events result,
      (Store.loadOrCreateIdentity hexKeyedSerde device none).Runs events result →
      (∀ event ∈ events, Finds (utf8 hexKeyedText) event.action event.answer) →
        KeepsKey hexKeyedSerde (utf8 hexKeyedText) events result := by
  intro keeps
  have read : hexKeyedSerde.v1Of hexKeyed = some ⟨3, 1, 2, 3, "desk"⟩ := by rfl
  obtain ⟨version, -⟩ := (honest_of_keepsKey keeps).version1 hexKeyed _ rawOf_hexKeyed rfl read
  exact absurd version (by decide)

end Sample

end Qubox.Identity
