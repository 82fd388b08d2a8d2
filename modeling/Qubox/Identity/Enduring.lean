import Qubox.Identity.Sharing

/-!
# The calls among other processes

Each part of a call keeps to what the processes of a device agree on, whatever the others do
between its actions. A part fails only when it does not run alone.
-/

namespace Qubox.Identity

open FileSync (utf8 fromUtf8 fromUtf8_utf8)
open Interaction
open Update (hexEncode)

variable {device : Device} {lawful : device.Lawful} {alone : Bool} {φ : StorePhase} {t : Ledger}
  {α β : Type} {post : β → StorePhase → Ledger → Prop}

/-- What a part of a call ends with. -/
def Ends (alone : Bool) (post : α → StorePhase → Ledger → Prop) :
    Except String α → StorePhase → Ledger → Prop
  | .ok value => post value
  | .error _ => fun _ _ => alone = false

variable (lawful) (alone) in
/-- A part of a call may act now, and keeps to the agreement up to its end. -/
def Proceeds (post : α → StorePhase → Ledger → Prop) (p : Store α) (φ : StorePhase) (t : Ledger) :
    Prop :=
  (device.regime lawful alone).Now (Ends alone post) p φ t

variable (device) (alone) in
/-- A state that a process may find after `t`. -/
structure Later (φ : StorePhase) (t t' : Ledger) : Prop where
  inv : device.Inv alone φ t'
  keeps : t.Keeps t'

/-! ## Rules -/

namespace Proceeds

theorem bind {mid : α → StorePhase → Ledger → Prop} {p : Store α} {f : α → Store β}
    (inv : device.Inv alone φ t) (first : Proceeds lawful alone mid p φ t)
    (rest : ∀ value φ' t', Later device alone φ' t t' → mid value φ' t' →
      Proceeds lawful alone post (f value) φ' t') :
    Proceeds lawful alone post (p >>= f) φ t := by
  refine Regime.Now.bind (Regime.Now.later first inv) ?_ fun e φ' t' ended => ended.1
  rintro value φ' t' ⟨ended, later⟩
  exact rest value φ' t' ⟨later.inv, later.rely⟩ ended

theorem imp {mid : β → StorePhase → Ledger → Prop} {p : Store β}
    (h : Proceeds lawful alone mid p φ t)
    (weaker : ∀ value φ' t', mid value φ' t' → post value φ' t') :
    Proceeds lawful alone post p φ t := by
  refine Regime.Now.imp h ?_
  rintro (e | value) φ' t' ended
  · exact ended
  · exact weaker value φ' t' ended

theorem imp_later {mid : β → StorePhase → Ledger → Prop} {p : Store β}
    (inv : device.Inv alone φ t) (h : Proceeds lawful alone mid p φ t)
    (weaker : ∀ value φ' t', Later device alone φ' t t' → mid value φ' t' → post value φ' t') :
    Proceeds lawful alone post p φ t := by
  refine Regime.Now.imp (Regime.Now.later h inv) ?_
  rintro (e | value) φ' t' ⟨ended, later⟩
  · exact ended
  · exact weaker value φ' t' ⟨later.inv, later.rely⟩ ended

theorem attempt_bind {mid : α → StorePhase → Ledger → Prop} {p : Store α}
    {f : Except String α → Store β} (inv : device.Inv alone φ t)
    (first : Proceeds lawful alone mid p φ t)
    (rest : ∀ value φ' t', Later device alone φ' t t' → mid value φ' t' →
      Proceeds lawful alone post (f (.ok value)) φ' t')
    (fails : ∀ e φ' t', alone = false → Proceeds lawful alone post (f (.error e)) φ' t') :
    Proceeds lawful alone post (p.attempt >>= f) φ t := by
  have attempted : (device.regime lawful alone).Now
      (fun (r : Except String (Except String α)) φ' t' => ∃ ended, r = .ok ended ∧
        Ends alone mid ended φ' t' ∧ (device.regime lawful alone).Later φ' t t') p.attempt φ t :=
    Regime.Now.attempt ((Regime.Now.later first inv).imp fun r φ' t' ended => ⟨r, rfl, ended⟩)
  refine Regime.Now.bind attempted ?_ ?_
  · rintro (e | value) φ' t' ⟨ended, same, holds, later⟩
    · obtain rfl := Except.ok.inj same
      exact fails e φ' t' holds
    · obtain rfl := Except.ok.inj same
      exact rest value φ' t' ⟨later.inv, later.rely⟩ holds
  · rintro e φ' t' ⟨ended, same, -⟩
    cases same

/-- An action that leaves the files alone. The identity file is read elsewhere. -/
def Calm : StoreAction → Prop
  | .read .identity => False
  | action => action.Quiet

theorem calm {action : StoreAction} {f : storeSignature.Answer action → Store β}
    (calm : Calm action)
    (rest : ∀ t', Later device alone φ t t' →
      Proceeds lawful alone post (f (device.machine.exec action t.home).1) φ t') :
    Proceeds lawful alone post (Store.perform action >>= f) φ t := by
  intro _
  have quiet : action.Quiet := by
    cases action with
    | read file => trivial
    | _ => exact calm
  have owed : device.Owes alone φ action t := by
    cases action with
    | createNew _ | truncate _ | write _ _ => exact quiet.elim
    | _ => trivial
  have after (answer : storeSignature.Answer action) : φ.after ⟨action, answer⟩ = φ := by
    cases action with
    | read file =>
        cases file with
        | identity => exact calm.elim
        | masterKey => rfl
    | createNew _ | truncate _ | write _ _ => exact quiet.elim
    | _ => rfl
  refine ⟨owed, fun t' later => ?_⟩
  have phase : (device.regime lawful alone).next φ action t = φ := after _
  have same : (device.regime lawful alone).exec φ action t = t := Device.perform_quiet quiet
  rw [phase, same] at later
  rw [phase]
  exact rest t' ⟨later.inv, later.rely⟩

theorem raise {outcome : Except String α} {f : α → Store β}
    (rest : ∀ value, outcome = .ok value → Proceeds lawful alone post (f value) φ t)
    (fails : ∀ e, outcome = .error e → alone = false) :
    Proceeds lawful alone post (Store.raise outcome >>= f) φ t := by
  cases outcome with
  | ok value => exact rest value rfl
  | error e => exact fails e rfl

theorem orFail {ε : Type} {context : String} {outcome : Except ε α} {f : α → Store β}
    (rest : ∀ value, outcome = .ok value → Proceeds lawful alone post (f value) φ t)
    (fails : ∀ e, outcome = .error e → alone = false) :
    Proceeds lawful alone post (Store.orFail context outcome >>= f) φ t := by
  cases outcome with
  | ok value => exact rest value rfl
  | error e => exact fails e rfl

theorem require {context : String} {found : Option α} {f : α → Store β}
    (rest : ∀ value, found = some value → Proceeds lawful alone post (f value) φ t)
    (fails : found = none → alone = false) :
    Proceeds lawful alone post (Store.require context found >>= f) φ t := by
  cases found with
  | some value => exact rest value rfl
  | none => exact fails rfl

end Proceeds

theorem closed_opened {file : StoreFile} (idle : φ.window = none) : (φ.opened file).closed = φ := by
  cases φ
  cases idle
  rfl

theorem seen_of_read (read : φ.read = true) : φ.seen = φ := by
  cases φ
  cases read
  rfl

/-! ## Answers -/

section Answers

variable {file : StoreFile} {home : Home}

theorem read_eq_ok {bytes : Bytes} (read : (device.machine.exec (.read file) home).1 = .ok bytes) :
    home.content file = some bytes := by
  dsimp only at read
  cases there : home.content file with
  | some old =>
      rw [there] at read
      exact congrArg some (Except.ok.inj read)
  | none =>
      rw [there] at read
      cases read

theorem read_eq_error {e : String} (read : (device.machine.exec (.read file) home).1 = .error e) :
    home.content file = none := by
  dsimp only at read
  cases there : home.content file with
  | some old =>
      rw [there] at read
      cases read
  | none => rfl

theorem tighten_eq_error {e : String}
    (tightened : (device.machine.exec (.tighten file) home).1 = .error e) :
    home.content file = none := by
  dsimp only at tightened
  cases there : home.content file with
  | some old =>
      rw [there] at tightened
      cases tightened
  | none => rfl

end Answers

/-! ## The key-encrypting key -/

section Key

variable {name : String}

theorem loadMasterKey_proceeds (known : alone = true → ∃ kek, IsMasterKey t.home.masterKey kek) :
    Proceeds lawful alone (fun kek φ' t' => φ' = φ ∧ IsMasterKey t'.home.masterKey kek)
      (Store.loadMasterKey (device.configFor name)) φ t := by
  have there {t' : Ledger} (kept : t.Keeps t') (missing : t'.home.masterKey = none) :
      alone = false := by
    refine Bool.eq_false_iff.mpr fun solo => ?_
    obtain ⟨kek, key⟩ := known solo
    obtain ⟨bytes, there, -⟩ := key.later kept.masterKey
    rw [missing] at there
    cases there
  refine .calm trivial fun t₁ later₁ => ?_
  split
  case isTrue absent =>
    refine there (.refl t) ?_
    simpa [Home.content] using absent
  refine .calm trivial fun t₂ later₂ => .raise (fun _ _ => ?_) fun e failed =>
    there later₁.keeps (tighten_eq_error failed)
  have kept₂ := later₁.keeps.trans later₂.keeps
  refine .calm trivial fun t₃ later₃ => .orFail (fun bytes read => ?_) fun e failed =>
    there kept₂ (read_eq_error failed)
  have content : t₂.home.masterKey = some bytes := read_eq_ok read
  split
  case isTrue wrong =>
    refine Bool.eq_false_iff.mpr fun solo => wrong ?_
    obtain ⟨kek, key⟩ := known solo
    obtain ⟨old, here, long, -⟩ := key.later kept₂.masterKey
    obtain rfl := Option.some.inj (content.symm.trans here)
    exact long
  case isFalse long =>
    refine ⟨rfl, bytes, later₃.keeps.masterKey bytes content ?_, not_not.mp long, rfl⟩
    rintro rfl
    exact long (by simp at long)

theorem createNew_proceeds {f : Except String Unit → Store β} (idle : φ.window = none)
    (created : ∀ t', device.Inv alone (φ.opened .masterKey) t' →
      Proceeds lawful alone post (f (.ok ())) (φ.opened .masterKey) t')
    (there : ∀ e t', Proceeds lawful alone post (f (.error e)) φ t') :
    Proceeds lawful alone post (Store.perform (.createNew .masterKey) >>= f) φ t := by
  refine fun _ => ⟨idle, fun t' later => ?_⟩
  change (device.regime lawful alone).Now _
    (f (device.machine.exec (.createNew .masterKey) t.home).1)
    (φ.after ⟨.createNew .masterKey, (device.machine.exec (.createNew .masterKey) t.home).1⟩) t'
  have inv : device.Inv alone (φ.after
      ⟨.createNew .masterKey, (device.machine.exec (.createNew .masterKey) t.home).1⟩) t' := later.inv
  cases answer : (device.machine.exec (.createNew .masterKey) t.home).1 with
  | ok done =>
      rw [answer] at inv
      exact created t' inv
  | error e => exact there e t'

theorem writeKey_proceeds {bytes : Bytes} {f : Except String Unit → Store β}
    (inv : device.Inv alone φ t) (opened : φ.window = some .masterKey) (full : bytes ≠ [])
    (rest : ∀ t', t'.home.masterKey = some bytes →
      Proceeds lawful alone post (f (.ok ())) φ.closed t') :
    Proceeds lawful alone post (Store.perform (.write .masterKey bytes) >>= f) φ t := by
  refine fun _ => ⟨⟨opened, full⟩, fun t' later => rest t' (later.rely.masterKey bytes ?_ full)⟩
  change some (overwrite bytes (t.home.masterKey.getD [])) = some bytes
  rw [inv.2.masterKey opened]
  simp [overwrite]

theorem ensureMasterKey_proceeds (together : alone = false) (idle : φ.window = none) :
    Proceeds lawful alone (fun kek φ' t' => φ' = φ ∧ IsMasterKey t'.home.masterKey kek)
      (Store.ensureMasterKey (device.configFor name)) φ t := by
  refine .calm trivial fun t₁ later₁ => ?_
  split
  · exact loadMasterKey_proceeds fun solo => by simp [together] at solo
  refine .calm trivial fun t₂ later₂ => ?_
  have long : (t₁.home.chance.bytes 32).1.length = 32 := (t₁.home.chance.bytes 32).2
  have full : (t₁.home.chance.bytes 32).1 ≠ [] := List.ne_nil_of_length_pos (by omega)
  refine createNew_proceeds idle (fun t₃ inv₃ => ?_) fun e t₃ => together
  refine writeKey_proceeds inv₃ rfl full fun t₄ content => ?_
  rw [closed_opened idle]
  exact ⟨rfl, _, content, long, rfl⟩

/-- What is read is an identity of the device, or nothing while it is being written. -/
theorem readIdentityText_proceeds (inv : device.Inv alone φ t) (idle : φ.window = none) :
    Proceeds lawful alone (fun text φ' t' => φ' = φ.seen ∧
        ((∃ identity, text = device.serde.pretty identity ∧ device.Belongs t' identity) ∨
          (text = "" ∧ alone = false)))
      (Store.readIdentityText (device.configFor name)) φ t := by
  obtain ⟨orderly, fits⟩ := inv
  refine fun _ => ⟨trivial, fun t' later => ?_⟩
  have same : device.perform φ (.read .identity) t = t := by
    apply Device.perform_quiet
    trivial
  have kept : t.Keeps t' := same ▸ later.rely
  have absent {e : String}
      (failed : (device.machine.exec (.read .identity) t.home).1 = .error e) : alone = false := by
    refine Bool.eq_false_iff.mpr fun solo => (fits.alone solo).held ?_
    exact orderly.absent (read_eq_error failed)
  have found {bytes : Bytes} (there : t.home.identity = some bytes) :
      ∃ text, fromUtf8 bytes = .ok text ∧
        ((∃ identity, text = device.serde.pretty identity ∧ device.Belongs t' identity) ∨
          (text = "" ∧ alone = false)) := by
    by_cases empty : bytes = []
    case pos =>
      subst empty
      refine ⟨"", fromUtf8_utf8 "", .inr ⟨rfl, Bool.eq_false_iff.mpr fun solo => ?_⟩⟩
      exact (fits.alone solo).whole (by simp [idle]) there
    case neg =>
      obtain ⟨identity, held, rfl⟩ := orderly.whole bytes there empty
      have belongs : device.Belongs t identity := ⟨orderly.opens identity held, identity, held, rfl⟩
      exact ⟨_, fromUtf8_utf8 _, .inl ⟨identity, rfl, belongs.later kept⟩⟩
  change Proceeds lawful alone _
    (Store.orFail _ (device.machine.exec (.read .identity) t.home).1 >>= fun bytes =>
      Store.orFail _ (fromUtf8 bytes)) φ.seen t'
  refine .orFail (fun bytes read => ?_) fun e failed => absent failed
  obtain ⟨text, decoded, known⟩ := found (read_eq_ok read)
  rw [decoded]
  exact ⟨rfl, known⟩

/-- The salt that is read from the file is the salt of the identity. -/
theorem readEnvelopeSalt_proceeds {identity : DeviceIdentity} (inv : device.Inv alone φ t)
    (idle : φ.window = none) (belongs : device.Belongs t identity) :
    Proceeds lawful alone (fun salt φ' _ => φ' = φ.seen ∧
        identity.encryptedPrivateKey.saltHex = hexEncode salt)
      (Store.readEnvelopeSalt device.serde (device.configFor name)) φ t := by
  refine .bind inv (readIdentityText_proceeds inv idle) ?_
  rintro text φ₁ t₁ later₁ ⟨rfl, ⟨other, rfl, belongs'⟩ | ⟨rfl, together⟩⟩
  case inr =>
    have unread : device.serde.value "" = none := by
      rw [Serde.value, lawful.document_empty]
      rfl
    rw [unread]
    exact together
  have salt : other.encryptedPrivateKey.saltHex = identity.encryptedPrivateKey.saltHex :=
    congrArg (·.2.2.2.2) (belongs'.core_eq (belongs.later later₁.keeps))
  obtain ⟨bytes, _, _, _, _, saltHex, -⟩ := belongs.1.opens
  rw [lawful.value_pretty]
  refine .require (fun raw value => ?_) fun unread => by cases unread
  obtain rfl := Option.some.inj value
  refine .require (fun text found => ?_) fun unread => by cases unread
  obtain rfl : other.encryptedPrivateKey.saltHex = text := Option.some.inj found
  rw [salt, saltHex, hexDecode_hexEncode]
  exact ⟨rfl, rfl⟩

theorem kek_of_passphrase {passphrase : String} {masterKey : Option Bytes} {salt : Bytes}
    {kek : SecretKey} (mode : device.config.passphrase = some passphrase) :
    device.Kek masterKey salt kek ↔ device.derive passphrase salt = .ok kek := by
  rw [Device.Kek, mode]

theorem kek_of_masterKey {masterKey : Option Bytes} {salt : Bytes} {kek : SecretKey}
    (mode : device.config.passphrase = none) :
    device.Kek masterKey salt kek ↔ IsMasterKey masterKey kek := by
  rw [Device.Kek, mode]

theorem hexEncode_inj {first second : Bytes} (same : hexEncode first = hexEncode second) :
    first = second := by
  have decoded := congrArg hexDecode same
  rw [hexDecode_hexEncode, hexDecode_hexEncode] at decoded
  exact Option.some.inj decoded

/-- The key of the envelope of an identity is derived, from the passphrase or the master key. -/
theorem deriveKek_proceeds {identity : DeviceIdentity} (inv : device.Inv alone φ t)
    (idle : φ.window = none) (belongs : device.Belongs t identity) :
    Proceeds lawful alone (fun kek φ' t' => (φ' = φ ∨ φ' = φ.seen) ∧
        ∃ salt, identity.encryptedPrivateKey.saltHex = hexEncode salt ∧
          device.Kek t'.home.masterKey salt kek)
      (Store.deriveKek device.serde (device.configFor name)) φ t := by
  obtain ⟨salt, _, _, kek, _, saltHex, -, -, -, -, key, -⟩ := belongs.1.opens
  unfold Store.deriveKek
  split
  case h_1 passphrase mode =>
    refine .bind inv (readEnvelopeSalt_proceeds inv idle belongs) ?_
    rintro salt' φ₁ t₁ later₁ ⟨rfl, saltHex'⟩
    obtain rfl := hexEncode_inj (saltHex.symm.trans saltHex')
    have derived := (kek_of_passphrase mode).mp key
    refine .calm trivial fun t₂ later₂ => ?_
    change Proceeds lawful alone _ (Store.raise (device.derive passphrase salt)) φ.seen t₂
    rw [derived]
    exact ⟨.inr rfl, salt, saltHex, (kek_of_passphrase mode).mpr derived⟩
  case h_2 mode =>
    have known := (kek_of_masterKey mode).mp key
    refine (loadMasterKey_proceeds fun _ => ⟨kek, known⟩).imp ?_
    rintro kek' φ' t' ⟨rfl, found⟩
    exact ⟨.inl rfl, salt, saltHex, (kek_of_masterKey mode).mpr found⟩

theorem kek_unique {masterKey : Option Bytes} {salt : Bytes} {first second : SecretKey}
    (one : device.Kek masterKey salt first) (other : device.Kek masterKey salt second) :
    first = second := by
  cases mode : device.config.passphrase with
  | some passphrase =>
      have derived := ((kek_of_passphrase mode).mp one).symm.trans ((kek_of_passphrase mode).mp other)
      exact Except.ok.inj derived
  | none =>
      obtain ⟨bytes, there, -, rfl⟩ := (kek_of_masterKey mode).mp one
      obtain ⟨bytes', there', -, rfl⟩ := (kek_of_masterKey mode).mp other
      rw [Option.some.inj (there.symm.trans there')]

end Key

/-! ## The envelope -/

section Envelope

variable {name : String} {identity : DeviceIdentity} {kek : SecretKey} {salt : Bytes}

theorem decryptEnvelope_proceeds (opens : device.Sealed t.home.masterKey identity)
    (saltHex : identity.encryptedPrivateKey.saltHex = hexEncode salt)
    (key : device.Kek t.home.masterKey salt kek) :
    Proceeds lawful alone (fun privateKey φ' _ => φ' = φ ∧
        device.config.publicKeyOf privateKey = identity.publicKey)
      (Store.decryptEnvelope kek identity.encryptedPrivateKey identity.publicKey) φ t := by
  obtain ⟨salt', nonce, ciphertext, kek', privateKey, saltHex', -, nonceHex, long, sealedHex, key',
    decrypted, own⟩ := opens.opens
  obtain rfl := hexEncode_inj (saltHex.symm.trans saltHex')
  obtain rfl := kek_unique key key'
  unfold Store.decryptEnvelope
  rw [if_neg (not_not.mpr opens.tag), nonceHex, sealedHex, hexDecode_hexEncode, hexDecode_hexEncode]
  refine .require (fun bytes found => ?_) fun missing => by cases missing
  obtain rfl := Option.some.inj found
  rw [if_neg (not_not.mpr long)]
  refine .require (fun bytes found => ?_) fun missing => by cases missing
  obtain rfl := Option.some.inj found
  refine .calm trivial fun t₁ later₁ => ?_
  change Proceeds lawful alone _
    (Store.raise (device.decrypt kek nonce ciphertext identity.publicKey) >>= _) φ t₁
  rw [decrypted]
  refine .raise (fun plaintext found => ?_) fun e failed => by cases failed
  obtain rfl := Except.ok.inj found
  rw [if_neg (not_not.mpr (length_keyBytes privateKey))]
  exact ⟨rfl, (congrArg _ (keyOfBytes_keyBytes privateKey)).trans own⟩

theorem unlock_proceeds (inv : device.Inv alone φ t) (idle : φ.window = none)
    (belongs : device.Belongs t identity) :
    Proceeds lawful alone (fun privateKey φ' _ => (φ' = φ ∨ φ' = φ.seen) ∧
        device.config.publicKeyOf privateKey = identity.publicKey)
      (Store.unlock device.serde (device.configFor name) identity) φ t := by
  refine .bind inv (deriveKek_proceeds inv idle belongs) ?_
  rintro kek φ₁ t₁ later₁ ⟨phase, salt, saltHex, key⟩
  refine (decryptEnvelope_proceeds (belongs.later later₁.keeps).1 saltHex key).imp ?_
  rintro privateKey φ₂ t₂ ⟨rfl, own⟩
  exact ⟨phase, own⟩

theorem encryptEnvelope_proceeds (privateKey : SecretKey) (publicKey : PublicKey) :
    Proceeds lawful alone (fun envelope φ' _ => φ' = φ ∧ envelope.tag = atRestAeadTag ∧
        envelope.saltHex = hexEncode salt ∧
        ∃ nonce ciphertext, nonce.length = 12 ∧ envelope.nonceHex = hexEncode nonce ∧
          envelope.ciphertextHex = hexEncode ciphertext ∧
          device.encrypt kek nonce privateKey publicKey = .ok ciphertext)
      (Store.encryptEnvelope (device.configFor name) kek salt privateKey publicKey) φ t := by
  refine .calm trivial fun t₁ later₁ => ?_
  have long : (t.home.chance.bytes 12).1.length = 12 := (t.home.chance.bytes 12).2
  obtain ⟨ciphertext, encrypted⟩ := lawful.encrypts kek _ privateKey publicKey long
  refine .calm trivial fun t₂ later₂ => .raise (fun bytes answer => ?_) fun e failed => ?_
  · exact ⟨rfl, rfl, rfl, _, bytes, long, rfl, rfl, answer⟩
  · have refused : device.encrypt kek (t.home.chance.bytes 12).1 privateKey publicKey = .error e :=
      failed
    rw [encrypted] at refused
    cases refused

/-- An identity is sealed under the key for its salt. -/
theorem sealWithKek_proceeds {privateKey : SecretKey} (inv : device.Inv alone φ t)
    (version : identity.schemaVersion = identitySchemaVersion) (long : salt.length = 16)
    (key : device.Kek t.home.masterKey salt kek)
    (own : (device.configFor name).publicKeyOf privateKey = identity.publicKey) :
    Proceeds lawful alone (fun installed φ' t' => φ' = φ ∧
        device.Sealed t'.home.masterKey installed ∧
        ∃ envelope, installed = { identity with encryptedPrivateKey := envelope } ∧
          envelope.saltHex = hexEncode salt)
      (Store.sealWithKek (device.configFor name) identity kek salt privateKey) φ t := by
  unfold Store.sealWithKek
  rw [if_neg (not_not.mpr own)]
  refine .bind inv (encryptEnvelope_proceeds privateKey identity.publicKey) ?_
  rintro envelope φ₁ t₁ later₁
    ⟨rfl, tag, saltHex, nonce, ciphertext, short, nonceHex, sealedHex, encrypted⟩
  have decrypted := lawful.decrypt_encrypt _ _ _ _ _ encrypted
  exact ⟨rfl, ⟨version, tag, salt, nonce, ciphertext, kek, privateKey, saltHex, long, nonceHex, short,
    sealedHex, key.later later₁.keeps.masterKey, decrypted, own⟩, envelope, rfl, saltHex⟩

end Envelope

/-! ## Loading and creating -/

section Loading

variable {name : String} {identity installed : DeviceIdentity}

/-- An identity that opens is written, if it is the one that the device has or the first. -/
theorem writeIdentity_proceeds (idle : φ.window = none)
    (opens : device.Sealed t.home.masterKey installed)
    (named : installed.displayName = φ.displayName) (read : alone = true → φ.read = true)
    (same : φ.read = true → ∃ held, t.held = some held ∧ held.core = installed.core) :
    Proceeds lawful alone (fun _ φ' t' => φ' = φ ∧ device.Belongs t' installed)
      (Store.writeIdentityWithMode device.serde (device.configFor name) installed) φ t := by
  have small : installed.schemaVersion < 2 ^ 32 := by
    rw [opens.version]
    decide
  refine fun _ => ⟨read, fun t₁ later₁ => ?_⟩
  have kept : t.Keeps t₁ := ⟨later₁.rely.held, later₁.rely.masterKey⟩
  have opens₁ := opens.later kept.masterKey
  have same₁ (seen : φ.read = true) : ∃ held, t₁.held = some held ∧ held.core = installed.core := by
    obtain ⟨held, there, core⟩ := same seen
    obtain ⟨later, here, core'⟩ := kept.held held there
    exact ⟨later, here, core'.trans core⟩
  refine fun _ => ⟨⟨rfl, installed, rfl, opens₁, named, same₁⟩, fun t₂ later₂ => ?_⟩
  have phase : (device.regime lawful alone).next (φ.opened .identity)
      (.write .identity (utf8 (device.serde.pretty installed))) t₁ = φ := closed_opened idle
  refine ⟨phase, opens₁.later later₂.rely.masterKey, ?_⟩
  exact later₂.rely.held installed (lawful.identityIn_pretty small)

theorem tightenFiles_proceeds (inv : device.Inv alone φ t) :
    Proceeds lawful alone (fun _ φ' _ => φ' = φ) Store.tightenFiles φ t := by
  refine .calm trivial fun t₁ later₁ => .raise (fun _ _ => ?_) fun e failed => ?_
  · refine .calm trivial fun t₂ later₂ => ?_
    split
    · exact .calm trivial fun t₃ later₃ => rfl
    · exact rfl
  · refine Bool.eq_false_iff.mpr fun solo => (inv.2.alone solo).held ?_
    exact inv.1.absent (tighten_eq_error failed)

theorem pickKekAndSalt_proceeds (inv : device.Inv alone φ t) (together : alone = false)
    (idle : φ.window = none) :
    Proceeds lawful alone (fun picked φ' t' => φ' = φ ∧ picked.2.length = 16 ∧
        device.Kek t'.home.masterKey picked.2 picked.1)
      (Store.pickKekAndSaltForFirstRun (device.configFor name)) φ t := by
  unfold Store.pickKekAndSaltForFirstRun
  split
  case h_1 passphrase mode =>
    have long : (t.home.chance.bytes 16).1.length = 16 := (t.home.chance.bytes 16).2
    refine .calm trivial fun t₁ later₁ => .calm trivial fun t₂ later₂ => ?_
    refine .raise (fun kek derived => ?_) fun _ _ => together
    exact ⟨rfl, long, (kek_of_passphrase mode).mpr derived⟩
  case h_2 mode =>
    refine .bind inv (ensureMasterKey_proceeds together idle) ?_
    rintro kek φ₁ t₁ later₁ ⟨rfl, key⟩
    exact ⟨rfl, List.length_replicate, (kek_of_masterKey mode).mpr key⟩

/-- A new identity is sealed and written by a process that has found none. -/
theorem install_proceeds {sealFailure : String} {privateKey : SecretKey}
    (inv : device.Inv alone φ t) (together : alone = false) (idle : φ.window = none)
    (unread : φ.read = false) (version : identity.schemaVersion = identitySchemaVersion)
    (own : (device.configFor name).publicKeyOf privateKey = identity.publicKey)
    (named : identity.displayName = φ.displayName) :
    Proceeds lawful alone (fun installed φ' t' => φ' = φ ∧ device.Belongs t' installed ∧
        installed.displayName = φ.displayName)
      (Store.install device.serde (device.configFor name) sealFailure identity privateKey) φ t := by
  refine .bind inv (pickKekAndSalt_proceeds inv together idle) ?_
  rintro ⟨kek, salt⟩ φ₁ t₁ later₁ ⟨rfl, long, key⟩
  refine .attempt_bind later₁.inv (sealWithKek_proceeds later₁.inv version long key own) ?_
    fun _ _ _ _ => together
  rintro installed φ₂ t₂ later₂ ⟨rfl, opens, envelope, rfl, -⟩
  dsimp only
  rw [Program.pure_eq, Program.done_bind]
  refine .bind later₂.inv (writeIdentity_proceeds idle opens named (fun solo => ?_) fun read => ?_) ?_
  · simp [together] at solo
  · simp [unread] at read
  rintro _ φ₃ t₃ later₃ ⟨rfl, belongs⟩
  refine .bind later₃.inv (tightenFiles_proceeds later₃.inv) ?_
  rintro _ φ₄ t₄ later₄ rfl
  exact ⟨rfl, belongs.later later₄.keeps, named⟩

theorem newIdentity_proceeds {displayName : String} :
    Proceeds lawful alone (fun made φ' _ => φ' = φ ∧
        made.1.schemaVersion = identitySchemaVersion ∧ made.1.displayName = displayName ∧
        (device.configFor name).publicKeyOf made.2 = made.1.publicKey)
      (Store.newIdentity (device.configFor name) displayName) φ t := by
  refine .calm trivial fun _ _ => .calm trivial fun _ _ => .calm trivial fun _ _ => ?_
  exact .calm trivial fun _ _ => ⟨rfl, rfl, rfl, rfl⟩

/-- An identity that is read is sealed again under the name of the call. -/
theorem rename_proceeds {privateKey : SecretKey} (inv : device.Inv alone φ t)
    (idle : φ.window = none) (read : φ.read = true) (belongs : device.Belongs t identity)
    (own : device.config.publicKeyOf privateKey = identity.publicKey) :
    Proceeds lawful alone (fun installed φ' t' => φ' = φ ∧ device.Belongs t' installed ∧
        installed.displayName = φ.displayName)
      (Store.rename device.serde (device.configFor name) identity φ.displayName privateKey) φ t := by
  refine .bind inv (deriveKek_proceeds inv idle belongs) ?_
  rintro kek φ₁ t₁ later₁ ⟨phase, salt, saltHex, key⟩
  obtain rfl : φ₁ = φ := by
    rcases phase with same | same
    · exact same
    · exact same.trans (seen_of_read read)
  have belongs₁ := belongs.later later₁.keeps
  obtain ⟨salt', _, _, _, _, saltHex', long, -⟩ := belongs.1.opens
  obtain rfl := hexEncode_inj (saltHex.symm.trans saltHex')
  rw [saltHex, hexDecode_hexEncode]
  refine .require (fun bytes found => ?_) fun missing => by cases missing
  obtain rfl := Option.some.inj found
  rw [if_neg (not_not.mpr long)]
  refine .bind later₁.inv (sealWithKek_proceeds later₁.inv belongs.1.version long key own) ?_
  rintro installed φ₂ t₂ later₂ ⟨rfl, opens, envelope, rfl, saltHex₂⟩
  have same : ∃ held, t₂.held = some held ∧ held.core =
      (⟨identity.schemaVersion, identity.deviceId, identity.hostPeerId, identity.clientPeerId,
        φ₂.displayName, identity.publicKey, envelope⟩ : DeviceIdentity).core := by
    obtain ⟨-, held, there, core⟩ := belongs₁.later later₂.keeps
    refine ⟨held, there, core.trans ?_⟩
    simp only [DeviceIdentity.core, saltHex, saltHex₂]
  refine .bind later₂.inv (writeIdentity_proceeds idle opens rfl (fun _ => read) fun _ => same) ?_
  rintro _ φ₃ t₃ later₃ ⟨rfl, belongs₃⟩
  exact ⟨rfl, belongs₃, rfl⟩

theorem reload_proceeds (inv : device.Inv alone φ t) (idle : φ.window = none)
    (read : φ.read = true) (belongs : device.Belongs t identity) :
    Proceeds lawful alone (fun loaded φ' t' => φ' = φ ∧ device.Belongs t' loaded ∧
        loaded.displayName = φ.displayName)
      (Store.reload device.serde (device.configFor name) identity φ.displayName) φ t := by
  unfold Store.reload
  rw [if_neg (not_not.mpr belongs.1.version)]
  refine .bind inv (unlock_proceeds inv idle belongs) ?_
  rintro privateKey φ₁ t₁ later₁ ⟨phase, own⟩
  obtain rfl : φ₁ = φ := by
    rcases phase with same | same
    · exact same
    · exact same.trans (seen_of_read read)
  have belongs₁ := belongs.later later₁.keeps
  have same : (device.configFor name).publicKeyOf privateKey = identity.publicKey := own
  rw [if_neg (not_not.mpr same)]
  have finishes (loaded : DeviceIdentity) (t' : Ledger) (inv' : device.Inv alone φ₁ t')
      (belongs' : device.Belongs t' loaded) (named : loaded.displayName = φ₁.displayName) :
      Proceeds lawful alone (fun loaded φ' t' => φ' = φ₁ ∧ device.Belongs t' loaded ∧
          loaded.displayName = φ₁.displayName)
        (Store.tightenFiles >>= fun _ => pure loaded) φ₁ t' := by
    refine .bind inv' (tightenFiles_proceeds inv') ?_
    rintro _ φ₂ t₂ later₂ rfl
    exact ⟨rfl, belongs'.later later₂.keeps, named⟩
  dsimp only
  split
  case isTrue =>
    refine .bind later₁.inv (rename_proceeds later₁.inv idle read belongs₁ own) ?_
    rintro loaded φ₂ t₂ later₂ ⟨rfl, belongs₂, named⟩
    exact finishes loaded t₂ later₂.inv belongs₂ named
  case isFalse named => exact finishes identity t₁ later₁.inv belongs₁ (not_not.mp named)

/-- A call returns the identity of the device, under the name that it gives. -/
theorem loadOrCreate_proceeds (inv : device.Inv alone φ t) (idle : φ.window = none)
    (unread : φ.read = false) :
    Proceeds lawful alone (fun loaded φ' t' => φ'.window = none ∧ device.Belongs t' loaded ∧
        loaded.displayName = φ.displayName)
      (Store.loadOrCreateIdentity device.serde (device.configFor φ.defaultDeviceName) φ.override)
      φ t := by
  refine .calm trivial fun t₁ later₁ => .orFail (fun _ _ => ?_) fun e failed => by cases failed
  refine .calm trivial fun t₂ later₂ => ?_
  split
  case isTrue absent =>
    have missing : t₁.home.identity = none := by simpa [Home.content] using absent
    have together : alone = false := by
      refine Bool.eq_false_iff.mpr fun solo => (later₁.inv.2.alone solo).held ?_
      exact later₁.inv.1.absent missing
    refine .bind later₂.inv newIdentity_proceeds ?_
    rintro ⟨identity, privateKey⟩ φ₃ t₃ later₃ ⟨rfl, version, named, own⟩
    refine (install_proceeds later₃.inv together idle unread version own named).imp ?_
    rintro installed φ₄ t₄ ⟨rfl, belongs, named⟩
    exact ⟨idle, belongs, named⟩
  case isFalse =>
    refine .bind later₂.inv (readIdentityText_proceeds later₂.inv idle) ?_
    rintro text φ₃ t₃ later₃ ⟨rfl, ⟨identity, rfl, belongs⟩ | ⟨rfl, together⟩⟩
    · have small : identity.schemaVersion < 2 ^ 32 := by
        rw [belongs.1.version]
        decide
      unfold Store.loadText
      rw [lawful.identity_pretty small]
      refine (reload_proceeds later₃.inv idle rfl belongs).imp ?_
      rintro loaded φ₄ t₄ ⟨rfl, belongs₄, named⟩
      exact ⟨idle, belongs₄, named⟩
    · have unread : device.serde.value "" = none := by
        rw [Serde.value, lawful.document_empty]
        rfl
      have nothing : device.serde.identity "" = none := by
        rw [Serde.identity, lawful.document_empty]
        rfl
      unfold Store.loadText Store.migrate
      rw [nothing, unread]
      exact together

theorem hostSeed_proceeds (inv : device.Inv alone φ t) (idle : φ.window = none)
    (unread : φ.read = false) (unnamed : φ.override = none) :
    Proceeds lawful alone (fun privateKey _ t' => ∃ identity, device.Belongs t' identity ∧
        device.config.publicKeyOf privateKey = identity.publicKey)
      (Store.hostSeedForRecovery device.serde (device.configFor φ.defaultDeviceName)) φ t := by
  have loads : Proceeds lawful alone _ _ φ t := loadOrCreate_proceeds inv idle unread
  rw [unnamed] at loads
  refine .bind inv loads ?_
  rintro identity φ₁ t₁ later₁ ⟨idle₁, belongs, -⟩
  refine (unlock_proceeds later₁.inv idle₁ belongs).imp_later later₁.inv ?_
  rintro privateKey φ₂ t₂ later₂ ⟨-, own⟩
  exact ⟨identity, belongs.later later₂.keeps, own⟩

end Loading

end Qubox.Identity
