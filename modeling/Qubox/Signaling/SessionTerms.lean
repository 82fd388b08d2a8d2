import Qubox.Signaling.Call

/-!
# The terms of a session

`start_session` settles two things for both peers: a codec and a credential.

Without a preference the codec is one that the host encodes and the client
decodes. A preferred codec is taken when either list of either side has it, so it
can be one that nobody is able to stream.

The credential carries a tag over session, keys and times. `verify` recomputes
the tag, after the checks that need no secret.
-/

namespace Qubox.Signaling

/-! ## The codec -/

section Codec

variable (client host : PeerDescriptor) (preferred : Option VideoCodec)

/-- The host can send the codec to the client. -/
def Streamable (codec : VideoCodec) : Prop :=
  codec ∈ host.capabilities.encoders ∧ codec ∈ client.capabilities.decoders

/-- Both sides have the codec, in one direction or the other. -/
def Known (codec : VideoCodec) : Prop :=
  (codec ∈ client.capabilities.decoders ∨ codec ∈ client.capabilities.encoders) ∧
    (codec ∈ host.capabilities.encoders ∨ codec ∈ host.capabilities.decoders)

instance (codec : VideoCodec) : Decidable (Streamable client host codec) :=
  inferInstanceAs (Decidable (_ ∧ _))

instance (codec : VideoCodec) : Decidable (Known client host codec) :=
  inferInstanceAs (Decidable (_ ∧ _))

/-- The codec agreed on can be streamed, and one is found if there is any. -/
structure AgreesOnStreamable : Prop where
  streamable : ∀ codec, negotiateCodec client host preferred = some codec →
    Streamable client host codec
  complete : negotiateCodec client host preferred = none →
    ∀ codec, ¬ Streamable client host codec

variable {client host preferred}

theorem mem_codecs (codec : VideoCodec) : codec ∈ [VideoCodec.av1, .h265, .h264] := by
  cases codec <;> decide

/-- Without a preference the first streamable codec is taken. -/
theorem negotiateCodec_none :
    negotiateCodec client host none =
      [VideoCodec.av1, .h265, .h264].find? (fun codec => Streamable client host codec) := by
  simp only [negotiateCodec, List.contains_eq_mem, ← Bool.decide_and]
  rfl

theorem negotiateCodec_some (codec : VideoCodec) :
    negotiateCodec client host (some codec) =
      if Known client host codec then some codec else negotiateCodec client host none := by
  simp only [negotiateCodec, Known, List.contains_eq_mem, Bool.and_eq_true, Bool.or_eq_true,
    decide_eq_true_eq]

theorem agreesOnStreamable_none : AgreesOnStreamable client host none := by
  refine ⟨fun codec agreed => ?_, fun refused codec streamable => ?_⟩
  · rw [negotiateCodec_none] at agreed
    have streamable := List.find?_some agreed
    exact of_decide_eq_true streamable
  · rw [negotiateCodec_none, List.find?_eq_none] at refused
    exact refused codec (mem_codecs codec) (decide_eq_true streamable)

/-- The codec agreed on can be streamed unless the preferred one is known to both
sides and only the other way round. -/
theorem agreesOnStreamable_iff (client host : PeerDescriptor) (preferred : Option VideoCodec) :
    AgreesOnStreamable client host preferred ↔ ∀ codec, preferred = some codec →
      Known client host codec → Streamable client host codec := by
  cases preferred with
  | none => exact iff_of_true agreesOnStreamable_none fun _ absent => by cases absent
  | some codec =>
      constructor
      · intro agrees other same known
        cases same
        exact agrees.streamable codec ((negotiateCodec_some codec).trans (if_pos known))
      · intro condition
        have agrees : AgreesOnStreamable client host none := agreesOnStreamable_none
        by_cases known : Known client host codec
        · refine ⟨fun other agreed => ?_, fun refused => ?_⟩
          · rw [negotiateCodec_some, if_pos known] at agreed
            cases agreed
            exact condition codec rfl known
          · rw [negotiateCodec_some, if_pos known] at refused
            cases refused
        · refine ⟨fun other agreed => ?_, fun refused => ?_⟩
          · rw [negotiateCodec_some, if_neg known] at agreed
            exact agrees.streamable other agreed
          · rw [negotiateCodec_some, if_neg known] at refused
            exact agrees.complete refused

end Codec

namespace Sample

/-- A phone that can send AV1 and play H.264. -/
def phone : PeerDescriptor :=
  { client with capabilities := { profile with encoders := [.av1], decoders := [.h264] } }

/-- A desktop that can play AV1 and send H.264. -/
def desktop : PeerDescriptor :=
  { host with capabilities := { profile with encoders := [.h264], decoders := [.av1] } }

end Sample

/-- The desktop is to send AV1 to the phone, which neither of them can do. -/
theorem phone_not_agreesOnStreamable :
    ¬ AgreesOnStreamable Sample.phone Sample.desktop (some .av1) := by
  intro agrees
  exact absurd (agrees.streamable .av1 (by decide)) (by decide)

/-! ## The credential -/

end Qubox.Signaling

namespace Qubox.SessionCredential

open Signaling

/-- The 96 bytes under the tag. -/
def message (credential : SessionCredential) : BitVec 768 :=
  credential.sessionId ++ credential.hostPubkey ++ credential.clientPubkey ++
    BitVec.ofNat 64 credential.issuedUnixMillis ++ BitVec.ofNat 64 credential.expiresUnixMillis

/-- `SessionCredential::verify` under the secret of the server. -/
def verify (cfg : Config) (credential : SessionCredential) (nowUnixMillis : Nat) : Bool :=
  if credential.hostPubkey = 0 ∨ credential.clientPubkey = 0 then false
  else if credential.hmac = 0 then false
  else if credential.expiresUnixMillis ≤ nowUnixMillis then false
  else cfg.hmacSha256 cfg.serverSecret credential.message = credential.hmac

/-- The times of a credential are `u64` values. -/
def InRange (credential : SessionCredential) : Prop :=
  credential.issuedUnixMillis ≤ u64Max ∧ credential.expiresUnixMillis ≤ u64Max

/-- The five fields that a credential is issued for. -/
def terms (credential : SessionCredential) : Uuid × PublicKey × PublicKey × Nat × Nat :=
  (credential.sessionId, credential.hostPubkey, credential.clientPubkey,
    credential.issuedUnixMillis, credential.expiresUnixMillis)

end Qubox.SessionCredential

namespace BitVec

/-- Two concatenations of equal widths agree only part by part. -/
theorem append_inj {v w : Nat} {a b : BitVec v} {c d : BitVec w} (same : a ++ c = b ++ d) :
    a = b ∧ c = d := by
  constructor
  · rw [← extractLsb'_append_eq_left (a := a) (b := c), same, extractLsb'_append_eq_left]
  · rw [← extractLsb'_append_eq_right (a := a) (b := c), same, extractLsb'_append_eq_right]

end BitVec

namespace Qubox.Signaling

section Credential

variable (cfg : Config) (messages : Set (BitVec 768))

/-- HMAC-SHA256 under the secret of the server separates these messages, and
gives none of them the zero tag. -/
structure Separates : Prop where
  distinct : ∀ m ∈ messages, ∀ m' ∈ messages,
    cfg.hmacSha256 cfg.serverSecret m = cfg.hmacSha256 cfg.serverSecret m' → m = m'
  nonzero : ∀ m ∈ messages, cfg.hmacSha256 cfg.serverSecret m ≠ 0

variable {cfg messages}

theorem ofNat_inj_of_le {a b : Nat} (ha : a ≤ u64Max) (hb : b ≤ u64Max)
    (same : BitVec.ofNat 64 a = BitVec.ofNat 64 b) : a = b := by
  have values := congrArg BitVec.toNat same
  simp only [BitVec.toNat_ofNat] at values
  unfold u64Max at ha hb
  omega

/-- The five fields can be read off the message. -/
theorem terms_of_message {a b : SessionCredential} (ha : a.InRange) (hb : b.InRange)
    (same : a.message = b.message) : a.terms = b.terms := by
  obtain ⟨same, expires⟩ := BitVec.append_inj same
  obtain ⟨same, issued⟩ := BitVec.append_inj same
  obtain ⟨same, client⟩ := BitVec.append_inj same
  obtain ⟨session, host⟩ := BitVec.append_inj same
  simp only [SessionCredential.terms, Prod.mk.injEq]
  exact ⟨session, host, client, ofNat_inj_of_le ha.1 hb.1 issued,
    ofNat_inj_of_le ha.2 hb.2 expires⟩

theorem verify_iff {credential : SessionCredential} {now : Nat} :
    credential.verify cfg now = true ↔ credential.hostPubkey ≠ 0 ∧ credential.clientPubkey ≠ 0 ∧
      credential.hmac ≠ 0 ∧ now < credential.expiresUnixMillis ∧
      credential.hmac = cfg.hmacSha256 cfg.serverSecret credential.message := by
  unfold SessionCredential.verify
  split
  case isTrue zero =>
    simp only [Bool.false_eq_true, false_iff]
    tauto
  case isFalse keys =>
    obtain ⟨host, client⟩ := not_or.mp keys
    split
    case isTrue untagged =>
      simp only [Bool.false_eq_true, untagged, ne_eq, not_true, false_iff]
      tauto
    case isFalse tagged =>
      split
      case isTrue expired =>
        simp only [Bool.false_eq_true, false_iff]
        omega
      case isFalse live =>
        have early : now < credential.expiresUnixMillis := Nat.lt_of_not_le live
        simp only [decide_eq_true_eq, host, client, tagged, early, ne_eq, not_false_eq_true,
          true_and]
        exact eq_comm

variable (cfg messages)

/-- The credential is one that the server gives out. -/
def Issued (credential : SessionCredential) : Prop :=
  ∃ sessionId hostPubkey clientPubkey issued expires,
    credential = issueCredential cfg sessionId hostPubkey clientPubkey issued expires

/-- A credential verifies exactly for the terms it was issued for, as far as
these messages go. -/
structure VerifiesExactly : Prop where
  decides : ∀ (credential : SessionCredential) now,
    credential.verify cfg now = true ↔ credential.hostPubkey ≠ 0 ∧ credential.clientPubkey ≠ 0 ∧
      credential.hmac ≠ 0 ∧ now < credential.expiresUnixMillis ∧
      credential.hmac = cfg.hmacSha256 cfg.serverSecret credential.message
  untilExpiry : ∀ credential, Issued cfg credential → credential.hostPubkey ≠ 0 →
    credential.clientPubkey ≠ 0 → credential.message ∈ messages →
      ∀ now < credential.expiresUnixMillis, credential.verify cfg now = true
  altered : ∀ credential, Issued cfg credential → credential.InRange →
    credential.message ∈ messages →
      ∀ other : SessionCredential, other.InRange → other.message ∈ messages →
        other.hmac = credential.hmac → other.terms ≠ credential.terms →
          ∀ now, other.verify cfg now = false

variable {cfg messages}

theorem Issued.hmac_eq {credential : SessionCredential} (issued : Issued cfg credential) :
    credential.hmac = cfg.hmacSha256 cfg.serverSecret credential.message := by
  obtain ⟨sessionId, hostPubkey, clientPubkey, start, expires, rfl⟩ := issued
  rfl

theorem verifiesExactly (separates : Separates cfg messages) : VerifiesExactly cfg messages := by
  refine ⟨fun credential now => verify_iff, ?_, ?_⟩
  · intro credential issued host client occurs now early
    have tagged : credential.hmac ≠ 0 := by
      rw [issued.hmac_eq]
      exact separates.nonzero credential.message occurs
    exact verify_iff.mpr ⟨host, client, tagged, early, issued.hmac_eq⟩
  · intro credential issued range occurs other otherRange otherOccurs same differ now
    rw [Bool.eq_false_iff]
    intro verified
    obtain ⟨-, -, -, -, tag⟩ := verify_iff.mp verified
    have collision : cfg.hmacSha256 cfg.serverSecret other.message =
        cfg.hmacSha256 cfg.serverSecret credential.message := by
      rw [← tag, same, issued.hmac_eq]
    have equal := separates.distinct other.message otherOccurs credential.message occurs collision
    exact differ (terms_of_message otherRange range equal)

end Credential

namespace Sample

/-- The message of a credential that lasts until `expires`. -/
def tagged (expires : Nat) : BitVec 768 :=
  (7 : Uuid) ++ (5 : PublicKey) ++ (6 : PublicKey) ++ BitVec.ofNat 64 1000 ++
    BitVec.ofNat 64 expires

/-- HMAC-SHA256 of two messages under the key `secret`. -/
def secretTags (message : BitVec 768) : HmacTag :=
  if message = tagged 601000 then
    0xc34a7e516f253e52e69a73296a238d11c5d5676391f7149b2c4ecc9a0fa9c8e6
  else if message = tagged 601001 then
    0x7b2098f1aedb83a97e8bbb519df33476e42e7e57474024b4776be0e5d2b865f8
  else 0

def secretConfig : Config :=
  { config with
    serverSecret := "secret".toUTF8.toList
    hmacSha256 := fun _ message => secretTags message }

def tenMinutes : SessionCredential := issueCredential secretConfig 7 5 6 1000 601000

/-- The same credential with a millisecond more. -/
def stretched : SessionCredential := { tenMinutes with expiresUnixMillis := 601001 }

theorem tagged_separated : Separates secretConfig {tagged 601000, tagged 601001} := by
  refine ⟨?_, ?_⟩
  · rintro m (rfl | rfl) m' (rfl | rfl) <;> decide
  · rintro m (rfl | rfl) <;> decide

end Sample

/-- The credential verifies up to its last millisecond, and not with one more. -/
theorem tenMinutes_verifiesExactly :
    Sample.tenMinutes.verify Sample.secretConfig 600999 = true ∧
      Sample.stretched.verify Sample.secretConfig 1000 = false := by
  have verifies : VerifiesExactly Sample.secretConfig
      {Sample.tagged 601000, Sample.tagged 601001} := verifiesExactly Sample.tagged_separated
  have issued : Issued Sample.secretConfig Sample.tenMinutes := ⟨7, 5, 6, 1000, 601000, rfl⟩
  constructor
  · apply verifies.untilExpiry Sample.tenMinutes issued
    · decide
    · decide
    · exact .inl rfl
    · decide
  · apply verifies.altered Sample.tenMinutes issued
    · exact ⟨by decide, by decide⟩
    · exact .inl rfl
    · exact ⟨by decide, by decide⟩
    · exact .inr rfl
    · rfl
    · decide

end Qubox.Signaling
