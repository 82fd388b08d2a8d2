import Qubox.Host.Replay

/-!
# Audience and expiry at the host

The check of a kill compares the signed audience with a copy that stands beside the signed
payload, the check of a bundle looks for the device id anywhere in the subject, and both let an
empty name pass. The signed expiry is cast to an unsigned number before the skew is added, so
that a negative one lies in the far future. The conditions say when none of this matters.
-/

namespace Qubox.Host

open Signaling

/-- The values of a signed 64-bit integer. -/
def InI64 (value : Int) : Prop := -2 ^ 63 ≤ value ∧ value < 2 ^ 63

section Statement

variable (crypto : Crypto) (lookups : Lookups) (jwks : Bool) (cache : JtiCache)
  (envelope : SignedKillEnvelope) (bundle : SessionBundleInfo) (hostDeviceId : String) (now : Int)

/-- An accepted kill is signed, is meant for this host and has not expired; and the sum that
the expiry is judged by has 64 bits. -/
structure KillBinds : Prop where
  accepted : ∀ payload,
    (verifyKillEnvelopeLocal crypto lookups jwks cache envelope now).1 = .ok payload →
      verifySignedKillEnvelope crypto lookups envelope = .ok payload ∧
      payload.aud = hostDeviceId ∧ now < payload.exp + skewToleranceMs
  exact : ∀ payload, jwks = true → verifySignedKillEnvelope crypto lookups envelope = .ok payload →
    skewToleranceMs + asU64 payload.exp < 2 ^ 64

structure BundleBinds : Prop where
  accepted : (verifyBundleLocally cache bundle hostDeviceId now).1 = .ok () →
    bundle.sub = hostDeviceId ∧ now < bundle.expUnixMs + skewToleranceMs
  exact : InI64 (asI64 bundle.expUnixMs + skewToleranceMs)

/-- The cache takes an identifier. -/
def Fresh (jti : String) (exp : Nat) : Prop :=
  (cache.checkAndMark jti exp (asU64 now)).1.isOk = true

/-- A signed expiry is not in the last minutes before the epoch. Where the copy of the audience
lets a payload pass that would be accepted otherwise, it is meant for this host, and a negative
expiry comes with a negative clock. -/
structure KillPlain : Prop where
  apart : ∀ payload, jwks = true → verifySignedKillEnvelope crypto lookups envelope = .ok payload →
    payload.exp < -skewToleranceMs ∨ 0 ≤ payload.exp
  ours : ∀ payload, jwks = true → verifySignedKillEnvelope crypto lookups envelope = .ok payload →
    asU64 now < skewToleranceMs + asU64 payload.exp →
    Fresh cache now payload.jti (asU64 payload.exp) →
    (envelope.payload.aud = "" ∨ payload.aud = envelope.payload.aud) →
      payload.aud = hostDeviceId ∧ (0 ≤ payload.exp ∨ now < 0)

/-- An expiry is not in the last minutes of the signed range. Where a subject is empty or has
the device id in it, and would be accepted, it is the device id. -/
structure BundlePlain : Prop where
  apart : bundle.expUnixMs < 2 ^ 63 - skewToleranceMs ∨ 2 ^ 63 ≤ bundle.expUnixMs
  ours : now < asI64 bundle.expUnixMs + skewToleranceMs →
    Fresh cache now bundle.jti bundle.expUnixMs →
    (bundle.sub = "" ∨ contains bundle.sub hostDeviceId = true) → bundle.sub = hostDeviceId

end Statement

variable {crypto : Crypto} {lookups : Lookups} {jwks : Bool} {cache : JtiCache}
  {envelope : SignedKillEnvelope} {bundle : SessionBundleInfo} {payload : SignedKill}
  {hostDeviceId : String} {now : Int}

/-! ## What is accepted -/

theorem map_mapError_eq_ok {α : Type} {result : Except JtiError Unit} {value other : α} :
    (result.map fun _ => value).mapError BundleVerifyErrorLocal.jti = .ok other ↔
      result.isOk = true ∧ value = other := by
  cases result with
  | error e | ok => simp [Except.map, Except.mapError, Except.isOk, Except.toBool]

theorem verifyKillEnvelopeLocal_eq_ok :
    (verifyKillEnvelopeLocal crypto lookups jwks cache envelope now).1 = .ok payload ↔
      jwks = true ∧ verifySignedKillEnvelope crypto lookups envelope = .ok payload ∧
      asU64 now < (skewToleranceMs + asU64 payload.exp) % 2 ^ 64 ∧
      (envelope.payload.aud = "" ∨ payload.aud = envelope.payload.aud) ∧
      Fresh cache now payload.jti (asU64 payload.exp) := by
  unfold verifyKillEnvelopeLocal
  cases jwks with
  | false => simp
  | true =>
      cases verified : verifySignedKillEnvelope crypto lookups envelope with
      | error e => simp
      | ok signed =>
          simp only [if_true, true_and, Except.ok.injEq]
          by_cases expired : (skewToleranceMs + asU64 signed.exp) % 2 ^ 64 ≤ asU64 now
          · rw [if_pos expired]
            refine iff_of_false (by simp) ?_
            rintro ⟨rfl, early, -⟩
            exact Nat.not_le.mpr early expired
          · rw [if_neg expired]
            have foreign : (!envelope.payload.aud.isEmpty &&
                decide (signed.aud ≠ envelope.payload.aud)) = true ↔
                  ¬ (envelope.payload.aud = "" ∨ signed.aud = envelope.payload.aud) := by
              simp
            by_cases ours : envelope.payload.aud = "" ∨ signed.aud = envelope.payload.aud
            · rw [if_neg (foreign.not.mpr (not_not.mpr ours)), map_mapError_eq_ok]
              constructor
              · rintro ⟨fresh, rfl⟩
                exact ⟨rfl, Nat.not_le.mp expired, ours, fresh⟩
              · rintro ⟨rfl, -, -, fresh⟩
                exact ⟨fresh, rfl⟩
            · rw [if_pos (foreign.mpr ours)]
              refine iff_of_false (by simp) ?_
              rintro ⟨rfl, -, named, -⟩
              exact ours named

theorem verifyBundleLocally_eq_ok :
    (verifyBundleLocally cache bundle hostDeviceId now).1 = .ok () ↔
      now < asI64 (asI64 bundle.expUnixMs + skewToleranceMs) ∧
      (bundle.sub = "" ∨ contains bundle.sub hostDeviceId = true) ∧
      Fresh cache now bundle.jti bundle.expUnixMs := by
  unfold verifyBundleLocally
  by_cases expired : asI64 (asI64 bundle.expUnixMs + skewToleranceMs) ≤ now
  · rw [if_pos expired]
    refine iff_of_false (by simp) ?_
    rintro ⟨early, -⟩
    exact Int.not_le.mpr early expired
  · rw [if_neg expired]
    have foreign : (!contains bundle.sub hostDeviceId && !bundle.sub.isEmpty) = true ↔
        ¬ (bundle.sub = "" ∨ contains bundle.sub hostDeviceId = true) := by
      simp [and_comm]
    by_cases ours : bundle.sub = "" ∨ contains bundle.sub hostDeviceId = true
    · rw [if_neg (foreign.not.mpr (not_not.mpr ours)), map_mapError_eq_ok]
      constructor
      · rintro ⟨fresh, -⟩
        exact ⟨Int.not_le.mp expired, ours, fresh⟩
      · rintro ⟨-, -, fresh⟩
        exact ⟨fresh, rfl⟩
    · rw [if_pos (foreign.mpr ours)]
      refine iff_of_false (by simp) ?_
      rintro ⟨-, named, -⟩
      exact ours named

/-! ## Exact conditions -/

theorem bind_eq_ok {ε α β : Type} {first : Except ε α} {next : α → Except ε β} {value : β}
    (done : first >>= next = .ok value) : ∃ found, first = .ok found ∧ next found = .ok value := by
  cases first with
  | error e => cases done
  | ok found => exact ⟨found, rfl, done⟩

theorem decoded_of_verified
    (verified : verifySignedKillEnvelope crypto lookups envelope = .ok payload) :
    crypto.payloadSignedKill envelope.envelope = .ok payload := by
  unfold verifySignedKillEnvelope at verified
  obtain ⟨-, -, verified⟩ := bind_eq_ok verified
  obtain ⟨key, -, verified⟩ := bind_eq_ok verified
  obtain ⟨-, -, verified⟩ := bind_eq_ok verified
  obtain ⟨-, -, verified⟩ := bind_eq_ok verified
  cases decoded : crypto.payloadSignedKill envelope.envelope with
  | error e =>
      rw [decoded] at verified
      cases verified
  | ok found =>
      rw [decoded] at verified
      cases verified
      rfl

theorem killBinds_iff (clock : InI64 now)
    (signed : ∀ payload, crypto.payloadSignedKill envelope.envelope = .ok payload →
      InI64 payload.exp) :
    KillBinds crypto lookups jwks cache envelope hostDeviceId now ↔
      KillPlain crypto lookups jwks cache envelope hostDeviceId now := by
  have fits {payload : SignedKill} (range : InI64 payload.exp) :
      skewToleranceMs + asU64 payload.exp < 2 ^ 64 ↔
        payload.exp < -skewToleranceMs ∨ 0 ≤ payload.exp := by
    obtain ⟨low, high⟩ := range
    simp only [asU64, skewToleranceMs]
    omega
  have unexpired {payload : SignedKill} (range : InI64 payload.exp)
      (apart : payload.exp < -skewToleranceMs ∨ 0 ≤ payload.exp)
      (early : asU64 now < skewToleranceMs + asU64 payload.exp) :
      now < payload.exp + skewToleranceMs ↔ 0 ≤ payload.exp ∨ now < 0 := by
    obtain ⟨low, high⟩ := range
    obtain ⟨low', high'⟩ := clock
    simp only [asU64, skewToleranceMs] at early apart ⊢
    omega
  constructor
  · intro binds
    refine ⟨fun payload configured verified => ?_,
      fun payload configured verified early fresh named => ?_⟩
    · have range := signed payload (decoded_of_verified verified)
      exact (fits range).mp (binds.exact payload configured verified)
    · have range := signed payload (decoded_of_verified verified)
      have exact' := binds.exact payload configured verified
      have accepted := binds.accepted payload (verifyKillEnvelopeLocal_eq_ok.mpr
        ⟨configured, verified, by rw [Nat.mod_eq_of_lt exact']; exact early, named, fresh⟩)
      exact ⟨accepted.2.1, (unexpired range ((fits range).mp exact') early).mp accepted.2.2⟩
  · intro plain
    refine ⟨fun payload accepted => ?_, fun payload configured verified => ?_⟩
    · obtain ⟨configured, verified, early, named, fresh⟩ :=
        verifyKillEnvelopeLocal_eq_ok.mp accepted
      have range := signed payload (decoded_of_verified verified)
      have apart := plain.apart payload configured verified
      rw [Nat.mod_eq_of_lt ((fits range).mpr apart)] at early
      obtain ⟨ours, dated⟩ := plain.ours payload configured verified early fresh named
      exact ⟨verified, ours, (unexpired range apart early).mpr dated⟩
    · have range := signed payload (decoded_of_verified verified)
      exact (fits range).mpr (plain.apart payload configured verified)

theorem bundleBinds_iff (clock : InI64 now) (wide : bundle.expUnixMs < 2 ^ 64) :
    BundleBinds cache bundle hostDeviceId now ↔ BundlePlain cache bundle hostDeviceId now := by
  have ranges : InI64 (asI64 bundle.expUnixMs + skewToleranceMs) ↔
      bundle.expUnixMs < 2 ^ 63 - skewToleranceMs ∨ 2 ^ 63 ≤ bundle.expUnixMs := by
    simp only [InI64, asI64, skewToleranceMs, Int.bmod_def]
    omega
  have casts (fits : InI64 (asI64 bundle.expUnixMs + skewToleranceMs)) :
      asI64 (asI64 bundle.expUnixMs + skewToleranceMs) =
        asI64 bundle.expUnixMs + skewToleranceMs := by
    obtain ⟨low, high⟩ := fits
    rw [asI64, Int.bmod_eq_of_le] <;> omega
  have unexpired (early : now < asI64 bundle.expUnixMs + skewToleranceMs) :
      now < bundle.expUnixMs + skewToleranceMs := by
    have large := clock.2
    simp only [asI64, skewToleranceMs, Int.bmod_def] at early ⊢
    omega
  constructor
  · intro binds
    refine ⟨ranges.mp binds.exact, fun early fresh named => ?_⟩
    refine (binds.accepted (verifyBundleLocally_eq_ok.mpr ⟨?_, named, fresh⟩)).1
    rw [casts binds.exact]
    exact early
  · intro plain
    have fits := ranges.mpr plain.apart
    refine ⟨fun accepted => ?_, fits⟩
    obtain ⟨early, named, fresh⟩ := verifyBundleLocally_eq_ok.mp accepted
    rw [casts fits] at early
    exact ⟨plain.ours early fresh named, unexpired early⟩

/-- Kills and bundles are bound to this host and to their expiry exactly if they are plain. -/
theorem checks_bind_iff (crypto : Crypto) (lookups : Lookups) (jwks : Bool) (cache : JtiCache)
    (envelope : SignedKillEnvelope) (bundle : SessionBundleInfo) (hostDeviceId : String)
    {now : Int} (clock : InI64 now) (wide : bundle.expUnixMs < 2 ^ 64)
    (signed : ∀ payload, crypto.payloadSignedKill envelope.envelope = .ok payload →
      InI64 payload.exp) :
    (KillBinds crypto lookups jwks cache envelope hostDeviceId now ↔
      KillPlain crypto lookups jwks cache envelope hostDeviceId now) ∧
    (BundleBinds cache bundle hostDeviceId now ↔ BundlePlain cache bundle hostDeviceId now) :=
  ⟨killBinds_iff clock signed, bundleBinds_iff clock wide⟩

namespace Sample

instance (value : Int) : Decidable (InI64 value) := inferInstanceAs (Decidable (_ ∧ _))

theorem cloud_inI64 (sealed : SignedBundle) (payload : SignedKill)
    (decoded : cloud.payloadSignedKill sealed = .ok payload) : InI64 payload.exp := by
  unfold cloud at decoded
  dsimp only at decoded
  split at decoded
  · cases decoded
    decide
  · cases decoded

/-- A kill for "host-1" and a bundle without a subject reach "host-2". -/
theorem checks_bind_elsewhere :
    (KillBinds cloud published true .new killEnvelope "host-2" 2000 ↔
      KillPlain cloud published true .new killEnvelope "host-2" 2000) ∧
    (BundleBinds .new viewerBundle "host-2" 2000 ↔ BundlePlain .new viewerBundle "host-2" 2000) :=
  checks_bind_iff cloud published true .new killEnvelope viewerBundle "host-2" (by decide)
    (by decide) (cloud_inI64 killEnvelope.envelope)

/-- A kill for "host-1" is accepted at "host-2", since the envelope repeats its audience. -/
theorem foreignKill_not_binds :
    ¬ ∀ (crypto : Crypto) (lookups : Lookups) (cache : JtiCache) (envelope : SignedKillEnvelope)
      (bundle : SessionBundleInfo) (hostDeviceId : String) (now : Int),
      KillBinds crypto lookups true cache envelope hostDeviceId now ∧
        BundleBinds cache bundle hostDeviceId now := by
  intro always
  obtain ⟨binds, -⟩ := always cloud published .new killEnvelope viewerBundle "host-2" 2000
  have accepted : (verifyKillEnvelopeLocal cloud published true .new killEnvelope 2000).1 =
      .ok killEnvelope.payload := by
    decide
  exact absurd (binds.accepted _ accepted).2.1 (by decide)

end Sample

end Qubox.Host
