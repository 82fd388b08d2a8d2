import Qubox.Signaling.Operations
import Qubox.Signaling.SingleUse

/-!
# The checks of the host

What the host verifies of the bundles and kills that the cloud forwards to it.
Both kinds of identifiers are marked in one cache. Signatures and the decoding
of payloads are left to `Crypto`; a call is given what the two lookups of the
signing key answer. The pending gates and the activity of sessions are left out.
-/

namespace Qubox.Host

open Signaling

inductive BundleVerifyErrorLocal where
  | jwksNotConfigured
  | jwks (error : String)
  | expired (expUnixMs nowUnixMs : Nat)
  | audience (expected got : String)
  | jti (error : JtiError)
  deriving DecidableEq

def skewToleranceMs : Nat := 5 * 60 * 1000

/-- The cast to a signed 64-bit integer. -/
def asI64 (value : Int) : Int := value.bmod (2 ^ 64)

/-- `str::contains`. -/
def contains (text piece : String) : Bool := text.toList.tails.any piece.toList.isPrefixOf

def verifyBundleLocally (cache : JtiCache) (bundle : SessionBundleInfo) (selfDeviceId : String)
    (nowUnixMs : Int) : Except BundleVerifyErrorLocal Unit × JtiCache :=
  if asI64 (asI64 bundle.expUnixMs + skewToleranceMs) ≤ nowUnixMs then
    (.error (.expired bundle.expUnixMs (asU64 nowUnixMs)), cache)
  else if !contains bundle.sub selfDeviceId && !bundle.sub.isEmpty then
    (.error (.audience selfDeviceId bundle.sub), cache)
  else
    let checked := cache.checkAndMark bundle.jti bundle.expUnixMs (asU64 nowUnixMs)
    ((checked.1.map fun _ => ()).mapError .jti, checked.2)

/-- The parts of the check of a signature that are not the host's. -/
structure Crypto where
  verifyingKey : PublicKey → Except String Unit
  verifySignature : SignedBundle → PublicKey → Except SignedBundleError Unit
  payloadSignedKill : SignedBundle → Except SignedBundleError SignedKill

/-- What the key set says of the key of an envelope, each time it is asked. -/
structure Lookups where
  verify : Except JwksError PublicKey
  decode : Except JwksError PublicKey

section Kill

variable (crypto : Crypto) (lookups : Lookups)

/-- `JwksClient::verify_bundle`. -/
def verifyBundle (envelope : SignedBundle) : Except JwksError Unit := do
  let key ← lookups.verify
  (crypto.verifyingKey key).mapError .badKey
  (crypto.verifySignature envelope key).mapError fun e => .signatureMismatch e.text

def verifySignedKillEnvelope (envelope : SignedKillEnvelope) : Except String SignedKill := do
  (verifyBundle crypto lookups envelope.envelope).mapError
    fun e => "jwks verify_bundle: " ++ e.text
  let key ← lookups.decode.mapError fun e => "jwks lookup: " ++ e.text
  (crypto.verifyingKey key).mapError fun e => "bad ed25519 key: " ++ e
  (crypto.verifySignature envelope.envelope key).mapError fun e => "decode: " ++ e.text
  (crypto.payloadSignedKill envelope.envelope).mapError fun e => "decode: " ++ e.text

/-- The audience is compared with the one that the envelope names beside the
signed payload. -/
def verifyKillEnvelopeLocal (jwks : Bool) (cache : JtiCache) (envelope : SignedKillEnvelope)
    (nowUnixMs : Int) : Except BundleVerifyErrorLocal SignedKill × JtiCache :=
  if jwks then
    match verifySignedKillEnvelope crypto lookups envelope with
    | .error e => (.error (.jwks e), cache)
    | .ok payload =>
        let exp := asU64 payload.exp
        let myId := envelope.payload.aud
        if (skewToleranceMs + exp) % 2 ^ 64 ≤ asU64 nowUnixMs then
          (.error (.expired exp (asU64 nowUnixMs)), cache)
        else if !myId.isEmpty && payload.aud ≠ myId then
          (.error (.audience myId payload.aud), cache)
        else
          let checked := cache.checkAndMark payload.jti exp (asU64 nowUnixMs)
          ((checked.1.map fun _ => payload).mapError .jti, checked.2)
  else (.error .jwksNotConfigured, cache)

end Kill

/-! ## Sequences of calls -/

/-- A reading of the clock, which is a signed 64-bit integer and not before the
epoch. -/
structure Millis where
  val : Nat
  bound : val < 2 ^ 63

inductive HostCall where
  | bundle (bundle : SessionBundleInfo) (selfDeviceId : String) (now : Millis)
  | kill (envelope : SignedKillEnvelope) (lookups : Lookups) (now : Millis)

def HostCall.now : HostCall → Millis
  | .bundle _ _ now => now
  | .kill _ _ now => now

inductive Kind where
  | bundle
  | kill
  deriving DecidableEq

/-- An identifier that is marked as used, until its expiry. -/
structure Mark where
  kind : Kind
  jti : String
  exp : Nat
  deriving DecidableEq

def Mark.name (mark : Mark) : Kind × String := (mark.kind, mark.jti)

/-- The mark of a result, if it is `Ok`. -/
def noted {α : Type} (mark : α → Mark) :
    Except BundleVerifyErrorLocal α × JtiCache → List Mark × JtiCache
  | (.ok value, after) => ([mark value], after)
  | (.error _, after) => ([], after)

@[simp] theorem noted_error {α : Type} (mark : α → Mark) (error : BundleVerifyErrorLocal)
    (after : JtiCache) : noted mark (.error error, after) = ([], after) := rfl

section Calls

variable (crypto : Crypto) (jwks : Bool)

/-- What a call does to the cache, and the mark it leaves when it returns `Ok`. -/
def respond (cache : JtiCache) : HostCall → List Mark × JtiCache
  | .bundle bundle selfDeviceId now =>
      noted (fun _ => ⟨.bundle, bundle.jti, bundle.expUnixMs⟩)
        (verifyBundleLocally cache bundle selfDeviceId now.val)
  | .kill envelope lookups now =>
      noted (fun payload => ⟨.kill, payload.jti, asU64 payload.exp⟩)
        (verifyKillEnvelopeLocal crypto lookups jwks cache envelope now.val)

def step (cache : JtiCache) (call : HostCall) : JtiCache := (respond crypto jwks cache call).2

def acceptance (cache : JtiCache) (call : HostCall) : List Mark :=
  (respond crypto jwks cache call).1

/-- The cache of a host after its first calls. -/
def reached (calls : List HostCall) : JtiCache := calls.foldl (step crypto jwks) JtiCache.new

def accepted (calls : List HostCall) : List Mark :=
  List.notes (step crypto jwks) (acceptance crypto jwks) JtiCache.new calls

/-- What a call asks the cache for, if it comes that far. -/
def presented : HostCall → Option Mark
  | .bundle bundle selfDeviceId now =>
      if asI64 (asI64 bundle.expUnixMs + skewToleranceMs) ≤ now.val then none
      else if !contains bundle.sub selfDeviceId && !bundle.sub.isEmpty then none
      else some ⟨.bundle, bundle.jti, bundle.expUnixMs⟩
  | .kill envelope lookups now =>
      if jwks then
        match verifySignedKillEnvelope crypto lookups envelope with
        | .error _ => none
        | .ok payload =>
            if (skewToleranceMs + asU64 payload.exp) % 2 ^ 64 ≤ now.val then none
            else if !envelope.payload.aud.isEmpty && payload.aud ≠ envelope.payload.aud then none
            else some ⟨.kill, payload.jti, asU64 payload.exp⟩
      else none

end Calls

theorem asU64_millis (now : Millis) : asU64 (now.val : Int) = now.val := by
  have bound := now.bound
  simp only [asU64]
  omega

section Calls

variable {crypto : Crypto} {jwks : Bool} (cache : JtiCache) {call : HostCall}

/-- What is noted of the answer of the cache. -/
theorem noted_checked {α : Type} (value : α) (mark : α → Mark)
    (checked : Except JtiError Unit × JtiCache) :
    noted mark ((checked.1.map fun _ => value).mapError .jti, checked.2) =
      (if checked.1.isOk then [mark value] else [], checked.2) := by
  obtain ⟨result, after⟩ := checked
  cases result with
  | error e | ok => rfl

/-- A call that does not come as far as the cache changes nothing. -/
theorem respond_of_none (stopped : presented crypto jwks call = none) :
    respond crypto jwks cache call = ([], cache) := by
  cases call with
  | bundle bundle selfDeviceId now =>
      simp only [presented] at stopped
      simp only [respond, verifyBundleLocally]
      split at stopped
      case isTrue expired => rw [if_pos expired, noted_error]
      case isFalse fresh =>
        rw [if_neg fresh]
        split at stopped
        case isTrue foreign => rw [if_pos foreign, noted_error]
        case isFalse => cases stopped
  | kill envelope lookups now =>
      simp only [presented] at stopped
      simp only [respond, verifyKillEnvelopeLocal]
      cases jwks with
      | false => rfl
      | true =>
          simp only [if_true] at stopped ⊢
          cases verified : verifySignedKillEnvelope crypto lookups envelope with
          | error e => rfl
          | ok payload =>
              simp only [verified] at stopped
              simp only [asU64_millis]
              split at stopped
              case isTrue expired => rw [if_pos expired, noted_error]
              case isFalse fresh =>
                rw [if_neg fresh]
                split at stopped
                case isTrue foreign => rw [if_pos foreign, noted_error]
                case isFalse => cases stopped

/-- A call that comes as far as the cache is accepted exactly if the cache
accepts the mark. -/
theorem respond_of_some {mark : Mark} (asked : presented crypto jwks call = some mark) :
    respond crypto jwks cache call =
      let checked := cache.checkAndMark mark.jti mark.exp call.now.val
      (if checked.1.isOk then [mark] else [], checked.2) := by
  cases call with
  | bundle bundle selfDeviceId now =>
      simp only [presented] at asked
      simp only [respond, verifyBundleLocally, HostCall.now, asU64_millis]
      split at asked
      case isTrue => cases asked
      case isFalse fresh =>
        rw [if_neg fresh]
        split at asked
        case isTrue => cases asked
        case isFalse ours =>
          obtain rfl := Option.some.inj asked
          rw [if_neg ours]
          exact noted_checked () _ _
  | kill envelope lookups now =>
      simp only [presented] at asked
      simp only [respond, verifyKillEnvelopeLocal, HostCall.now, asU64_millis]
      cases jwks with
      | false => cases asked
      | true =>
          simp only [if_true] at asked ⊢
          cases verified : verifySignedKillEnvelope crypto lookups envelope with
          | error e =>
              simp only [verified] at asked
              cases asked
          | ok payload =>
              simp only [verified] at asked
              simp only
              split at asked
              case isTrue => cases asked
              case isFalse fresh =>
                rw [if_neg fresh]
                split at asked
                case isTrue => cases asked
                case isFalse ours =>
                  obtain rfl := Option.some.inj asked
                  rw [if_neg ours]
                  exact noted_checked payload _ _

end Calls

end Qubox.Host
