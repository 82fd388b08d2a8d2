import Qubox.Signaling.Call
import Qubox.Signaling.SingleUse

/-!
# Cloud-signed bundles

The three entry points for bundles open them alike and then compare `exp`, a
signed number in every payload, as an unsigned one. The comparison is right as
long as the number is not negative; a negative one counts as far in the future.

`apply_signed_kill` removes the session first, and an identifier that is no UUID
ends the call before the kill is entered in the cache.
-/

namespace Qubox.Signaling

open Interaction

/-! ## Opening a bundle -/

section Opening

variable (cfg : Config) (s : Server) (envelope : SignedBundle)

/-- The signature verifies under the key that is known for the `kid`. -/
def SignatureVerifies : Prop :=
  ∃ key, s.env.jwksLookup envelope.kid = .ok key ∧ cfg.verifySignature envelope key = .ok ()

/-- The envelope opens to this payload. -/
structure Opens {α : Type} (payload : SignedBundle → Except SignedBundleError α) (p : α) :
    Prop where
  configured : cfg.jwks = true
  verified : ∃ key, s.env.jwksLookup envelope.kid = .ok key ∧ cfg.verifyingKey key = .ok () ∧
    cfg.verifySignature envelope key = .ok ()
  read : payload envelope = .ok p

variable {cfg s envelope} {α : Type} {payload : SignedBundle → Except SignedBundleError α} {p : α}
  {s' : Server}

theorem Opens.signature (opens : Opens cfg s envelope payload p) :
    SignatureVerifies cfg s envelope := by
  obtain ⟨key, found, -, verified⟩ := opens.verified
  exact ⟨key, found, verified⟩

theorem run_liftExcept_ok {ε ε' β : Type} {wrap : ε → ε'} {result : Except ε β} {b : β}
    (ok : machine.run (liftExcept wrap result) s = (.ok b, s')) : result = .ok b ∧ s = s' := by
  cases result with
  | error e => cases ok
  | ok a =>
      cases ok
      exact ⟨rfl, rfl⟩

theorem run_verifyBundle_ok (verified : machine.run (verifyBundle cfg envelope) s = (.ok (), s')) :
    s = s' := by
  rw [verifyBundle, run_perform_bind] at verified
  obtain ⟨key, s₁, looked, checks⟩ := machine.run_bind_ok verified
  obtain ⟨_, s₂, parsed, last⟩ := machine.run_bind_ok checks
  exact (run_liftExcept_ok looked).2.trans
    ((run_liftExcept_ok parsed).2.trans (run_liftExcept_ok last).2)

theorem opens_of_run (opened : machine.run (decodeBundle cfg payload envelope) s = (.ok p, s')) :
    Opens cfg s envelope payload p ∧ s = s' := by
  unfold decodeBundle at opened
  split at opened
  case isFalse => cases congrArg Prod.fst opened
  case isTrue configured =>
    obtain ⟨_, s₁, verified, looking⟩ := machine.run_bind_ok opened
    obtain rfl := run_verifyBundle_ok verified
    rw [run_perform_bind] at looking
    obtain ⟨key, s₂, looked, parsing⟩ := machine.run_bind_ok looking
    obtain ⟨found, rfl⟩ := run_liftExcept_ok looked
    obtain ⟨_, s₃, parsed, checking⟩ := machine.run_bind_ok parsing
    obtain ⟨valid, rfl⟩ := run_liftExcept_ok parsed
    obtain ⟨_, s₄, checked, reading⟩ := machine.run_bind_ok checking
    obtain ⟨signature, rfl⟩ := run_liftExcept_ok checked
    obtain ⟨read, same⟩ := run_liftExcept_ok reading
    exact ⟨⟨configured, ⟨key, found, valid, signature⟩, read⟩, same⟩

theorem Opens.run (opens : Opens cfg s envelope payload p) :
    machine.run (decodeBundle cfg payload envelope) s = (.ok p, s) := by
  obtain ⟨configured, ⟨key, found, valid, signature⟩, read⟩ := opens
  have verified : machine.run (verifyBundle cfg envelope) s = (.ok (), s) := by
    rw [verifyBundle, run_perform_bind]
    simp only [Server.exec, found, liftExcept, Program.done_bind, valid, signature]
    rfl
  rw [decodeBundle, if_pos configured, machine.run_bind, verified, Machine.resume_ok,
    run_perform_bind]
  simp only [Server.exec, found, liftExcept, Program.done_bind, valid, signature, read]
  rfl

/-- The envelope opens, and the program goes on with the payload. -/
theorem Opens.run_bind {β : Type} (opens : Opens cfg s envelope payload p)
    (rest : α → BundleOp β) :
    machine.run (decodeBundle cfg payload envelope >>= rest) s = machine.run (rest p) s := by
  rw [machine.run_bind, opens.run, Machine.resume_ok]

end Opening

/-! ## What each entry point checks -/

section Checks

variable (cfg : Config) (s : Server) (envelope : SignedBundle) (hostDeviceId : Uuid) (now : Nat)

/-- The payload passes `verify_viewer_to_host`. -/
structure ViewerPasses (p : ViewerToHost) : Prop where
  opens : Opens cfg s envelope cfg.payloadViewerToHost p
  audience : p.aud = hostDeviceId.toText
  unexpired : now < asU64 p.exp
  valid : JtiCache.validateJti p.jti = .ok ()
  undenied : s.state.jtiCache.isDenied p.jti now = false
  unseen : s.state.jtiCache.isSeen p.jti now = false
  room : s.state.jtiCache.HasRoom p.jti now

/-- The payload passes `verify_ice_allowlist`. -/
structure AllowlistPasses (p : IceAllowlist) : Prop where
  opens : Opens cfg s envelope cfg.payloadIceAllowlist p
  unexpired : now < asU64 p.exp

/-- The payload passes `apply_signed_kill`. -/
structure KillPasses (p : SignedKill) : Prop where
  opens : Opens cfg s envelope cfg.payloadSignedKill p
  unexpired : now < asU64 p.exp
  named : (cfg.parseUuid p.sid).isSome = true

variable {cfg s envelope hostDeviceId now} {s' : Server}

theorem viewerPasses_of_run {p : ViewerToHost}
    (accepted : machine.run (verifyViewerToHost cfg envelope hostDeviceId now) s = (.ok p, s')) :
    ViewerPasses cfg s envelope hostDeviceId now p ∧ s'.state.jtiCache =
      (s.state.jtiCache.checkAndMark p.jti (asU64 p.exp) now).2 := by
  obtain ⟨q, s₁, opened, checking⟩ := machine.run_bind_ok accepted
  obtain ⟨opens, rfl⟩ := opens_of_run opened
  obtain ⟨_, s₂, audience, checking⟩ := machine.run_bind_ok checking
  obtain ⟨addressed, rfl⟩ := run_require_ok audience
  obtain ⟨_, s₃, expiry, marking⟩ := machine.run_bind_ok checking
  obtain ⟨unexpired, rfl⟩ := run_require_ok expiry
  rw [run_perform_bind] at marking
  obtain ⟨_, s₄, marked, returned⟩ := machine.run_bind_ok marking
  obtain ⟨fresh, rfl⟩ := run_liftExcept_ok marked
  cases returned
  obtain ⟨valid, undenied, unseen, room⟩ := JtiCache.checkAndMark_isOk_iff.mp
    (show (s.state.jtiCache.checkAndMark p.jti (asU64 p.exp) now).1.isOk = true from
      congrArg Except.isOk fresh)
  exact ⟨⟨opens, of_decide_eq_true addressed, of_decide_eq_true unexpired, valid, undenied, unseen,
    room⟩, rfl⟩

theorem ViewerPasses.run {p : ViewerToHost}
    (passes : ViewerPasses cfg s envelope hostDeviceId now p) :
    machine.run (verifyViewerToHost cfg envelope hostDeviceId now) s =
      (.ok p, (Server.exec (.checkAndMark p.jti (asU64 p.exp) now) s).2) := by
  have accepted : (Server.exec (.checkAndMark p.jti (asU64 p.exp) now) s).1 = .ok () :=
    JtiCache.ok_of_isOk (JtiCache.checkAndMark_isOk_iff.mpr
      ⟨passes.valid, passes.undenied, passes.unseen, passes.room⟩)
  rw [verifyViewerToHost, passes.opens.run_bind]
  simp only [require, passes.audience, passes.unexpired, decide_true, if_true, Program.done_bind]
  rw [run_perform_bind, accepted]
  rfl

theorem allowlistPasses_of_run {p : IceAllowlist}
    (accepted : machine.run (verifyIceAllowlist cfg envelope now) s = (.ok p, s')) :
    AllowlistPasses cfg s envelope now p := by
  obtain ⟨q, s₁, opened, checking⟩ := machine.run_bind_ok accepted
  obtain ⟨opens, rfl⟩ := opens_of_run opened
  obtain ⟨_, s₂, expiry, returned⟩ := machine.run_bind_ok checking
  obtain ⟨unexpired, rfl⟩ := run_require_ok expiry
  cases returned
  exact ⟨opens, of_decide_eq_true unexpired⟩

theorem AllowlistPasses.run {p : IceAllowlist} (passes : AllowlistPasses cfg s envelope now p) :
    machine.run (verifyIceAllowlist cfg envelope now) s = (.ok p, s) := by
  rw [verifyIceAllowlist, passes.opens.run_bind]
  simp only [require, passes.unexpired, decide_true, if_true]
  rfl

theorem killPasses_of_run {p : SignedKill}
    (applied : machine.run (applySignedKill cfg envelope now) s = (.ok p, s')) :
    KillPasses cfg s envelope now p := by
  obtain ⟨q, s₁, opened, checking⟩ := machine.run_bind_ok applied
  obtain ⟨opens, rfl⟩ := opens_of_run opened
  obtain ⟨_, s₂, expiry, naming⟩ := machine.run_bind_ok checking
  obtain ⟨unexpired, rfl⟩ := run_require_ok expiry
  obtain ⟨sessionId, s₃, named, killing⟩ := machine.run_bind_ok naming
  rw [run_perform_bind] at killing
  obtain ⟨_, s₄, -, denying⟩ := machine.run_bind_ok killing
  cases denying
  refine ⟨opens, of_decide_eq_true unexpired, ?_⟩
  cases found : cfg.parseUuid p.sid with
  | none =>
      rw [found] at named
      cases named
  | some id => rfl

/-- Telling the peers of a killed session cannot fail. -/
theorem run_announceKill (cfg : Config) (payload : SignedKill) (sessionId : Uuid)
    (session : Option ActiveSession) (s : Server) :
    ∃ s', machine.run (announceKill cfg payload sessionId session) s = (.ok (), s') := by
  cases session with
  | none => exact ⟨s, rfl⟩
  | some session =>
      rw [announceKill, machine.run_bind, run_ignore, Machine.resume_ok, run_ignore]
      exact ⟨_, rfl⟩

/-- A kill that passes is entered in whatever the cache is by then. -/
theorem KillPasses.run {p : SignedKill} (passes : KillPasses cfg s envelope now p) :
    ∃ s₁ : Server, machine.run (applySignedKill cfg envelope now) s =
      (.ok p, (Server.exec (.denylist p.jti (asU64 p.exp)) s₁).2) := by
  obtain ⟨sessionId, named⟩ := Option.isSome_iff_exists.mp passes.named
  rw [applySignedKill, passes.opens.run_bind]
  simp only [require, passes.unexpired, decide_true, if_true, Program.done_bind, named, orFail]
  rw [run_perform_bind, machine.run_bind]
  obtain ⟨s₁, announced⟩ := run_announceKill cfg p sessionId
    (Server.exec (.removeSession sessionId) s).1 (Server.exec (.removeSession sessionId) s).2
  rw [announced]
  exact ⟨s₁, rfl⟩

end Checks

/-! ## Expiry -/

theorem lt_of_lt_asU64 {now : Nat} {exp : Int} (nonneg : 0 ≤ exp) (early : now < asU64 exp) :
    (now : Int) < exp := by
  unfold asU64 at early
  omega

theorem asU64_of_lt {exp : Int} (nonneg : 0 ≤ exp) (small : exp < 2 ^ 63) :
    (asU64 exp : Int) = exp := by
  unfold asU64
  omega

section Expiry

variable (cfg : Config) (s : Server) (envelope : SignedBundle) (hostDeviceId : Uuid) (now : Nat)

/-- What the acceptance of a viewer's bundle stands for. -/
structure GenuineBundle (s' : Server) (p : ViewerToHost) : Prop where
  signature : SignatureVerifies cfg s envelope
  audience : p.aud = hostDeviceId.toText
  unexpired : (now : Int) < p.exp
  unseen : s.state.jtiCache.isSeen p.jti now = false
  undenied : s.state.jtiCache.isDenied p.jti now = false
  marked : s'.state.jtiCache.isSeen p.jti now = true

/-- Only genuine bundles are accepted, and none of the three kinds after the
signed value of `exp`. -/
structure AcceptsGenuine : Prop where
  viewer : ∀ p s',
    machine.run (verifyViewerToHost cfg envelope hostDeviceId now) s = (.ok p, s') →
      GenuineBundle cfg s envelope hostDeviceId now s' p
  allowlist : ∀ p s', machine.run (verifyIceAllowlist cfg envelope now) s = (.ok p, s') →
    (now : Int) < p.exp
  kill : ∀ p s', machine.run (applySignedKill cfg envelope now) s = (.ok p, s') →
    (now : Int) < p.exp

/-- No payload that passes the checks has a negative `exp`. -/
structure Dated : Prop where
  viewer : ∀ p, ViewerPasses cfg s envelope hostDeviceId now p → 0 ≤ p.exp
  allowlist : ∀ p, AllowlistPasses cfg s envelope now p → 0 ≤ p.exp
  kill : ∀ p, KillPasses cfg s envelope now p → 0 ≤ p.exp

theorem acceptsGenuine_iff :
    AcceptsGenuine cfg s envelope hostDeviceId now ↔ Dated cfg s envelope hostDeviceId now := by
  constructor
  · intro accepts
    refine ⟨fun p passes => ?_, fun p passes => ?_, fun p passes => ?_⟩
    · have unexpired := (accepts.viewer p _ passes.run).unexpired
      omega
    · have unexpired := accepts.allowlist p s passes.run
      omega
    · obtain ⟨s₁, applied⟩ := passes.run
      have unexpired := accepts.kill p _ applied
      omega
  · intro dated
    refine ⟨fun p s' accepted => ?_, fun p s' accepted => ?_, fun p s' applied => ?_⟩
    · obtain ⟨passes, cache⟩ := viewerPasses_of_run accepted
      refine ⟨passes.opens.signature, passes.audience,
        lt_of_lt_asU64 (dated.viewer p passes) passes.unexpired, passes.unseen, passes.undenied, ?_⟩
      have fresh : (s.state.jtiCache.checkAndMark p.jti (asU64 p.exp) now).1 = .ok () :=
        JtiCache.ok_of_isOk (JtiCache.checkAndMark_isOk_iff.mpr
          ⟨passes.valid, passes.undenied, passes.unseen, passes.room⟩)
      rw [cache]
      exact JtiCache.isSeen_of_lasts (JtiCache.checkAndMark_accepts fresh) passes.unexpired
    · have passes := allowlistPasses_of_run accepted
      exact lt_of_lt_asU64 (dated.allowlist p passes) passes.unexpired
    · have passes := killPasses_of_run applied
      exact lt_of_lt_asU64 (dated.kill p passes) passes.unexpired

end Expiry

/-! ## Kills -/

section Kills

variable (cfg : Config) (s : Server) (envelope : SignedBundle) (now : Nat)

/-- A verified kill that is still to run out. Its `exp` is an `i64`. -/
structure LiveKill (kill : SignedKill) : Prop where
  opens : Opens cfg s envelope cfg.payloadSignedKill kill
  positive : 0 < kill.exp
  small : kill.exp < 2 ^ 63
  unexpired : (now : Int) < kill.exp
  valid : JtiCache.validateJti kill.jti = .ok ()

/-- A live kill is in force when `apply_signed_kill` has returned. -/
def KillEnforced : Prop :=
  ∀ kill, LiveKill cfg s envelope now kill →
    (machine.run (applySignedKill cfg envelope now) s).2.state.jtiCache.isDenied kill.jti now = true

variable {cfg s envelope now} {kill : SignedKill}

/-- A kill whose session id is no UUID leaves the server as it is. -/
theorem run_applySignedKill_malformed (opens : Opens cfg s envelope cfg.payloadSignedKill kill)
    (unexpired : now < asU64 kill.exp) (malformed : cfg.parseUuid kill.sid = none) :
    machine.run (applySignedKill cfg envelope now) s = (.error (.malformedSid kill.sid), s) := by
  rw [applySignedKill, opens.run_bind]
  simp only [require, unexpired, decide_true, if_true, Program.done_bind, malformed, orFail]
  rfl

theorem LiveKill.early (live : LiveKill cfg s envelope now kill) : now < asU64 kill.exp := by
  have same : (asU64 kill.exp : Int) = kill.exp :=
    asU64_of_lt (Int.le_of_lt live.positive) live.small
  have unexpired := live.unexpired
  omega

theorem LiveKill.isDenied_iff (live : LiveKill cfg s envelope now kill) :
    (machine.run (applySignedKill cfg envelope now) s).2.state.jtiCache.isDenied kill.jti now =
        true ↔
      (cfg.parseUuid kill.sid).isSome = true ∨ s.state.jtiCache.isDenied kill.jti now = true := by
  cases named : cfg.parseUuid kill.sid with
  | none =>
      rw [run_applySignedKill_malformed live.opens live.early named]
      simp only [Option.isSome_none, Bool.false_eq_true, false_or]
  | some sessionId =>
      have passes : KillPasses cfg s envelope now kill :=
        ⟨live.opens, live.early, by rw [named]; rfl⟩
      obtain ⟨s₁, applied⟩ := passes.run
      have denied : (s₁.state.jtiCache.denylist kill.jti (asU64 kill.exp)).2.isDenied
          kill.jti now = true := by
        rw [JtiCache.denylist_eq live.valid]
        exact JtiCache.isDenied_of_lasts (JtiCache.lasts_insert_self le_rfl) live.early
      rw [applied]
      exact iff_of_true denied (.inl rfl)

/-- A live kill takes effect exactly when its session id is a UUID, unless the
identifier was denied before. -/
theorem killEnforced_iff (cfg : Config) (s : Server) (envelope : SignedBundle) (now : Nat) :
    KillEnforced cfg s envelope now ↔ ∀ kill, LiveKill cfg s envelope now kill →
      (cfg.parseUuid kill.sid).isSome = true ∨ s.state.jtiCache.isDenied kill.jti now = true := by
  constructor
  · intro enforced kill live
    exact live.isDenied_iff.mp (enforced kill live)
  · intro condition kill live
    exact live.isDenied_iff.mpr (condition kill live)

end Kills

namespace Sample

/-- A server that trusts the cloud's key and is sent these payloads. -/
def cloudConfig (viewer : ViewerToHost) (kill : SignedKill) : Config :=
  { config with
    jwks := true
    payloadViewerToHost := fun _ => .ok viewer
    payloadSignedKill := fun _ => .ok kill }

def cloudServer : Server :=
  { server [] with env := { env with jwksLookup := fun _ => .ok 9 } }

def envelope : SignedBundle := ⟨"k", 1, "payload", "signature"⟩

/-- It ran out a millisecond before the epoch. -/
def ancientViewer : ViewerToHost :=
  ⟨1, "v", "7", "2", (1 : Uuid).toText, 0, -1, {}, "", none⟩

/-- A kill of one of the session identifiers that the cloud gives out. -/
def cloudKill : SignedKill := ⟨1, "v", "sid_1", "host", "operator", 0, 5000, ""⟩

theorem liveKill : LiveKill (cloudConfig ancientViewer cloudKill) cloudServer envelope 1000
    cloudKill :=
  ⟨⟨rfl, ⟨9, rfl, rfl, rfl⟩, rfl⟩, by decide, by decide, by decide, by decide⟩

end Sample

/-- A bundle that ran out in 1969 is accepted. -/
theorem ancientViewer_not_acceptsGenuine :
    ¬ AcceptsGenuine (Sample.cloudConfig Sample.ancientViewer Sample.cloudKill)
      Sample.cloudServer Sample.envelope 1 1000 := by
  intro accepts
  have accepted : (machine.run (verifyViewerToHost
      (Sample.cloudConfig Sample.ancientViewer Sample.cloudKill) Sample.envelope 1 1000)
        Sample.cloudServer).1 = .ok Sample.ancientViewer := by
    decide
  exact absurd (accepts.viewer _ _ (Prod.ext accepted rfl)).unexpired (by decide)

/-- The kill is refused for its session identifier and its bundle stays usable. -/
theorem cloudKill_not_killEnforced :
    ¬ KillEnforced (Sample.cloudConfig Sample.ancientViewer Sample.cloudKill)
      Sample.cloudServer Sample.envelope 1000 := by
  intro enforced
  have usable : (machine.run (applySignedKill
      (Sample.cloudConfig Sample.ancientViewer Sample.cloudKill) Sample.envelope 1000)
        Sample.cloudServer).2.state.jtiCache.isDenied "v" 1000 = false := by
    decide
  cases (enforced Sample.cloudKill Sample.liveKill).symm.trans usable

end Qubox.Signaling
