import Qubox.Library.Checked

/-!
# The bitrate controller

The controller maps observations of delay and loss to a bitrate. What its floating
point does with the delay is given with an observation: whether the delay is above
the panic delay, and the state that `classify` returns. Times are nanoseconds.

The addition on the way up is checked and the maximum is applied after it, so the
maximum has to leave room for one more step.
-/

namespace Qubox.Host

inductive OveruseState where
  | normal
  | overuse
  | underuse
  deriving DecidableEq, Repr

/-- `Duration::from_millis`. -/
def millis (n : Nat) : Nat := n * 1000000

structure GccConfig where
  minBitrateBps : Nat := 500000
  maxBitrateBps : Nat := 20000000
  startBitrateBps : Nat := 1000000
  decreaseFactorQ12 : Nat := 3481
  increaseStepBps : Nat := 200000
  fastStartStepBps : Nat := 200000
  minReaction : Nat := millis 250
  /-- The fraction in thousandths, as losses are reported. -/
  panicLoss : Nat := 200
  panicFreeze : Nat := millis 1000
  deriving DecidableEq, Repr

structure Observation where
  time : Nat
  lossX1000 : UInt16
  late : Bool
  state : OveruseState
  deriving DecidableEq, Repr

structure GccRateController where
  cfg : GccConfig
  lastChange : Option Nat
  targetBitrateBps : Nat
  inFastStart : Bool
  panicUntil : Option Nat
  lastState : OveruseState
  deriving DecidableEq, Repr

def GccConfig.Panics (cfg : GccConfig) (o : Observation) : Prop :=
  o.late = true ∨ cfg.panicLoss < o.lossX1000.toNat

instance (cfg : GccConfig) (o : Observation) : Decidable (cfg.Panics o) :=
  inferInstanceAs (Decidable (_ ∨ _))

/-- The bounds are in order, and a step up from the maximum fits in the word. -/
structure GccConfig.Spacious (cfg : GccConfig) : Prop where
  ordered : cfg.minBitrateBps ≤ cfg.maxBitrateBps
  increase : cfg.maxBitrateBps + cfg.increaseStepBps < 2 ^ 32
  fastStart : cfg.maxBitrateBps + cfg.fastStartStepBps < 2 ^ 32

/-- `Ord::clamp`, which asserts that the bounds are in order. -/
def clamp (v low high : Nat) : Option Nat := if low ≤ high then some (max low (min v high)) else none

namespace GccRateController

def new (cfg : GccConfig) : GccRateController where
  cfg := cfg
  lastChange := none
  targetBitrateBps := cfg.startBitrateBps
  inFastStart := true
  panicUntil := none
  lastState := .normal

variable (c : GccRateController)

def Frozen (now : Nat) : Prop := ∃ release ∈ c.panicUntil, now < release

def AllowsChange (now : Nat) : Prop := ∀ last ∈ c.lastChange, c.cfg.minReaction ≤ now - last

instance (now : Nat) : Decidable (c.Frozen now) :=
  inferInstanceAs (Decidable (∃ release ∈ c.panicUntil, now < release))

instance (now : Nat) : Decidable (c.AllowsChange now) :=
  inferInstanceAs (Decidable (∀ last ∈ c.lastChange, c.cfg.minReaction ≤ now - last))

def probeUp (step : Nat) : Option Nat := do
  return min (← Checked.word 32 (c.targetBitrateBps + step)) c.cfg.maxBitrateBps

/-- The product with the factor is exact, and its fraction is cut off. -/
def backOff : Nat := c.targetBitrateBps * c.cfg.decreaseFactorQ12 / 4096

/-- The bitrate before it is clamped. -/
def proposed (state : OveruseState) : Option Nat :=
  if c.inFastStart then
    match state with
    | .overuse => some c.backOff
    | .normal | .underuse => c.probeUp c.cfg.fastStartStepBps
  else
    match state with
    | .overuse => some c.backOff
    | .underuse => c.probeUp c.cfg.increaseStepBps
    | .normal => some c.targetBitrateBps

/-- The controller after an observation; its target is what the call returns. -/
def onObservation (o : Observation) : Option GccRateController :=
  if c.cfg.Panics o then
    some { c with
      targetBitrateBps := c.cfg.minBitrateBps
      panicUntil := some (o.time + c.cfg.panicFreeze)
      inFastStart := false
      lastState := .overuse
      lastChange := some o.time }
  else if c.Frozen o.time then some c
  else if c.AllowsChange o.time then do
    let target ← clamp (← c.proposed o.state) c.cfg.minBitrateBps c.cfg.maxBitrateBps
    return { c with
      targetBitrateBps := target
      panicUntil := none
      inFastStart := c.inFastStart && o.state != .overuse
      lastState := o.state
      lastChange := some o.time }
  else some { c with panicUntil := none, lastState := o.state }

variable {c : GccRateController} {o : Observation} {c' : GccRateController}

/-! ## What an observation can do -/

/-- An observation starts a panic, meets the freeze, meets the reaction gate, or sets
a target. -/
inductive Reacts (c : GccRateController) (o : Observation) : GccRateController → Prop
  | panic (panics : c.cfg.Panics o) : Reacts c o { c with
      targetBitrateBps := c.cfg.minBitrateBps
      panicUntil := some (o.time + c.cfg.panicFreeze)
      inFastStart := false
      lastState := .overuse
      lastChange := some o.time }
  | frozen (calm : ¬ c.cfg.Panics o) (frozen : c.Frozen o.time) : Reacts c o c
  | gated (calm : ¬ c.cfg.Panics o) (thawed : ¬ c.Frozen o.time) :
      Reacts c o { c with panicUntil := none, lastState := o.state }
  | set (calm : ¬ c.cfg.Panics o) (thawed : ¬ c.Frozen o.time) (allowed : c.AllowsChange o.time)
      (target : Nat) (low : c.cfg.minBitrateBps ≤ target) (high : target ≤ c.cfg.maxBitrateBps) :
      Reacts c o { c with
        targetBitrateBps := target
        panicUntil := none
        inFastStart := c.inFastStart && o.state != .overuse
        lastState := o.state
        lastChange := some o.time }

theorem clamp_eq_some {v low high target : Nat} (clamped : clamp v low high = some target) :
    low ≤ target ∧ target ≤ high := by
  rw [clamp] at clamped
  split at clamped
  · cases clamped
    omega
  · cases clamped

theorem reacts (observed : c.onObservation o = some c') : Reacts c o c' := by
  rw [onObservation] at observed
  split at observed
  case isTrue panics =>
    cases observed
    exact .panic panics
  case isFalse calm =>
    split at observed
    case isTrue frozen =>
      cases observed
      exact .frozen calm frozen
    case isFalse thawed =>
      split at observed
      case isTrue allowed =>
        obtain ⟨next, -, clamped⟩ := Option.bind_eq_some_iff.mp observed
        obtain ⟨target, bounds, same⟩ := Option.bind_eq_some_iff.mp clamped
        cases same
        obtain ⟨low, high⟩ := clamp_eq_some bounds
        exact .set calm thawed allowed target low high
      case isFalse =>
        cases observed
        exact .gated calm thawed

theorem Reacts.cfg (reacts : Reacts c o c') : c'.cfg = c.cfg := by
  cases reacts <;> rfl

/-! ## The bounds -/

theorem probeUp_isSome {step : Nat} (room : c.targetBitrateBps + step < 2 ^ 32) :
    (c.probeUp step).isSome := by
  rw [probeUp, Checked.word_eq room]
  rfl

theorem proposed_isSome (spacious : c.cfg.Spacious) (high : c.targetBitrateBps ≤ c.cfg.maxBitrateBps)
    (state : OveruseState) : (c.proposed state).isSome := by
  have increase := spacious.increase
  have fastStart := spacious.fastStart
  rw [proposed.eq_def]
  split
  · split
    · rfl
    · exact probeUp_isSome (by omega)
    · exact probeUp_isSome (by omega)
  · split
    · rfl
    · exact probeUp_isSome (by omega)
    · rfl

/-- No observation overflows where the bounds leave room. -/
theorem onObservation_isSome (spacious : c.cfg.Spacious)
    (high : c.targetBitrateBps ≤ c.cfg.maxBitrateBps) (o : Observation) :
    ∃ c', c.onObservation o = some c' := by
  obtain ⟨next, proposed⟩ := Option.isSome_iff_exists.mp (proposed_isSome spacious high o.state)
  rw [onObservation]
  split
  · exact ⟨_, rfl⟩
  · split
    · exact ⟨_, rfl⟩
    · split
      · rw [proposed, Option.bind_eq_bind, Option.bind_some, clamp, if_pos spacious.ordered]
        exact ⟨_, rfl⟩
      · exact ⟨_, rfl⟩

theorem Reacts.high (reacts : Reacts c o c') (ordered : c.cfg.minBitrateBps ≤ c.cfg.maxBitrateBps)
    (high : c.targetBitrateBps ≤ c.cfg.maxBitrateBps) :
    c'.targetBitrateBps ≤ c'.cfg.maxBitrateBps := by
  cases reacts with
  | panic => exact ordered
  | frozen | gated => exact high
  | set calm thawed allowed target low below => exact below

/-- What holds between observations: the target is in bounds, a panic that is not over
keeps it at the minimum, and no recorded time is in the future. -/
structure Steady (c : GccRateController) (now : Nat) : Prop where
  low : c.cfg.minBitrateBps ≤ c.targetBitrateBps
  high : c.targetBitrateBps ≤ c.cfg.maxBitrateBps
  frozen : ∀ release ∈ c.panicUntil,
    c.targetBitrateBps = c.cfg.minBitrateBps ∧ release ≤ now + c.cfg.panicFreeze
  past : ∀ last ∈ c.lastChange, last ≤ now

theorem Reacts.steady (reacts : Reacts c o c') (ordered : c.cfg.minBitrateBps ≤ c.cfg.maxBitrateBps)
    {now : Nat} (steady : c.Steady now) (later : now ≤ o.time) : c'.Steady o.time := by
  cases reacts with
  | panic panics =>
      refine ⟨Nat.le_refl _, ordered, ?_, ?_⟩
      · rintro _ ⟨⟩
        exact ⟨rfl, Nat.le_refl _⟩
      · rintro _ ⟨⟩
        exact Nat.le_refl _
  | frozen calm frozen =>
      refine ⟨steady.low, steady.high, ?_, ?_⟩
      · intro release pending
        have pendingRelease := steady.frozen release pending
        exact ⟨pendingRelease.1, by omega⟩
      · intro last changed
        exact Nat.le_trans (steady.past last changed) later
  | gated calm thawed =>
      refine ⟨steady.low, steady.high, nofun, ?_⟩
      intro last changed
      exact Nat.le_trans (steady.past last changed) later
  | set calm thawed allowed target low high =>
      refine ⟨low, high, nofun, ?_⟩
      rintro _ ⟨⟩
      exact Nat.le_refl _

/-! ## The ramp -/

/-- A report of a link on which nothing is wrong. -/
def quiet (now : Nat) : Observation := ⟨now, 0, false, .normal⟩

/-- The controller is in fast start and may change the target. -/
structure Ramping (c : GccRateController) (now : Nat) : Prop where
  inFastStart : c.inFastStart = true
  calm : c.panicUntil = none
  allowed : c.AllowsChange now
  low : c.cfg.minBitrateBps ≤ c.targetBitrateBps
  high : c.targetBitrateBps ≤ c.cfg.maxBitrateBps

variable {now : Nat}

/-- A quiet report takes a step up, before the maximum is applied. -/
theorem Ramping.onObservation (ramping : c.Ramping now) :
    c.onObservation (quiet now) =
      if c.targetBitrateBps + c.cfg.fastStartStepBps < 2 ^ 32 then
        some { c with
          targetBitrateBps := min (c.targetBitrateBps + c.cfg.fastStartStepBps) c.cfg.maxBitrateBps
          lastState := .normal
          lastChange := some now }
      else none := by
  have low := ramping.low
  have high := ramping.high
  have fine : ¬ c.cfg.Panics (quiet now) := by
    rintro (late | lossy)
    · cases late
    · exact absurd lossy (Nat.not_lt_zero _)
  have thawed : ¬ c.Frozen (quiet now).time := by
    rintro ⟨release, pending, -⟩
    exact nomatch ramping.calm.symm.trans pending
  have allowed : c.AllowsChange (quiet now).time := ramping.allowed
  have up : c.proposed (quiet now).state = c.probeUp c.cfg.fastStartStepBps := by
    rw [proposed.eq_def, if_pos ramping.inFastStart]
    rfl
  rw [GccRateController.onObservation, if_neg fine, if_neg thawed, if_pos allowed, up, probeUp,
    Checked.word]
  split
  case isTrue fits =>
    have bounds : clamp (min (c.targetBitrateBps + c.cfg.fastStartStepBps) c.cfg.maxBitrateBps)
        c.cfg.minBitrateBps c.cfg.maxBitrateBps =
          some (min (c.targetBitrateBps + c.cfg.fastStartStepBps) c.cfg.maxBitrateBps) := by
      rw [clamp, if_pos (Nat.le_trans low high)]
      congr 1
      omega
    simp [bounds, quiet, ramping.inFastStart, ramping.calm]
  case isFalse => rfl

end GccRateController

end Qubox.Host
