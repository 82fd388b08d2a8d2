import Qubox.Media.ReedSolomon

/-!
# The parity controller

`FecController` turns a loss rate into the number of parity shards of the next
frame. Its thresholds are thousandths of a percent. The rate it is documented to
be given is `RateFeedback::loss_x1000`, which is in thousandths of the whole and
so a hundred times smaller for the same loss.
-/

namespace Qubox.Media

/-- Feedback of the receiver, as far as the controller reads it. -/
structure RateFeedback where
  /-- Loss rate times 1000, up to 1000. -/
  lossX1000 : UInt16
  deriving DecidableEq, Repr

structure LossThreshold where
  aboveX1000 : UInt32
  parityCount : Nat
  deriving DecidableEq, Repr

structure FecController where
  blockSize : Nat
  lastParity : Nat
  thresholds : List LossThreshold
  deriving DecidableEq, Repr

namespace FecController

def lossThresholds : List LossThreshold := [⟨5000, 4⟩, ⟨2000, 3⟩, ⟨1000, 2⟩, ⟨300, 1⟩]

def new (blockSize : Nat) : FecController where
  blockSize := max blockSize 1
  lastParity := 0
  thresholds := lossThresholds

def target (controller : FecController) (lossX1000 : UInt32) : Nat :=
  match controller.thresholds.find? (fun t => decide (t.aboveX1000 ≤ lossX1000)) with
  | some t => t.parityCount
  | none => 0

/-- The controller after the call; what the call returns is its `lastParity`. -/
def adjustForLoss (controller : FecController) (lossX1000 : UInt32) : FecController :=
  let target := controller.target lossX1000
  let next :=
    if target > controller.lastParity then min (controller.lastParity + 1) target
    else if target < controller.lastParity then target
    else controller.lastParity
  { controller with lastParity := next }

def force (controller : FecController) (parity : Nat) : FecController :=
  { controller with lastParity := min parity maxParityShards }

inductive Call where
  | adjustForLoss (lossX1000 : UInt32)
  | force (parity : Nat)
  deriving DecidableEq, Repr

def step (controller : FecController) : Call → FecController
  | .adjustForLoss lossX1000 => controller.adjustForLoss lossX1000
  | .force parity => controller.force parity

def run (controller : FecController) (calls : List Call) : FecController :=
  calls.foldl step controller

/-- The controller after it was given the same feedback a number of times. -/
def fed (controller : FecController) (feedback : RateFeedback) : Nat → FecController
  | 0 => controller
  | n + 1 => (controller.fed feedback n).adjustForLoss feedback.lossX1000.toUInt32

/-- The parity that the comments of `new` promise for a loss in thousandths. -/
structure Documented (lossX1000 parity : Nat) : Prop where
  one : 3 < lossX1000 → 1 ≤ parity
  two : 10 < lossX1000 → 2 ≤ parity
  three : 20 < lossX1000 → 3 ≤ parity
  four : 50 < lossX1000 → parity = 4

/-- Four times the same feedback bring the documented parity, and no call raises
the parity by more than one. -/
structure Responds (controller : FecController) (feedback : RateFeedback) : Prop where
  documented : Documented feedback.lossX1000.toNat (controller.fed feedback 4).lastParity
  gradual : ∀ n, (controller.fed feedback (n + 1)).lastParity ≤
    (controller.fed feedback n).lastParity + 1

/-! ## Runs -/

theorem run_thresholds (controller : FecController) (calls : List Call) :
    (controller.run calls).thresholds = controller.thresholds := by
  induction calls generalizing controller with
  | nil => rfl
  | cons call calls ih =>
      refine (ih _).trans ?_
      cases call <;> rfl

theorem target_congr {controller other : FecController} (loss : UInt32)
    (same : controller.thresholds = other.thresholds) :
    controller.target loss = other.target loss := by
  rw [target, target, same]

theorem fed_thresholds (controller : FecController) (feedback : RateFeedback) (n : Nat) :
    (controller.fed feedback n).thresholds = controller.thresholds := by
  induction n with
  | zero => rfl
  | succ n ih => exact ih

/-- One call moves towards the target, upwards by a single step. -/
theorem adjustForLoss_lastParity (controller : FecController) (loss : UInt32) :
    (controller.adjustForLoss loss).lastParity =
      min (controller.lastParity + 1) (controller.target loss) := by
  simp only [adjustForLoss]
  split
  · rfl
  · split <;> omega

theorem adjustForLoss_le (controller : FecController) (loss : UInt32) :
    (controller.adjustForLoss loss).lastParity ≤ controller.lastParity + 1 := by
  rw [adjustForLoss_lastParity]
  exact Nat.min_le_left _ _

theorem fed_lastParity (controller : FecController) (feedback : RateFeedback) (n : Nat) :
    (controller.fed feedback (n + 1)).lastParity =
      min (controller.lastParity + n + 1) (controller.target feedback.lossX1000.toUInt32) := by
  induction n with
  | zero => exact adjustForLoss_lastParity controller _
  | succ n ih =>
      have same := target_congr feedback.lossX1000.toUInt32
        (fed_thresholds controller feedback (n + 1))
      rw [fed, adjustForLoss_lastParity, ih, same]
      omega

/-- Whatever the controller has seen before, the fourth call reaches the target. -/
theorem fed_four {controller : FecController} (feedback : RateFeedback)
    (bounded : controller.target feedback.lossX1000.toUInt32 ≤ 4) :
    (controller.fed feedback 4).lastParity = controller.target feedback.lossX1000.toUInt32 := by
  rw [fed_lastParity]
  exact Nat.min_eq_right (by omega)

/-! ## Losses of a receiver -/

theorem target_new (blockSize : Nat) (loss : UInt32) :
    (new blockSize).target loss =
      if 5000 ≤ loss.toNat then 4
      else if 2000 ≤ loss.toNat then 3
      else if 1000 ≤ loss.toNat then 2
      else if 300 ≤ loss.toNat then 1
      else 0 := by
  simp only [target, new, lossThresholds, List.find?_cons, List.find?_nil, UInt32.le_iff_toNat_le]
  by_cases five : 5000 ≤ loss.toNat
  · simp [five]
  by_cases two : 2000 ≤ loss.toNat
  · simp [five, two]
  by_cases one : 1000 ≤ loss.toNat
  · simp [five, two, one]
  by_cases low : 300 ≤ loss.toNat
  · simp [five, two, one, low]
  · simp [five, two, one, low]

theorem responds_iff (blockSize : Nat) (calls : List Call) (feedback : RateFeedback)
    (rate : feedback.lossX1000.toNat ≤ 1000) :
    ((new blockSize).run calls).Responds feedback ↔ feedback.lossX1000.toNat ≤ 3 := by
  have goal := (target_congr feedback.lossX1000.toUInt32
    (run_thresholds (new blockSize) calls)).trans (target_new blockSize _)
  rw [UInt16.toNat_toUInt32] at goal
  have bounded : ((new blockSize).run calls).target feedback.lossX1000.toUInt32 ≤ 2 := by
    rw [goal]
    split_ifs <;> omega
  have reached := fed_four feedback (Nat.le_trans bounded (by decide))
  constructor
  · intro responds
    by_contra lossy
    have promised := responds.documented
    rw [reached] at promised
    have one := promised.one (by omega)
    -- A parity of one takes 300, which is a loss of 30% here and asks for four.
    have high : 300 ≤ feedback.lossX1000.toNat := by
      by_contra low
      rw [goal, if_neg (by omega), if_neg (by omega), if_neg (by omega), if_neg low] at one
      omega
    have four := promised.four (by omega)
    omega
  · intro small
    refine ⟨⟨?_, ?_, ?_, ?_⟩, fun n => adjustForLoss_le _ _⟩
    all_goals
      intro lossy
      omega

theorem threeThousandths_responds :
    ((new 4).run [.force 4]).Responds ⟨3⟩ :=
  (responds_iff 4 [.force 4] ⟨3⟩ (by decide)).mpr (by decide)

/-- At a loss of 1.2% the controller gives no parity at all. -/
theorem twelveThousandths_not_responds :
    ¬ ∀ (blockSize : Nat) (calls : List Call) (feedback : RateFeedback),
      feedback.lossX1000.toNat ≤ 1000 → ((new blockSize).run calls).Responds feedback := by
  intro always
  have two := (always 4 [] ⟨12⟩ (by decide)).documented.two (by decide)
  exact absurd two (by decide)

end FecController

end Qubox.Media
