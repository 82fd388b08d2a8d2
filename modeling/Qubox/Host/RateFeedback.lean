import Mathlib.Data.List.Chain
import Qubox.Control
import Qubox.Host.RateControl

/-!
# Rate feedback

The loop feeds the controller with the client's reports and passes a changed bitrate
on at most once a second. A run is seen as its moments, one for every report that
the controller was given.

The rules of the controller and of the loop hold together in every run of a session
whose configured bitrate leaves room for a step above the maximum. In any other
session the ramp at the start overflows after finitely many quiet reports.
-/

namespace Qubox.Host

def coalesceInterval : Nat := millis 1000

/-- A message from the control channel, the time, and what the floating point of the
controller makes of the delay in it. -/
structure FeedbackArrival where
  time : Nat
  msg : ControlMsg
  late : Bool
  state : OveruseState

/-- Other messages are ignored. -/
def FeedbackArrival.observation? (a : FeedbackArrival) : Option Observation :=
  match a.msg with
  | .rateFeedback fb =>
      some { time := a.time, lossX1000 := fb.lossX1000, late := a.late, state := a.state }
  | _ => none

/-- One report: the bitrate before it, the bitrate that `on_observation` returns, and
whether that is passed on. -/
structure Moment where
  observation : Observation
  before : Nat
  after : Nat
  emitted : Bool
  deriving DecidableEq, Repr

structure FeedbackLoop where
  controller : GccRateController
  lastEmittedBps : Option Nat
  lastCoalesceAt : Option Nat
  deriving DecidableEq, Repr

namespace FeedbackLoop

def start (cfg : GccConfig) : FeedbackLoop := ⟨.new cfg, none, none⟩

variable (s : FeedbackLoop)

def Due (now : Nat) : Prop := ∀ last ∈ s.lastCoalesceAt, coalesceInterval ≤ now - last

instance (now : Nat) : Decidable (s.Due now) :=
  inferInstanceAs (Decidable (∀ last ∈ s.lastCoalesceAt, coalesceInterval ≤ now - last))

def step (o : Observation) : Option (FeedbackLoop × Moment) := do
  let controller ← s.controller.onObservation o
  let newBps := controller.targetBitrateBps
  let moment (emitted : Bool) : Moment := ⟨o, s.controller.targetBitrateBps, newBps, emitted⟩
  if s.Due o.time ∧ s.lastEmittedBps ≠ some newBps then
    return (⟨controller, some newBps, some o.time⟩, moment true)
  else
    return ({ s with controller }, moment false)

/-- The moments of a run; no result stands for a panic. -/
def run (s : FeedbackLoop) : List Observation → Option (List Moment)
  | [] => some []
  | o :: rest => do
    let stepped ← s.step o
    return stepped.2 :: (← stepped.1.run rest)

end FeedbackLoop

/-- `a.saturating_mul(b)` for a `u32`. -/
def saturatingMulU32 (a b : Nat) : Nat := min (a * b) (2 ^ 32 - 1)

/-- What `run_single_stream_session` makes of the configured bitrate. -/
def sessionConfig (mediaBitrateKbps : UInt32) : GccConfig :=
  let initial := max (saturatingMulU32 mediaBitrateKbps.toNat 1000) 500000
  { minBitrateBps := 500000
    maxBitrateBps := max (saturatingMulU32 initial 2) 2000000
    startBitrateBps := initial }

def rateFeedbackLoop (mediaBitrateKbps : UInt32) (arrivals : List FeedbackArrival) :
    Option (List Moment) :=
  (FeedbackLoop.start (sessionConfig mediaBitrateKbps)).run
    (arrivals.filterMap FeedbackArrival.observation?)

/-! ## The rules -/

namespace Moment

def time (m : Moment) : Nat := m.observation.time

/-- The bitrate changes, and not because of a panic. -/
def Changes (cfg : GccConfig) (m : Moment) : Prop :=
  m.before ≠ m.after ∧ ¬ cfg.Panics m.observation

def Lossy (cfg : GccConfig) (m : Moment) : Prop := cfg.panicLoss < m.observation.lossX1000.toNat

end Moment

/-- The rules that bounds, freeze, reaction gate and coalescing keep together. -/
structure Regulated (cfg : GccConfig) (trace : List Moment) : Prop where
  bounded : ∀ m ∈ trace, cfg.minBitrateBps ≤ m.after ∧ m.after ≤ cfg.maxBitrateBps
  dropped : ∀ m ∈ trace, m.Lossy cfg → m.after = cfg.minBitrateBps
  frozen : trace.Pairwise fun m n =>
    m.Lossy cfg → n.time < m.time + cfg.panicFreeze → n.after = cfg.minBitrateBps
  paced : trace.Pairwise fun m n =>
    m.Changes cfg → n.Changes cfg → m.time + cfg.minReaction ≤ n.time
  spaced : (trace.filter Moment.emitted).Pairwise fun m n => m.time + coalesceInterval ≤ n.time
  fresh : (trace.filter Moment.emitted).IsChain fun m n => m.after ≠ n.after
  current : ∀ earlier m later, trace = earlier ++ m :: later → m.emitted = false →
    (∀ last ∈ (earlier.filter Moment.emitted).getLast?, last.time + coalesceInterval ≤ m.time) →
    ∃ last ∈ (earlier.filter Moment.emitted).getLast?, last.after = m.after

/-- In every run of the session on reports in order nothing overflows, and the rules
are kept. -/
def Regulates (mediaBitrateKbps : UInt32) : Prop :=
  ∀ arrivals : List FeedbackArrival,
    (arrivals.filterMap FeedbackArrival.observation?).Pairwise (fun o p => o.time ≤ p.time) →
    ∃ trace, rateFeedbackLoop mediaBitrateKbps arrivals = some trace ∧
      trace.map Moment.observation = arrivals.filterMap FeedbackArrival.observation? ∧
      Regulated (sessionConfig mediaBitrateKbps) trace

/-! ## Runs -/

namespace FeedbackLoop

/-- What one report does to the loop. -/
structure Steps (s : FeedbackLoop) (m : Moment) (s' : FeedbackLoop) : Prop where
  reacts : s.controller.Reacts m.observation s'.controller
  before : m.before = s.controller.targetBitrateBps
  after : m.after = s'.controller.targetBitrateBps
  emission :
    m.emitted = true ∧ s.Due m.time ∧ s.lastEmittedBps ≠ some m.after ∧
      s'.lastEmittedBps = some m.after ∧ s'.lastCoalesceAt = some m.time ∨
    m.emitted = false ∧ (s.Due m.time → s.lastEmittedBps = some m.after) ∧
      s'.lastEmittedBps = s.lastEmittedBps ∧ s'.lastCoalesceAt = s.lastCoalesceAt

/-- The moments follow from the state. -/
inductive Runs : FeedbackLoop → List Moment → Prop
  | nil (s : FeedbackLoop) : Runs s []
  | cons {s s' : FeedbackLoop} {m : Moment} {trace : List Moment} (step : s.Steps m s')
      (rest : Runs s' trace) : Runs s (m :: trace)

variable {s s' : FeedbackLoop} {o : Observation} {m : Moment} {trace : List Moment}

theorem steps (stepped : s.step o = some (s', m)) : s.Steps m s' ∧ m.observation = o := by
  rw [step, Option.bind_eq_bind, Option.bind_eq_some_iff] at stepped
  obtain ⟨controller, observed, stepped⟩ := stepped
  have reacts := GccRateController.reacts observed
  dsimp only at stepped
  split at stepped
  case isTrue emits =>
    cases stepped
    exact ⟨⟨reacts, rfl, rfl, .inl ⟨rfl, emits.1, emits.2, rfl, rfl⟩⟩, rfl⟩
  case isFalse silent =>
    cases stepped
    refine ⟨⟨reacts, rfl, rfl, .inr ⟨rfl, ?_, rfl, rfl⟩⟩, rfl⟩
    intro due
    by_contra other
    exact silent ⟨due, other⟩

/-- The loop goes on with the controller's new state. -/
theorem step_of_observed {controller : GccRateController}
    (observed : s.controller.onObservation o = some controller) :
    ∃ s' m, s.step o = some (s', m) ∧ s'.controller = controller := by
  rw [step, observed, Option.bind_eq_bind, Option.bind_some]
  dsimp only
  split
  · exact ⟨_, _, rfl, rfl⟩
  · exact ⟨_, _, rfl, rfl⟩

theorem run_cons_of_step (stepped : s.step o = some (s', m)) (rest : List Observation) :
    s.run (o :: rest) = (s'.run rest).map (m :: ·) := by
  rw [run, stepped, Option.bind_eq_bind, Option.bind_some]
  cases s'.run rest with
  | none | some trace => rfl

theorem runs {observations : List Observation} (run : s.run observations = some trace) :
    s.Runs trace ∧ trace.map Moment.observation = observations := by
  induction observations generalizing s trace with
  | nil =>
      cases run
      exact ⟨.nil s, rfl⟩
  | cons o rest ih =>
      obtain ⟨⟨next, m⟩, stepped, continued⟩ := Option.bind_eq_some_iff.mp run
      obtain ⟨later, remaining, same⟩ := Option.bind_eq_some_iff.mp continued
      cases same
      obtain ⟨step, observed⟩ := steps stepped
      obtain ⟨runs, observations⟩ := ih remaining
      exact ⟨.cons step runs, by rw [List.map_cons, observed, observations]⟩

theorem Steps.cfg (step : s.Steps m s') : s'.controller.cfg = s.controller.cfg := step.reacts.cfg

/-- The run does not overflow if the bounds leave room. -/
theorem run_isSome (spacious : s.controller.cfg.Spacious)
    (high : s.controller.targetBitrateBps ≤ s.controller.cfg.maxBitrateBps)
    (observations : List Observation) : ∃ trace, s.run observations = some trace := by
  induction observations generalizing s with
  | nil => exact ⟨[], rfl⟩
  | cons o rest ih =>
      obtain ⟨controller, observed⟩ := GccRateController.onObservation_isSome spacious high o
      obtain ⟨next, m, stepped, -⟩ := step_of_observed observed
      have taken := (steps stepped).1
      obtain ⟨trace, run⟩ := ih (taken.cfg.symm ▸ spacious)
        (taken.reacts.high spacious.ordered high)
      rw [run_cons_of_step stepped, run]
      exact ⟨m :: trace, rfl⟩

/-! ## The rules, step by step

Each rule is proved along the run, together with what the state demands of the
moments that follow. -/

section Rules

variable {now : Nat}

/-- The moments are in order and none is before the given time. -/
def Later (now : Nat) (trace : List Moment) : Prop :=
  trace.Pairwise (fun m n => m.time ≤ n.time) ∧ ∀ m ∈ trace, now ≤ m.time

theorem Later.tail (later : Later now (m :: trace)) : Later m.time trace :=
  ⟨(List.pairwise_cons.mp later.1).2, (List.pairwise_cons.mp later.1).1⟩

theorem Later.head (later : Later now (m :: trace)) : now ≤ m.time := later.2 m List.mem_cons_self

theorem Steps.steady (step : s.Steps m s') (steady : s.controller.Steady now)
    (later : now ≤ m.time) : s'.controller.Steady m.time :=
  step.reacts.steady (Nat.le_trans steady.low steady.high) steady later

theorem Runs.bounded (runs : s.Runs trace) (steady : s.controller.Steady now)
    (later : Later now trace) :
    ∀ m ∈ trace, s.controller.cfg.minBitrateBps ≤ m.after ∧
      m.after ≤ s.controller.cfg.maxBitrateBps := by
  induction runs generalizing now with
  | nil => exact List.forall_mem_nil _
  | cons step rest ih =>
      have next := step.steady steady later.head
      rw [List.forall_mem_cons, step.after, ← step.cfg]
      exact ⟨⟨next.low, next.high⟩, ih next later.tail⟩

/-- Until a panic is over the target stays at the minimum. -/
theorem Runs.frozen (runs : s.Runs trace) (steady : s.controller.Steady now)
    (later : Later now trace) :
    ∀ release ∈ s.controller.panicUntil, ∀ m ∈ trace, m.time < release →
      m.after = s.controller.cfg.minBitrateBps := by
  induction runs generalizing now with
  | nil =>
      intro release pending
      exact List.forall_mem_nil _
  | @cons s s' m trace step rest ih =>
      intro release pending
      have bound := steady.frozen release pending
      have head := later.head
      have tail := ih (step.steady steady head) later.tail
      have cfg := step.cfg
      have after := step.after
      by_cases released : release ≤ m.time
      -- a panic that is over says nothing about later moments
      · intro n member soon
        have : m.time ≤ n.time := by
          rcases List.mem_cons.mp member with rfl | member
          · exact Nat.le_refl _
          · exact later.tail.2 n member
        omega
      · have frozen : s.controller.Frozen m.observation.time :=
          ⟨release, pending, Nat.lt_of_not_le released⟩
        rw [List.forall_mem_cons, after]
        generalize controller : s'.controller = c' at tail cfg
        have reacts := controller ▸ step.reacts
        cases reacts with
        | panic panics =>
            refine ⟨fun _ => rfl, ?_⟩
            intro n member soon
            exact tail _ rfl n member (by have : m.observation.time = m.time := rfl; omega)
        | frozen calm frozen => exact ⟨fun _ => bound.1, tail release pending⟩
        | gated calm thawed => exact absurd frozen thawed
        | set calm thawed => exact absurd frozen thawed

/-- After a change, or an observation that could have changed something, the next change
waits for the gate. -/
theorem Runs.paced (runs : s.Runs trace) (steady : s.controller.Steady now)
    (later : Later now trace) :
    ∀ last ∈ s.controller.lastChange, ∀ m ∈ trace, m.Changes s.controller.cfg →
      last + s.controller.cfg.minReaction ≤ m.time := by
  induction runs generalizing now with
  | nil =>
      intro last changed
      exact List.forall_mem_nil _
  | @cons s s' m trace step rest ih =>
      intro last changed
      have past := steady.past last changed
      have head := later.head
      have tail := ih (step.steady steady head) later.tail
      have cfg := step.cfg
      have after := step.after
      have before := step.before
      have now_eq : m.observation.time = m.time := rfl
      rw [List.forall_mem_cons, Moment.Changes, before, after]
      generalize controller : s'.controller = c' at tail cfg
      have reacts := controller ▸ step.reacts
      cases reacts with
      | panic panics =>
          refine ⟨fun changes => absurd panics changes.2, ?_⟩
          intro n member changes
          have := tail _ rfl n member changes
          dsimp only at this
          omega
      | frozen calm frozen | gated calm thawed =>
          exact ⟨fun changes => absurd rfl changes.1, tail last changed⟩
      | set calm thawed allowed target low high =>
          have gate := allowed last changed
          refine ⟨fun _ => by omega, ?_⟩
          intro n member changes
          have := tail _ rfl n member changes
          dsimp only at this
          omega

/-- A panic drops the target and keeps it there for the time of the freeze. -/
theorem Steps.panics (step : s.Steps m s') (panics : s.controller.cfg.Panics m.observation) :
    m.after = s.controller.cfg.minBitrateBps ∧
      s'.controller.panicUntil = some (m.time + s.controller.cfg.panicFreeze) := by
  rw [step.after]
  generalize controller : s'.controller = c'
  have reacts := controller ▸ step.reacts
  cases reacts with
  | panic => exact ⟨rfl, rfl⟩
  | frozen calm => exact absurd panics calm
  | gated calm => exact absurd panics calm
  | set calm => exact absurd panics calm

theorem Steps.changes (step : s.Steps m s') (changes : m.Changes s.controller.cfg) :
    s'.controller.lastChange = some m.time := by
  obtain ⟨moved, calm⟩ := changes
  rw [step.before, step.after] at moved
  generalize controller : s'.controller = c' at moved ⊢
  have reacts := controller ▸ step.reacts
  cases reacts with
  | panic panics => exact absurd panics calm
  | frozen | gated => exact absurd rfl moved
  | set => rfl

theorem Runs.dropped (runs : s.Runs trace) :
    ∀ m ∈ trace, m.Lossy s.controller.cfg → m.after = s.controller.cfg.minBitrateBps := by
  induction runs with
  | nil => exact List.forall_mem_nil _
  | cons step rest ih =>
      rw [List.forall_mem_cons]
      exact ⟨fun lossy => (step.panics (.inr lossy)).1, step.cfg ▸ ih⟩

theorem Runs.frozen_pairs (runs : s.Runs trace) (steady : s.controller.Steady now)
    (later : Later now trace) :
    trace.Pairwise fun m n => m.Lossy s.controller.cfg →
      n.time < m.time + s.controller.cfg.panicFreeze →
      n.after = s.controller.cfg.minBitrateBps := by
  induction runs generalizing now with
  | nil => exact .nil
  | cons step rest ih =>
      have next := step.steady steady later.head
      refine .cons ?_ (step.cfg ▸ ih next later.tail)
      intro n member lossy soon
      rw [← step.cfg]
      exact rest.frozen next later.tail _ (step.panics (.inr lossy)).2 n member soon

theorem Runs.paced_pairs (runs : s.Runs trace) (steady : s.controller.Steady now)
    (later : Later now trace) :
    trace.Pairwise fun m n => m.Changes s.controller.cfg → n.Changes s.controller.cfg →
      m.time + s.controller.cfg.minReaction ≤ n.time := by
  induction runs generalizing now with
  | nil => exact .nil
  | cons step rest ih =>
      have next := step.steady steady later.head
      refine .cons ?_ (step.cfg ▸ ih next later.tail)
      intro n member changes again
      rw [← step.cfg] at again ⊢
      exact rest.paced next later.tail _ (step.changes changes) n member again

/-! ## Coalescing -/

theorem Runs.spaced (runs : s.Runs trace) (past : ∀ last ∈ s.lastCoalesceAt, last ≤ now)
    (later : Later now trace) :
    (∀ last ∈ s.lastCoalesceAt, ∀ m ∈ trace.filter Moment.emitted,
        last + coalesceInterval ≤ m.time) ∧
      (trace.filter Moment.emitted).Pairwise fun m n => m.time + coalesceInterval ≤ n.time := by
  induction runs generalizing now with
  | nil => exact ⟨fun _ _ => List.forall_mem_nil _, .nil⟩
  | @cons s s' m trace step rest ih =>
      have head := later.head
      rcases step.emission with ⟨emitted, due, -, -, at_⟩ | ⟨silent, -, -, at_⟩
      · rw [List.filter_cons_of_pos emitted]
        have tail := ih (by rw [at_]; rintro _ ⟨⟩; exact Nat.le_refl _) later.tail
        rw [at_] at tail
        refine ⟨?_, .cons (tail.1 _ rfl) tail.2⟩
        intro last recorded
        have before := past last recorded
        have gap := due last recorded
        have own : last + coalesceInterval ≤ m.time := by
          rw [coalesceInterval, millis] at gap ⊢
          omega
        rw [List.forall_mem_cons]
        refine ⟨own, ?_⟩
        intro n member
        exact Nat.le_trans (by omega) (tail.1 _ rfl n member)
      · rw [List.filter_cons_of_neg (by rw [silent]; exact Bool.false_ne_true), ← at_]
        refine ih ?_ later.tail
        rw [at_]
        intro last recorded
        exact Nat.le_trans (past last recorded) head

theorem Runs.fresh (runs : s.Runs trace) :
    (∀ bps ∈ s.lastEmittedBps, ∀ m ∈ (trace.filter Moment.emitted).head?, bps ≠ m.after) ∧
      (trace.filter Moment.emitted).IsChain fun m n => m.after ≠ n.after := by
  induction runs with
  | nil => exact ⟨fun _ _ => nofun, .nil⟩
  | @cons s s' m trace step rest ih =>
      rcases step.emission with ⟨emitted, -, other, value, -⟩ | ⟨silent, -, value, -⟩
      · rw [value] at ih
        rw [List.filter_cons_of_pos emitted]
        refine ⟨?_, List.isChain_cons.mpr ⟨ih.1 _ rfl, ih.2⟩⟩
        rintro bps recorded _ ⟨⟩ same
        exact other (same ▸ recorded)
      · rw [List.filter_cons_of_neg (by rw [silent]; exact Bool.false_ne_true), ← value]
        exact ih

/-- Of the moments that are passed on, the last one gives what the state remembers. -/
theorem Steps.remembers (step : s.Steps m s') (earlier : List Moment) :
    (((m :: earlier).filter Moment.emitted).getLast?.map Moment.time).or s.lastCoalesceAt =
        ((earlier.filter Moment.emitted).getLast?.map Moment.time).or s'.lastCoalesceAt ∧
      (((m :: earlier).filter Moment.emitted).getLast?.map Moment.after).or s.lastEmittedBps =
        ((earlier.filter Moment.emitted).getLast?.map Moment.after).or s'.lastEmittedBps := by
  rcases step.emission with ⟨emitted, -, -, value, at_⟩ | ⟨silent, -, value, at_⟩
  · rw [List.filter_cons_of_pos emitted, List.getLast?_cons, value, at_]
    cases (earlier.filter Moment.emitted).getLast? with
    | none | some last => exact ⟨rfl, rfl⟩
  · rw [List.filter_cons_of_neg (by rw [silent]; exact Bool.false_ne_true), value, at_]
    exact ⟨rfl, rfl⟩

/-- A bitrate that is not passed on although the interval is over has been passed on
already. -/
theorem Runs.current (runs : s.Runs trace) :
    ∀ earlier m later, trace = earlier ++ m :: later → m.emitted = false →
      (∀ last ∈ ((earlier.filter Moment.emitted).getLast?.map Moment.time).or s.lastCoalesceAt,
        last + coalesceInterval ≤ m.time) →
      ((earlier.filter Moment.emitted).getLast?.map Moment.after).or s.lastEmittedBps =
        some m.after := by
  induction runs with
  | nil =>
      intro earlier m later split
      exact absurd split.symm (List.append_ne_nil_of_right_ne_nil _ (List.cons_ne_nil _ _))
  | cons step rest ih =>
      intro earlier m later split silent due
      cases earlier with
      | nil =>
          cases split
          rcases step.emission with ⟨emitted, -⟩ | ⟨-, known, -⟩
          · exact absurd (emitted.symm.trans silent) (by decide)
          · apply known
            intro last recorded
            have := due last recorded
            omega
      | cons first earlier =>
          obtain ⟨rfl, tail⟩ := List.cons.inj split
          rw [(step.remembers earlier).1] at due
          rw [(step.remembers earlier).2]
          exact ih earlier m later tail silent due

end Rules

theorem start_steady {cfg : GccConfig} (low : cfg.minBitrateBps ≤ cfg.startBitrateBps)
    (high : cfg.startBitrateBps ≤ cfg.maxBitrateBps) : (start cfg).controller.Steady 0 :=
  ⟨low, high, nofun, nofun⟩

/-- Every run from the start keeps the rules. -/
theorem Runs.regulated {cfg : GccConfig} (runs : (start cfg).Runs trace)
    (low : cfg.minBitrateBps ≤ cfg.startBitrateBps) (high : cfg.startBitrateBps ≤ cfg.maxBitrateBps)
    (ordered : trace.Pairwise fun m n => m.time ≤ n.time) : Regulated cfg trace := by
  have steady := start_steady low high
  have later : Later 0 trace := ⟨ordered, fun m _ => Nat.zero_le _⟩
  have past : ∀ last ∈ (start cfg).lastCoalesceAt, last ≤ 0 := nofun
  have spaced := (runs.spaced past later).2
  constructor
  · exact runs.bounded steady later
  · exact runs.dropped
  · exact runs.frozen_pairs steady later
  · exact runs.paced_pairs steady later
  · exact spaced
  · exact runs.fresh.2
  · intro earlier m later split silent due
    have known := runs.current earlier m later split silent
    rw [start, Option.or_none, Option.or_none] at known
    apply Option.map_eq_some_iff.mp
    apply known
    intro last recorded
    obtain ⟨moment, found, rfl⟩ := Option.map_eq_some_iff.mp recorded
    exact due moment found

/-! ## The ramp -/

/-- Quiet reports at the pace of the reaction gate. -/
def ramp (pace now : Nat) : Nat → List Observation
  | 0 => []
  | n + 1 => GccRateController.quiet now :: ramp pace (now + pace) n

theorem ramp_ordered (pace now n : Nat) :
    (ramp pace now n).Pairwise (fun o p => o.time ≤ p.time) ∧
      ∀ o ∈ ramp pace now n, now ≤ o.time := by
  induction n generalizing now with
  | zero => exact ⟨.nil, List.forall_mem_nil _⟩
  | succ n ih =>
      obtain ⟨ordered, late⟩ := ih (now + pace)
      have later : ∀ o ∈ ramp pace (now + pace) n, now ≤ o.time := by
        intro o member
        exact Nat.le_trans (Nat.le_add_right _ _) (late o member)
      exact ⟨.cons later ordered, List.forall_mem_cons.mpr ⟨Nat.le_refl _, later⟩⟩

/-- Where the maximum leaves no room for a step, a ramp that is long enough overflows:
each report takes a full step, or stops at the maximum and the next one overflows. -/
theorem ramp_overflows {now n : Nat} (ramping : s.controller.Ramping now)
    (tight : 2 ^ 32 ≤ s.controller.cfg.maxBitrateBps + s.controller.cfg.fastStartStepBps)
    (enough : 2 ^ 32 ≤
      s.controller.targetBitrateBps + (n + 1) * s.controller.cfg.fastStartStepBps) :
    s.run (ramp s.controller.cfg.minReaction now (n + 1)) = none := by
  induction n generalizing s now with
  | zero =>
      rw [ramp, run, step, ramping.onObservation, if_neg (by omega)]
      rfl
  | succ n ih =>
      have low := ramping.low
      have high := ramping.high
      have observed := ramping.onObservation
      rw [Nat.succ_mul] at enough
      rw [ramp]
      split at observed
      case isFalse =>
        rw [run, step, observed]
        rfl
      case isTrue fits =>
        obtain ⟨next, m, stepped, controller⟩ := step_of_observed observed
        have more : s.controller.cfg.fastStartStepBps ≤
            (n + 1) * s.controller.cfg.fastStartStepBps := Nat.le_mul_of_pos_left _ (Nat.succ_pos n)
        have overflows := @ih next (now + s.controller.cfg.minReaction)
        rw [controller] at overflows
        rw [run_cons_of_step stepped, overflows ?_ tight ?_]
        · rfl
        · refine ⟨ramping.inFastStart, ramping.calm, ?_, by dsimp only; omega, Nat.min_le_right _ _⟩
          rintro _ ⟨⟩
          dsimp only
          omega
        · dsimp only
          omega

end FeedbackLoop

/-! ## The configured bitrate -/

theorem sessionConfig_spacious {kbps : UInt32} (room : kbps.toNat ≤ 2147383) :
    (sessionConfig kbps).Spacious := by
  constructor
  all_goals
    simp only [sessionConfig, saturatingMulU32]
    omega

theorem sessionConfig_start (kbps : UInt32) :
    (sessionConfig kbps).minBitrateBps ≤ (sessionConfig kbps).startBitrateBps ∧
      (sessionConfig kbps).startBitrateBps ≤ (sessionConfig kbps).maxBitrateBps := by
  simp only [sessionConfig, saturatingMulU32]
  omega

/-- A long enough ramp overflows in a session without room above the maximum. -/
theorem sessionConfig_overflows {kbps : UInt32} (tight : 2147383 < kbps.toNat) :
    ∃ n, (FeedbackLoop.start (sessionConfig kbps)).run
      (FeedbackLoop.ramp (sessionConfig kbps).minReaction 0 n) = none := by
  have fits := kbps.toNat_lt
  obtain ⟨low, high⟩ := sessionConfig_start kbps
  refine ⟨10999 + 1, FeedbackLoop.ramp_overflows ⟨rfl, rfl, (fun _ changed => nomatch changed), low,
    high⟩ ?_ ?_⟩
  all_goals
    simp only [FeedbackLoop.start, GccRateController.new, sessionConfig, saturatingMulU32]
    omega

/-- A message that gives the controller an observation. -/
def Observation.toArrival (o : Observation) : FeedbackArrival where
  time := o.time
  msg := .rateFeedback ⟨0, o.lossX1000, 0, 0, 0⟩
  late := o.late
  state := o.state

theorem filterMap_toArrival (observations : List Observation) :
    (observations.map Observation.toArrival).filterMap FeedbackArrival.observation? =
      observations := by
  rw [List.filterMap_map]
  exact List.filterMap_some

/-- The bitrate controller and the loop around it keep their rules in every run of a
session exactly if the bitrate is configured below 2147384 kbit/s. -/
theorem regulates_iff (mediaBitrateKbps : UInt32) :
    Regulates mediaBitrateKbps ↔ mediaBitrateKbps.toNat ≤ 2147383 := by
  obtain ⟨low, high⟩ := sessionConfig_start mediaBitrateKbps
  constructor
  · intro regulates
    by_contra tight
    obtain ⟨n, overflows⟩ := sessionConfig_overflows (Nat.lt_of_not_le tight)
    have observations := filterMap_toArrival
      (FeedbackLoop.ramp (sessionConfig mediaBitrateKbps).minReaction 0 n)
    have ordered := (FeedbackLoop.ramp_ordered (sessionConfig mediaBitrateKbps).minReaction 0 n).1
    rw [← observations] at ordered
    obtain ⟨trace, run, -⟩ := regulates _ ordered
    rw [rateFeedbackLoop, observations, overflows] at run
    contradiction
  · intro room arrivals ordered
    obtain ⟨trace, run⟩ := FeedbackLoop.run_isSome
      (s := .start (sessionConfig mediaBitrateKbps)) (sessionConfig_spacious room) high
      (arrivals.filterMap FeedbackArrival.observation?)
    obtain ⟨runs, observations⟩ := FeedbackLoop.runs run
    refine ⟨trace, run, observations, runs.regulated low high ?_⟩
    rw [← observations, List.pairwise_map] at ordered
    exact ordered

/-- At the highest bitrate the first report overflows. -/
theorem highest_not_regulates : ¬ ∀ mediaBitrateKbps, Regulates mediaBitrateKbps := by
  intro regulates
  obtain ⟨trace, run, -⟩ :=
    regulates 4294967295 [(GccRateController.quiet 0).toArrival] (List.pairwise_singleton _ _)
  have overflows : rateFeedbackLoop 4294967295 [(GccRateController.quiet 0).toArrival] = none := by
    decide
  rw [overflows] at run
  contradiction

end Qubox.Host
