import Mathlib.Algebra.Group.Nat.Defs
import Qubox.Daemon.Subprocess
import Qubox.Library.SlidingWindow

/-!
# Restarts and their limit

A task gives up exactly when more exits than allowed fall into one window, in every run. The
rest of what a lifecycle owes fails where a child does not spawn again, since the task then ends
at the empty slot without an event; where the shift of the backoff goes beyond its 64 bits; and
where a task gives up, since its label stays registered until somebody stops it.
-/

namespace Qubox.Daemon

open SlidingWindow

namespace ManagedSubprocess

variable {t next : ManagedSubprocess} {now later : Nat}

def GaveUp (t : ManagedSubprocess) : Prop := ∃ code reason, .giveUp code reason ∈ t.events

/-- More exits than allowed have come within one restart window. -/
def Crashing (t : ManagedSubprocess) : Prop :=
  Crowded t.config.maxRestarts t.config.restartWindow t.exits

/-! ## Giving up -/

/-- The history holds the exits of the last window, and the task has given up if one window
was crowded. -/
structure Counted (t : ManagedSubprocess) (now : Nat) : Prop where
  ordered : t.exits.Pairwise (· ≤ ·)
  past : ∀ time ∈ t.exits, time ≤ now
  history : t.restartHistory = recent t.config.restartWindow (t.exits.getLast?.getD 0) t.exits
  gaveUp : t.GaveUp ↔ t.Crashing
  ended : t.GaveUp → t.phase = .ended

theorem Counted.wait (counted : t.Counted now) (order : now ≤ later) : t.Counted later :=
  { counted with past := fun time member => Nat.le_trans (counted.past time member) order }

/-- A step that counts no exit, of a task that has not given up. -/
structure Uncounted (t next : ManagedSubprocess) : Prop where
  label : next.label = t.label
  config : next.config = t.config
  exits : next.exits = t.exits
  history : next.restartHistory = t.restartHistory
  events : ∀ code reason, .giveUp code reason ∈ next.events → .giveUp code reason ∈ t.events
  ended : t.phase = .ended → next.phase = .ended ∧ next.events = t.events

theorem Uncounted.counted (uncounted : t.Uncounted next) (kept : t.events <+: next.events)
    (counted : t.Counted now) : next.Counted now := by
  have gaveUp : next.GaveUp ↔ t.GaveUp := by
    constructor
    · rintro ⟨code, reason, member⟩
      exact ⟨code, reason, uncounted.events code reason member⟩
    · rintro ⟨code, reason, member⟩
      exact ⟨code, reason, kept.subset member⟩
  refine ⟨?_, ?_, ?_, ?_, fun gave => ?_⟩
  · rw [uncounted.exits]
    exact counted.ordered
  · rw [uncounted.exits]
    exact counted.past
  · rw [uncounted.history, uncounted.config, uncounted.exits]
    exact counted.history
  · rw [gaveUp, counted.gaveUp, Crashing, Crashing, uncounted.config, uncounted.exits]
  · exact (uncounted.ended (counted.ended (gaveUp.mp gave))).1

/-- What is recorded are the exits of the window that ends with this one. -/
theorem Counted.recorded (counted : t.Counted now) :
    t.recorded now = recent t.config.restartWindow now (t.exits ++ [now]) := by
  have last : t.exits.getLast?.getD 0 ≤ now := by
    cases found : t.exits.getLast? with
    | none => exact Nat.zero_le _
    | some time => exact counted.past time (List.mem_of_getLast? found)
  have sorted : (recent t.config.restartWindow (t.exits.getLast?.getD 0) t.exits).Pairwise
      (· ≤ ·) := counted.ordered.filter _
  change prune t.config.restartWindow now t.restartHistory ++ [now] = _
  rw [counted.history, prune_eq_recent sorted, recent_recent last, recent_append_self]

theorem Counted.record (counted : t.Counted now) (awake : t.phase ≠ .ended)
    (code : Option Int32) : (t.record now code).Counted now := by
  have fresh : ¬ t.GaveUp := fun gave => awake (counted.ended gave)
  have calm : ¬ t.Crashing := fun crashing => fresh (counted.gaveUp.mpr crashing)
  have crowded : Crowded t.config.maxRestarts t.config.restartWindow (t.exits ++ [now]) ↔
      t.config.maxRestarts < t.attempt now := by
    rw [crowded_append counted.past, attempt, counted.recorded]
    exact or_iff_right calm
  have ordered : (t.exits ++ [now]).Pairwise (· ≤ ·) := by
    refine List.pairwise_append.mpr ⟨counted.ordered, List.pairwise_singleton _ _, ?_⟩
    intro time member other last
    obtain rfl := List.mem_singleton.mp last
    exact counted.past time member
  have past : ∀ time ∈ t.exits ++ [now], time ≤ now := by
    intro time member
    obtain old | last := List.mem_append.mp member
    · exact counted.past time old
    · exact Nat.le_of_eq (List.mem_singleton.mp last)
  have history : t.recorded now = recent t.config.restartWindow
      ((t.exits ++ [now]).getLast?.getD 0) (t.exits ++ [now]) := by
    rw [List.getLast?_concat, Option.getD_some]
    exact counted.recorded
  unfold ManagedSubprocess.record
  split
  case isTrue many =>
    refine ⟨ordered, past, history, ?_, fun _ => rfl⟩
    refine iff_of_true ⟨code, exitReason code, ?_⟩ (crowded.mpr many)
    exact List.mem_append_right _ (List.mem_singleton.mpr rfl)
  case isFalse few =>
    have unsaid : ¬ ∃ code' reason, .giveUp code' reason ∈ t.events ++
        [.restarting (t.attempt now) (backoffMs (t.attempt now))] := by
      rintro ⟨code', reason, member⟩
      obtain old | new := List.mem_append.mp member
      · exact fresh ⟨code', reason, old⟩
      · cases List.mem_singleton.mp new
    refine ⟨ordered, past, history, ?_, fun gave => absurd gave unsaid⟩
    exact iff_of_false unsaid (mt crowded.mp few)

theorem not_ended_of_resume (resumed : t.resume now = some next) : t.phase ≠ .ended := by
  intro ended
  rw [resume, ended] at resumed
  cases resumed

/-- A step that keeps the counts, and emits one event at most. -/
theorem Uncounted.of_events {more : List SubprocessEvent} (awake : t.phase ≠ .ended)
    (same : next.label = t.label ∧ next.config = t.config ∧ next.exits = t.exits ∧
      next.restartHistory = t.restartHistory)
    (emitted : next.events = t.events ++ more)
    (other : ∀ code reason, .giveUp code reason ∉ more) :
    t.Uncounted next ∧ t.events <+: next.events := by
  refine ⟨⟨same.1, same.2.1, same.2.2.1, same.2.2.2, fun code reason member => ?_,
    fun ended => absurd ended awake⟩, ⟨more, emitted.symm⟩⟩
  rw [emitted] at member
  obtain old | new := List.mem_append.mp member
  · exact old
  · exact absurd new (other code reason)

/-- A task that resumes counts an exit, or none. -/
theorem resume_cases (resumed : t.resume now = some next) :
    (∃ code, t.phase = .exited code ∧ next = t.record now code) ∨
      t.Uncounted next ∧ t.events <+: next.events := by
  have awake := not_ended_of_resume resumed
  have silent (same : next.label = t.label ∧ next.config = t.config ∧ next.exits = t.exits ∧
      next.restartHistory = t.restartHistory) (unsaid : next.events = t.events) :
      t.Uncounted next ∧ t.events <+: next.events :=
    Uncounted.of_events awake same (unsaid.trans (List.append_nil _).symm)
      fun _ _ member => absurd member List.not_mem_nil
  have loud (event : SubprocessEvent) (other : ∀ code reason, event ≠ .giveUp code reason)
      (same : next.label = t.label ∧ next.config = t.config ∧ next.exits = t.exits ∧
        next.restartHistory = t.restartHistory) (emitted : next.events = t.events ++ [event]) :
      t.Uncounted next ∧ t.events <+: next.events :=
    Uncounted.of_events awake same emitted fun code reason member =>
      other code reason (List.mem_singleton.mp member).symm
  unfold resume at resumed
  split at resumed
  case h_1 =>
    split at resumed <;> obtain rfl := Option.some.inj resumed
    · exact .inr (silent ⟨rfl, rfl, rfl, rfl⟩ rfl)
    · exact .inr (silent ⟨rfl, rfl, rfl, rfl⟩ rfl)
  case h_2 =>
    split at resumed
    · obtain rfl := Option.some.inj resumed
      exact .inr (silent ⟨rfl, rfl, rfl, rfl⟩ rfl)
    · obtain ⟨code, -, rfl⟩ := Option.map_eq_some_iff.mp resumed
      exact .inr (loud _ (fun _ _ same => by cases same) ⟨rfl, rfl, rfl, rfl⟩ rfl)
  case h_3 =>
    split at resumed
    · obtain rfl := Option.some.inj resumed
      exact .inr (silent ⟨rfl, rfl, rfl, rfl⟩ rfl)
    · obtain ⟨code, -, rfl⟩ := Option.map_eq_some_iff.mp resumed
      exact .inr (loud _ (fun _ _ same => by cases same) ⟨rfl, rfl, rfl, rfl⟩ rfl)
  case h_4 =>
    obtain ⟨code, -, rfl⟩ := Option.map_eq_some_iff.mp resumed
    exact .inr (loud _ (fun _ _ same => by cases same) ⟨rfl, rfl, rfl, rfl⟩ rfl)
  case h_5 code phase =>
    obtain rfl := Option.some.inj resumed
    exact .inl ⟨code, phase, rfl⟩
  case h_6 => cases resumed
  case h_7 =>
    obtain rfl := Option.some.inj resumed
    exact .inr (loud _ (fun _ _ same => by cases same) ⟨rfl, rfl, rfl, rfl⟩ rfl)
  case h_8 =>
    split at resumed
    · obtain rfl := Option.some.inj resumed
      exact .inr (silent ⟨rfl, rfl, rfl, rfl⟩ rfl)
    · cases resumed
  case h_9 => cases resumed

theorem Counted.resume (counted : t.Counted now) (resumed : t.resume now = some next) :
    next.Counted now := by
  obtain ⟨code, -, rfl⟩ | ⟨uncounted, kept⟩ := resume_cases resumed
  · exact counted.record (not_ended_of_resume resumed) code
  · exact uncounted.counted kept counted

/-- What is neither counted nor said. -/
theorem Counted.of_same (counted : t.Counted now)
    (same : next.config = t.config ∧ next.exits = t.exits ∧
      next.restartHistory = t.restartHistory ∧ next.events = t.events)
    (ended : t.phase = .ended → next.phase = .ended) : next.Counted now := by
  obtain ⟨config, exits, history, events⟩ := same
  constructor
  · rw [exits]
    exact counted.ordered
  · rw [exits]
    exact counted.past
  · rw [history, config, exits]
    exact counted.history
  · rw [GaveUp, Crashing, events, config, exits]
    exact counted.gaveUp
  · rw [GaveUp, events]
    exact fun gave => ended (counted.ended gave)

theorem Counted.childExits {code : Option Int32} (counted : t.Counted now)
    (exits : t.childExits code = some next) : next.Counted now := by
  unfold ManagedSubprocess.childExits at exits
  split at exits
  case h_1 =>
    obtain rfl := Option.some.inj exits
    exact counted.of_same ⟨rfl, rfl, rfl, rfl⟩ id
  case h_2 pid phase _ =>
    obtain rfl := Option.some.inj exits
    refine counted.of_same ⟨rfl, rfl, rfl, rfl⟩ fun ended => ?_
    cases phase.symm.trans ended
  case h_3 => cases exits

theorem Counted.respawn {pid : Option UInt32} (counted : t.Counted now)
    (spawned : t.respawn now pid = some next) : next.Counted now := by
  unfold ManagedSubprocess.respawn at spawned
  split at spawned
  case h_1 wakes phase =>
    have awake : t.phase = .ended → next.phase = .ended := fun ended => by
      cases phase.symm.trans ended
    split at spawned
    · cases pid <;> obtain rfl := Option.some.inj spawned
      · exact counted.of_same ⟨rfl, rfl, rfl, rfl⟩ awake
      · exact counted.of_same ⟨rfl, rfl, rfl, rfl⟩ awake
    · cases spawned
  case h_2 => cases spawned

theorem counted_spawn (label : String) (config : SubprocessConfig) (pid : UInt32) (now : Nat) :
    (spawn label config pid).Counted now where
  ordered := .nil
  past _ member := absurd member List.not_mem_nil
  history := rfl
  gaveUp := by
    refine iff_of_false ?_ not_crowded_nil
    rintro ⟨code, reason, member⟩
    cases List.mem_singleton.mp member
  ended gave := by
    obtain ⟨code, reason, member⟩ := gave
    cases List.mem_singleton.mp member

/-! ## A task that is spared -/

/-- The next step gives up. -/
def GivesUp (t : ManagedSubprocess) (now : Nat) : Prop :=
  match t.phase with
  | .exited _ => t.config.maxRestarts < t.attempt now
  | _ => False

instance (t : ManagedSubprocess) (now : Nat) : Decidable (t.GivesUp now) :=
  match phase : t.phase with
  | .exited _ => decidable_of_iff (t.config.maxRestarts < t.attempt now) (by rw [GivesUp, phase])
  | .head | .waiting | .terminating _ | .killing | .backoff _ | .respawned _ | .respawnFailed _
  | .ended => .isFalse (by rw [GivesUp, phase]; exact id)

/-- The task has a child where it looks for one. -/
def Seated (t : ManagedSubprocess) : Prop :=
  match t.phase with
  | .head | .waiting | .terminating _ | .killing => t.child.isSome
  | .respawnFailed _ => False
  | _ => True

/-- Nobody stops the task, and it has not ended. -/
def Steady (t : ManagedSubprocess) : Prop :=
  t.stopFlag = false ∧
    match t.phase with
    | .terminating _ | .killing | .ended => False
    | _ => True

structure Spared (t : ManagedSubprocess) : Prop where
  seated : t.Seated
  ended : t.phase = .ended → .stopped ∈ t.events ∨ t.GaveUp
  modest : ∀ attempt ms, .restarting attempt ms ∈ t.events →
    1 ≤ attempt ∧ attempt ≤ 61 ∧ ms = backoffMs attempt

theorem Spared.of_events (spared : t.Spared) (seated : next.Seated) (awake : next.phase ≠ .ended)
    {more : List SubprocessEvent} (emitted : next.events = t.events ++ more)
    (other : ∀ attempt ms, .restarting attempt ms ∉ more) : next.Spared where
  seated := seated
  ended ended := absurd ended awake
  modest attempt ms member := by
    rw [emitted] at member
    obtain old | new := List.mem_append.mp member
    · exact spared.modest attempt ms old
    · exact absurd new (other attempt ms)

theorem Spared.finishStop (spared : t.Spared) : t.finishStop.Spared where
  seated := trivial
  ended _ := .inl (List.mem_append_right _ (List.mem_singleton.mpr rfl))
  modest attempt ms member := by
    obtain old | new := List.mem_append.mp member
    · exact spared.modest attempt ms old
    · cases List.mem_singleton.mp new

theorem one_le_attempt : 1 ≤ t.attempt now := by
  rw [attempt, recorded, List.length_append, List.length_singleton]
  exact Nat.le_add_left 1 _

theorem Spared.record (spared : t.Spared) {code : Option Int32} (phase : t.phase = .exited code)
    (modest : t.Restarts now → t.attempt now ≤ 61) : (t.record now code).Spared := by
  unfold ManagedSubprocess.record
  split
  case isTrue =>
    refine ⟨trivial, fun _ => .inr ⟨code, exitReason code, ?_⟩, fun attempt ms member => ?_⟩
    · exact List.mem_append_right _ (List.mem_singleton.mpr rfl)
    · obtain old | new := List.mem_append.mp member
      · exact spared.modest attempt ms old
      · cases List.mem_singleton.mp new
  case isFalse few =>
    have restarts : t.Restarts now := by
      rw [Restarts, phase]
      exact Nat.le_of_not_lt few
    refine ⟨trivial, (fun ended => by cases ended), fun attempt ms member => ?_⟩
    obtain old | new := List.mem_append.mp member
    · exact spared.modest attempt ms old
    · cases List.mem_singleton.mp new
      exact ⟨one_le_attempt, modest restarts, rfl⟩

theorem Spared.resume (spared : t.Spared) (resumed : t.resume now = some next)
    (modest : t.Restarts now → t.attempt now ≤ 61) : next.Spared := by
  have seated := spared.seated
  unfold ManagedSubprocess.resume at resumed
  split at resumed
  case h_1 phase =>
    rw [Seated, phase] at seated
    obtain ⟨child, slot⟩ := Option.isSome_iff_exists.mp seated
    rw [slot] at resumed
    obtain rfl := Option.some.inj resumed
    refine spared.of_events ?_ (fun ended => by cases ended) (List.append_nil _).symm
      fun _ _ member => absurd member List.not_mem_nil
    exact seated
  case h_2 phase =>
    rw [Seated, phase] at seated
    split at resumed
    · obtain rfl := Option.some.inj resumed
      refine spared.of_events ?_ (fun ended => by cases ended) (List.append_nil _).symm
        fun _ _ member => absurd member List.not_mem_nil
      exact seated
    · obtain ⟨code, -, rfl⟩ := Option.map_eq_some_iff.mp resumed
      refine spared.of_events trivial (fun ended => by cases ended) rfl fun _ _ member => ?_
      cases List.mem_singleton.mp member
  case h_3 deadline phase =>
    rw [Seated, phase] at seated
    split at resumed
    · obtain rfl := Option.some.inj resumed
      refine spared.of_events ?_ (fun ended => by cases ended) (List.append_nil _).symm
        fun _ _ member => absurd member List.not_mem_nil
      exact seated
    · obtain ⟨code, -, rfl⟩ := Option.map_eq_some_iff.mp resumed
      exact spared.finishStop
  case h_4 =>
    obtain ⟨code, -, rfl⟩ := Option.map_eq_some_iff.mp resumed
    exact spared.finishStop
  case h_5 code phase =>
    obtain rfl := Option.some.inj resumed
    exact spared.record phase modest
  case h_6 => cases resumed
  case h_7 child phase =>
    obtain rfl := Option.some.inj resumed
    refine spared.of_events rfl (fun ended => by cases ended) rfl fun _ _ member => ?_
    cases List.mem_singleton.mp member
  case h_8 wakes phase =>
    rw [Seated, phase] at seated
    exact seated.elim
  case h_9 => cases resumed

/-- A task that nobody stops goes on unless it gives up. -/
theorem Steady.resume (steady : t.Steady) (seated : t.Seated) (resumed : t.resume now = some next)
    (goes : ¬ t.GivesUp now) : next.Steady := by
  obtain ⟨unnotified, awake⟩ := steady
  unfold ManagedSubprocess.resume at resumed
  split at resumed
  case h_1 phase =>
    rw [Seated, phase] at seated
    obtain ⟨child, slot⟩ := Option.isSome_iff_exists.mp seated
    rw [slot] at resumed
    obtain rfl := Option.some.inj resumed
    exact ⟨unnotified, trivial⟩
  case h_2 phase =>
    rw [unnotified] at resumed
    obtain ⟨code, -, rfl⟩ := Option.map_eq_some_iff.mp resumed
    exact ⟨unnotified, trivial⟩
  case h_3 deadline phase =>
    rw [phase] at awake
    exact awake.elim
  case h_4 phase =>
    rw [phase] at awake
    exact awake.elim
  case h_5 code phase =>
    obtain rfl := Option.some.inj resumed
    have few : ¬ t.config.maxRestarts < t.attempt now := by
      rwa [GivesUp, phase] at goes
    unfold ManagedSubprocess.record
    rw [if_neg few]
    exact ⟨unnotified, trivial⟩
  case h_6 => cases resumed
  case h_7 =>
    obtain rfl := Option.some.inj resumed
    exact ⟨unnotified, trivial⟩
  case h_8 =>
    split at resumed
    · obtain rfl := Option.some.inj resumed
      exact ⟨unnotified, trivial⟩
    · cases resumed
  case h_9 => cases resumed

theorem respawn_some {pid : UInt32} (spawned : t.respawn now (some pid) = some next) :
    next = { t.goto (.respawned { pid }) with currentPid := pid } := by
  unfold respawn at spawned
  split at spawned
  · split at spawned
    · exact (Option.some.inj spawned).symm
    · cases spawned
  · cases spawned

theorem childExits_keeps {code : Option Int32} (exits : t.childExits code = some next) :
    next.label = t.label ∧ (t.Spared → next.Spared) ∧ (t.Steady → next.Steady) := by
  unfold ManagedSubprocess.childExits at exits
  split at exits
  case h_1 pid slot =>
    obtain rfl := Option.some.inj exits
    refine ⟨rfl, fun spared => ⟨?_, spared.ended, spared.modest⟩, id⟩
    have seated := spared.seated
    unfold Seated at seated ⊢
    split at seated
    case h_5 wakes phase => exact seated.elim
    all_goals simp_all
  case h_2 pid phase _ =>
    obtain rfl := Option.some.inj exits
    refine ⟨rfl, fun spared => ⟨trivial, (fun ended => by cases ended), spared.modest⟩, ?_⟩
    exact fun steady => ⟨steady.1, trivial⟩
  case h_3 => cases exits

theorem resume_label (resumed : t.resume now = some next) : next.label = t.label := by
  obtain ⟨code, -, rfl⟩ | ⟨uncounted, -⟩ := resume_cases resumed
  · unfold record
    split <;> rfl
  · exact uncounted.label

end ManagedSubprocess

/-! ## Backoffs -/

/-- Below 62 attempts the shift is what it should be, up to the cap. -/
theorem backoffMs_toNat {attempt : Nat} (first : 1 ≤ attempt) (few : attempt ≤ 61) :
    (backoffMs attempt).toNat = min (1000 * 2 ^ (attempt - 1)) 30000 := by
  have all : ∀ attempt < 62, 1 ≤ attempt →
      (backoffMs attempt).toNat = min (1000 * 2 ^ (attempt - 1)) 30000 := by decide
  exact all attempt (by omega) first

namespace SubprocessManager

variable {m next : SubprocessManager}

/-! ## Runs -/

/-- What is owed after some steps from an empty registry. -/
structure Maintained (steps : List ManagerStep) : Prop where
  ended : ∀ m, run {} steps = some m → ∀ t ∈ m.tasks, t.phase = .ended →
    .stopped ∈ t.events ∨ t.GaveUp
  gaveUp : ∀ m, run {} steps = some m → ∀ t ∈ m.tasks, t.GaveUp ↔ t.Crashing
  /-- A failed respawn counts as an attempt. -/
  counted : ∀ before i m next t, steps = before ++ [.respawn i none] → run {} before = some m →
    m.step (.respawn i none) = some next → next.tasks[i]? = some t → m.now ∈ t.restartHistory
  /-- After a failed respawn the task comes to the next one by itself. -/
  retried : ∀ before i m, steps = before ++ [.respawn i none] → run {} steps = some m →
    ∃ wait, (∀ step ∈ wait, step = .resume i ∨ ∃ duration, step = .elapse duration) ∧
      ∀ pid, (m.run (wait ++ [.respawn i pid])).isSome
  backoff : ∀ m, run {} steps = some m → ∀ t ∈ m.tasks, ∀ attempt ms,
    .restarting attempt ms ∈ t.events →
      ms.toNat = min (1000 * 2 ^ (attempt - 1)) 30000 ∧ 1000 ≤ ms.toNat ∧ ms.toNat ≤ 30000
  growing : ∀ m, run {} steps = some m → ∀ t ∈ m.tasks, ∀ first later ms ms',
    .restarting first ms ∈ t.events → .restarting later ms' ∈ t.events → first ≤ later → ms ≤ ms'
  /-- When the last task of a label has ended, a start of the label succeeds. -/
  freed : ∀ m, run {} steps = some m → ∀ (i : Nat) (t : ManagedSubprocess),
    m.tasks[i]? = some t → t.phase = .ended →
    (∀ (j : Nat) (u : ManagedSubprocess), i < j → m.tasks[j]? = some u → u.label ≠ t.label) →
      m.isRunning t.label = false ∧ (m.lock = none → ∀ config pid, ∃ next,
        m.run [.start t.label config, .spawn (some pid)] = some next ∧ next.isRunning t.label)

/-- No respawn fails, no backoff follows the 62nd exit of a window, and no task gives up while its
label is registered to it. -/
def Spares (m : SubprocessManager) : ManagerStep → Prop
  | .respawn _ pid => pid.isSome
  | .resume i => ∀ t ∈ m.tasks[i]?, (t.Restarts m.now → t.attempt m.now ≤ 61) ∧
      (t.GivesUp m.now → m.registry t.label ≠ some i)
  | _ => True

instance (m : SubprocessManager) : DecidablePred m.Spares
  | .respawn _ _ | .resume _ => by unfold Spares; infer_instance
  | .elapse _ | .exit _ _ | .start _ _ | .spawn _ | .stop _ | .stopReturn => .isTrue trivial

def SparingSteps : SubprocessManager → List ManagerStep → Prop := Stepping.Meets step Spares

instance (m : SubprocessManager) : DecidablePred m.SparingSteps :=
  inferInstanceAs (DecidablePred (Stepping.Meets step Spares m))

/-- A step of the manager leaves each task as it was, lets it take a step, or notifies it. -/
theorem forall_task_of_step {Q : Nat → ManagedSubprocess → Prop} {step : ManagerStep}
    (stepped : m.step step = some next) (tasks : ∀ t ∈ m.tasks, Q m.now t)
    (waits : ∀ t duration, Q m.now t → Q (m.now + duration) t)
    (exits : ∀ t t' code, Q m.now t → t.childExits code = some t' → Q m.now t')
    (resumes : ∀ i t t', step = .resume i → m.tasks[i]? = some t → Q m.now t →
      t.resume m.now = some t' → Q m.now t')
    (respawns : ∀ i pid t t', step = .respawn i pid → Q m.now t →
      t.respawn m.now pid = some t' → Q m.now t')
    (spawns : ∀ label config pid, Q m.now (.spawn label config pid))
    (notifies : ∀ t, Q m.now t → Q m.now t.notify) : ∀ t ∈ next.tasks, Q next.now t := by
  have setting {i : Nat} {t t' : ManagedSubprocess} (moved : Q m.now t') :
      ∀ u ∈ m.tasks.set i t', Q m.now u := by
    intro u member
    obtain old | rfl := List.mem_or_eq_of_mem_set member
    · exact tasks u old
    · exact moved
  cases step with
  | elapse duration =>
      obtain rfl := Option.some.inj stepped
      exact fun t member => waits t duration (tasks t member)
  | exit i code =>
      obtain ⟨t, t', found, exited, rfl⟩ := onTask_eq_some stepped
      exact setting (t := t) (exits t t' code (tasks t (List.mem_of_getElem? found)) exited)
  | resume i =>
      obtain ⟨t, t', found, resumed, rfl⟩ := onTask_eq_some stepped
      exact setting (t := t)
        (resumes i t t' rfl found (tasks t (List.mem_of_getElem? found)) resumed)
  | respawn i pid =>
      obtain ⟨t, t', found, spawned, rfl⟩ := onTask_eq_some stepped
      exact setting (t := t)
        (respawns i pid t t' rfl (tasks t (List.mem_of_getElem? found)) spawned)
  | start label config =>
      obtain ⟨-, same | ⟨-, rfl⟩⟩ := start_eq_some stepped
      · rw [same]
        exact tasks
      · exact tasks
  | spawn pid =>
      obtain ⟨label, config, -, ⟨pid, -, rfl⟩ | ⟨-, rfl⟩⟩ := spawn_eq_some stepped
      · intro t member
        obtain old | new := List.mem_append.mp member
        · exact tasks t old
        · rw [List.mem_singleton.mp new]
          exact spawns label config pid
      · exact tasks
  | stop label =>
      obtain ⟨-, same | ⟨i, -, rfl⟩⟩ := stop_eq_some stepped
      · rw [same]
        exact tasks
      · intro t member
        obtain ⟨j, there⟩ := List.getElem?_of_mem member
        change (m.tasks.modify i ManagedSubprocess.notify)[j]? = some t at there
        rw [List.getElem?_modify] at there
        obtain ⟨u, before, rfl⟩ := Option.map_eq_some_iff.mp there
        have holds := tasks u (List.mem_of_getElem? before)
        split
        · exact notifies u holds
        · exact holds
  | stopReturn =>
      obtain ⟨label, wakes, -, -, rfl⟩ := stopReturn_eq_some stepped
      exact tasks

theorem counted_of_step {step : ManagerStep} (counted : ∀ t ∈ m.tasks, t.Counted m.now)
    (stepped : m.step step = some next) : ∀ t ∈ next.tasks, t.Counted next.now := by
  refine forall_task_of_step (Q := fun now t => t.Counted now) stepped counted ?_ ?_ ?_ ?_ ?_ ?_
  · exact fun t duration counted => counted.wait (Nat.le_add_right _ _)
  · exact fun t t' code counted exited => counted.childExits exited
  · exact fun i t t' _ _ counted resumed => counted.resume resumed
  · exact fun i pid t t' _ counted spawned => counted.respawn spawned
  · exact fun label config pid => ManagedSubprocess.counted_spawn label config pid m.now
  · exact fun t counted => counted.of_same ⟨rfl, rfl, rfl, rfl⟩ id

/-- In every run, a task has given up exactly when more exits than allowed have come within one
restart window. -/
theorem gaveUp_iff_crashing {steps : List ManagerStep} (ran : run {} steps = some m) :
    ∀ t ∈ m.tasks, t.GaveUp ↔ t.Crashing := by
  have counted : ∀ t ∈ m.tasks, t.Counted m.now :=
    Stepping.run_invariant (I := fun m => ∀ t ∈ m.tasks, t.Counted m.now) counted_of_step
      (fun t member => absurd member List.not_mem_nil) ran
  exact fun t member => (counted t member).gaveUp

/-! ## Runs that spare the tasks -/

/-- A registered task is the last of its label, and goes on. -/
structure Regular (m : SubprocessManager) : Prop where
  spared : ∀ t ∈ m.tasks, t.Spared
  registered : ∀ label i, m.registry label = some i →
    ∃ t, m.tasks[i]? = some t ∧ t.label = label ∧ t.Steady
  newest : ∀ label (i j : Nat) (u : ManagedSubprocess), m.registry label = some i → i < j →
    m.tasks[j]? = some u → u.label ≠ label

theorem spared_of_step {step : ManagerStep} (spared : ∀ t ∈ m.tasks, t.Spared)
    (spares : m.Spares step) (stepped : m.step step = some next) : ∀ t ∈ next.tasks, t.Spared := by
  refine forall_task_of_step (Q := fun _ t => t.Spared) stepped spared ?_ ?_ ?_ ?_ ?_ ?_
  · exact fun t duration spared => spared
  · exact fun t t' code spared exited => (ManagedSubprocess.childExits_keeps exited).2.1 spared
  · rintro i t t' rfl found spared resumed
    exact spared.resume resumed (spares t found).1
  · rintro i pid t t' rfl spared spawned
    obtain ⟨pid, rfl⟩ := Option.isSome_iff_exists.mp spares
    rw [ManagedSubprocess.respawn_some spawned]
    exact ⟨trivial, (fun ended => by cases ended), spared.modest⟩
  · refine fun label config pid => ⟨rfl, (fun ended => by cases ended), fun _ _ member => ?_⟩
    cases List.mem_singleton.mp member
  · exact fun t spared => ⟨spared.seated, spared.ended, spared.modest⟩

namespace Regular

/-- One task has moved, and goes on if it is registered. -/
theorem setTask {i : Nat} {t t' : ManagedSubprocess} (regular : m.Regular)
    (found : m.tasks[i]? = some t) (label : t'.label = t.label)
    (spared : ∀ u ∈ m.tasks.set i t', u.Spared)
    (steady : m.registry t.label = some i → t.Steady → t'.Steady) :
    { m with tasks := m.tasks.set i t' }.Regular := by
  refine ⟨spared, fun l k own => ?_, fun l k j u own later there => ?_⟩
  · obtain ⟨u, there, same, goes⟩ := regular.registered l k own
    by_cases here : k = i
    · subst here
      obtain rfl := Option.some.inj (found.symm.trans there)
      have present := (List.getElem?_eq_some_iff.mp found).1
      refine ⟨t', List.getElem?_set_self present, label.trans same, steady ?_ goes⟩
      rw [same]
      exact own
    · exact ⟨u, (List.getElem?_set_ne (Ne.symm here)).trans there, same, goes⟩
  · obtain ⟨rfl, rfl⟩ | ⟨-, old⟩ := task_of_set there
    · rw [label]
      exact regular.newest l k j t own later found
    · exact regular.newest l k j u own later old

theorem of_step {step : ManagerStep} (regular : m.Regular) (spares : m.Spares step)
    (stepped : m.step step = some next) : next.Regular := by
  have spared := spared_of_step regular.spared spares stepped
  cases step with
  | elapse duration =>
      obtain rfl := Option.some.inj stepped
      exact ⟨spared, regular.registered, regular.newest⟩
  | exit i code =>
      obtain ⟨t, t', found, exited, rfl⟩ := onTask_eq_some stepped
      obtain ⟨label, -, steady⟩ := ManagedSubprocess.childExits_keeps exited
      exact regular.setTask found label spared fun _ => steady
  | resume i =>
      obtain ⟨t, t', found, resumed, rfl⟩ := onTask_eq_some stepped
      have seated := (regular.spared t (List.mem_of_getElem? found)).seated
      refine regular.setTask found (ManagedSubprocess.resume_label resumed) spared ?_
      intro own steady
      exact steady.resume seated resumed fun gives => (spares t found).2 gives own
  | respawn i pid =>
      obtain ⟨t, t', found, spawned, rfl⟩ := onTask_eq_some stepped
      obtain ⟨pid, rfl⟩ := Option.isSome_iff_exists.mp spares
      obtain rfl := ManagedSubprocess.respawn_some spawned
      exact regular.setTask found rfl spared fun _ steady => ⟨steady.1, trivial⟩
  | start label config =>
      obtain ⟨-, same | ⟨-, rfl⟩⟩ := start_eq_some stepped
      · rw [same]
        exact regular
      · exact ⟨spared, regular.registered, regular.newest⟩
  | spawn pid =>
      obtain ⟨label, config, -, ⟨pid, -, rfl⟩ | ⟨-, rfl⟩⟩ := spawn_eq_some stepped
      · refine ⟨spared, fun l k own => ?_, fun l k j u own later there => ?_⟩
        · obtain ⟨rfl, last⟩ | ⟨-, before⟩ := entry_of_update own
          · obtain rfl := Option.some.inj last
            exact ⟨_, List.getElem?_concat_length, rfl, rfl, trivial⟩
          · obtain ⟨u, there, same, steady⟩ := regular.registered l k before
            have inside := (List.getElem?_eq_some_iff.mp there).1
            exact ⟨u, (List.getElem?_append_left inside).trans there, same, steady⟩
        · have inside : j < (m.tasks ++ [ManagedSubprocess.spawn label config pid]).length :=
            (List.getElem?_eq_some_iff.mp there).1
          rw [List.length_append, List.length_singleton] at inside
          obtain ⟨rfl, last⟩ | ⟨here, before⟩ := entry_of_update own
          · have := Option.some.inj last
            omega
          · by_cases new : j = m.tasks.length
            · subst new
              obtain rfl := Option.some.inj (List.getElem?_concat_length.symm.trans there)
              exact Ne.symm here
            · have old := (List.getElem?_append_left (by omega)).symm.trans there
              exact regular.newest l k j u before later old
      · exact ⟨spared, regular.registered, regular.newest⟩
  | stop label =>
      obtain ⟨-, same | ⟨i, own, rfl⟩⟩ := stop_eq_some stepped
      · rw [same]
        exact regular
      · have other {l : String} {k : Nat}
            (kept : Function.update m.registry label none l = some k) :
            l ≠ label ∧ m.registry l = some k :=
          (entry_of_update kept).resolve_left fun absent => nomatch absent.2
        refine ⟨spared, fun l k kept => ?_, fun l k j u kept later there => ?_⟩
        · obtain ⟨here, kept⟩ := other kept
          obtain ⟨u, there, same, steady⟩ := regular.registered l k kept
          refine ⟨u, ?_, same, steady⟩
          have different : i ≠ k := by
            rintro rfl
            obtain ⟨v, beside, named, -⟩ := regular.registered label i own
            obtain rfl := Option.some.inj (beside.symm.trans there)
            exact here (same.symm.trans named)
          change (m.tasks.modify i ManagedSubprocess.notify)[k]? = some u
          rw [List.getElem?_modify, there]
          exact congrArg some (if_neg different)
        · obtain ⟨here, kept⟩ := other kept
          change (m.tasks.modify i ManagedSubprocess.notify)[j]? = some u at there
          rw [List.getElem?_modify] at there
          obtain ⟨v, before, rfl⟩ := Option.map_eq_some_iff.mp there
          have different := regular.newest l k j v kept later before
          split
          · exact different
          · exact different
  | stopReturn =>
      obtain ⟨label, wakes, -, -, rfl⟩ := stopReturn_eq_some stepped
      exact ⟨spared, regular.registered, regular.newest⟩

theorem empty : ({} : SubprocessManager).Regular where
  spared _ member := absurd member List.not_mem_nil
  registered _ _ own := by cases own
  newest _ _ _ _ own := by cases own

/-- The label of an ended task is free, if no later task has it. -/
theorem not_registered {i : Nat} {t : ManagedSubprocess} (regular : m.Regular)
    (found : m.tasks[i]? = some t) (ended : t.phase = .ended)
    (last : ∀ (j : Nat) (u : ManagedSubprocess), i < j → m.tasks[j]? = some u →
      u.label ≠ t.label) : m.registry t.label = none := by
  by_contra taken
  obtain ⟨k, own⟩ := Option.ne_none_iff_exists'.mp taken
  obtain ⟨u, there, same, steady⟩ := regular.registered t.label k own
  obtain less | rfl | more := Nat.lt_trichotomy k i
  · exact regular.newest t.label k i t own less found rfl
  · obtain rfl := Option.some.inj (found.symm.trans there)
    obtain ⟨-, awake⟩ := steady
    rw [ended] at awake
    exact awake
  · exact last k u more there same

theorem backoff {t : ManagedSubprocess} {attempt : Nat} {ms : UInt64} (regular : m.Regular)
    (member : t ∈ m.tasks) (said : .restarting attempt ms ∈ t.events) :
    ms.toNat = min (1000 * 2 ^ (attempt - 1)) 30000 := by
  obtain ⟨first, few, rfl⟩ := (regular.spared t member).modest attempt ms said
  exact backoffMs_toNat first few

end Regular

/-- A start of a label that is not registered succeeds when its child spawns. -/
theorem start_succeeds {label : String} (free : m.registry label = none) (unlocked : m.lock = none)
    (config : SubprocessConfig) (pid : UInt32) : ∃ next,
      m.run [.start label config, .spawn (some pid)] = some next ∧ next.isRunning label := by
  have started : m.step (.start label config) =
      some { m with lock := some (.starting label config) } := by
    simp only [step, unlocked, free]
  refine ⟨_, Option.bind_eq_some_iff.mpr ⟨_, started, rfl⟩, ?_⟩
  simp [isRunning, register]

/-- In every run in which no respawn fails, no backoff follows the 62nd exit of a window and no
task gives up while it is registered, restarts are as configured and ended labels are free. -/
theorem maintained_of_sparing (steps : List ManagerStep)
    (sparing : ({} : SubprocessManager).SparingSteps steps) : Maintained steps := by
  have regular {m : SubprocessManager} (ran : run {} steps = some m) : m.Regular :=
    sparing.invariant Regular.of_step Regular.empty ran
  have respawns {before : List ManagerStep} {i : Nat} {m : SubprocessManager}
      (same : steps = before ++ [.respawn i none]) (ran : run {} before = some m) : False := by
    rw [same] at sparing
    cases (sparing.after ran).1
  constructor
  · intro m ran t member
    exact ((regular ran).spared t member).ended
  · exact fun m ran => gaveUp_iff_crashing ran
  · intro before i m next t same ran
    exact (respawns same ran).elim
  · intro before i m same ran
    rw [same] at ran
    obtain ⟨middle, first⟩ := Stepping.run_before ran
    exact (respawns same first).elim
  · intro m ran t member attempt ms said
    have exact_ms := (regular ran).backoff member said
    have power : 1 ≤ 2 ^ (attempt - 1) := Nat.one_le_two_pow
    refine ⟨exact_ms, ?_⟩
    omega
  · intro m ran t member first later ms ms' said said' order
    have ms_eq := (regular ran).backoff member said
    have ms'_eq := (regular ran).backoff member said'
    have power : 2 ^ (first - 1) ≤ 2 ^ (later - 1) := Nat.pow_le_pow_right (by decide) (by omega)
    rw [UInt64.le_iff_toNat_le]
    omega
  · intro m ran i t found ended last
    have free := (regular ran).not_registered found ended last
    refine ⟨?_, fun unlocked config pid => start_succeeds free unlocked config pid⟩
    rw [isRunning, free]
    rfl

end SubprocessManager

namespace Sample

open SubprocessManager

/-- A child exits and is spawned again, and the host is stopped. -/
def recovered : List ManagerStep :=
  [.start "host" {}, .spawn (some 7), .resume 0, .exit 0 (some 1), .resume 0, .resume 0,
    .elapse (seconds 1), .respawn 0 (some 8), .resume 0, .resume 0, .stop "host", .resume 0,
    .exit 0 none, .resume 0]

theorem recovered_maintained : Maintained recovered :=
  maintained_of_sparing recovered (by decide)

/-- The child exits, and its binary is gone. -/
def missing : List ManagerStep :=
  [.start "host" {}, .spawn (some 7), .resume 0, .exit 0 (some 1), .resume 0, .resume 0,
    .elapse (seconds 1), .respawn 0 none, .elapse (seconds 5), .resume 0, .resume 0]

/-- The child exits once more than it may. -/
def exhausted : List ManagerStep :=
  [.start "host" { maxRestarts := 0 }, .spawn (some 7), .resume 0, .exit 0 (some 1), .resume 0,
    .resume 0]

/-- A task that does not spawn again ends without an event; one that gives up keeps its label. -/
theorem missing_not_maintained : ¬ Maintained missing ∧ ¬ Maintained exhausted := by
  constructor
  · intro maintained
    have silent : ((run {} missing).bind fun m => m.tasks[0]?.map fun t =>
        (t.phase, t.events.any fun event => event matches .stopped | .giveUp _ _)) =
          some (.ended, false) := by decide
    obtain ⟨m, ran, silent⟩ := Option.bind_eq_some_iff.mp silent
    obtain ⟨t, found, same⟩ := Option.map_eq_some_iff.mp silent
    obtain ⟨ended, unsaid⟩ := Prod.mk.inj same
    have quiet := List.any_eq_false.mp unsaid
    obtain stopped | ⟨code, reason, gave⟩ :=
      maintained.ended m ran t (List.mem_of_getElem? found) ended
    · exact quiet _ stopped rfl
    · exact quiet _ gave rfl
  · intro maintained
    have taken : ((run {} exhausted).bind fun m => m.tasks[0]?.map fun t =>
        (t.phase, m.isRunning t.label, m.tasks.length)) = some (.ended, true, 1) := by
      decide
    obtain ⟨m, ran, taken⟩ := Option.bind_eq_some_iff.mp taken
    obtain ⟨t, found, same⟩ := Option.map_eq_some_iff.mp taken
    obtain ⟨ended, running, length⟩ : t.phase = .ended ∧ m.isRunning t.label = true ∧
        m.tasks.length = 1 := by
      simpa only [Prod.mk.injEq] using same
    obtain ⟨free, -⟩ := maintained.freed m ran 0 t found ended fun j u later there => by
      have inside := (List.getElem?_eq_some_iff.mp there).1
      omega
    rw [running] at free
    cases free

end Sample

end Qubox.Daemon
