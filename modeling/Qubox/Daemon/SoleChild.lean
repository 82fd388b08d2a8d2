import Qubox.Daemon.Subprocess

/-!
# One child for a label

A stopped task spawns no more children unless the notification comes during a backoff, which
nobody interrupts; and `stop` returns before the child is dead. So a label has one child at
most, and none is spawned after a stop, in the runs that stop no subprocess in its backoff
and start none while the old child of the label is being killed.
-/

namespace Qubox.Daemon

namespace ManagedSubprocess

variable {t next : ManagedSubprocess} {now : Nat}

def Live (t : ManagedSubprocess) : Prop := t.liveChildren ≠ []

/-- The task will end without another child. -/
def Doomed (t : ManagedSubprocess) : Prop :=
  match t.phase with
  | .terminating _ | .killing | .ended => True
  | .backoff _ => False
  | _ => t.stopFlag = true

def Asleep (t : ManagedSubprocess) : Prop :=
  match t.phase with
  | .backoff _ => True
  | _ => False

instance (t : ManagedSubprocess) : Decidable t.Asleep :=
  match phase : t.phase with
  | .backoff _ => .isTrue (by rw [Asleep, phase]; trivial)
  | .head | .waiting | .terminating _ | .killing | .exited _ | .respawned _ | .respawnFailed _
  | .ended => .isFalse (by rw [Asleep, phase]; exact id)

/-- The slot is empty where the task has no child, or has one at hand. -/
def Tidy (t : ManagedSubprocess) : Prop :=
  match t.phase with
  | .exited _ | .backoff _ | .respawned _ | .respawnFailed _ | .ended => t.child = none
  | _ => True

theorem length_liveChildren_le (tidy : t.Tidy) : t.liveChildren.length ≤ 1 := by
  refine Nat.le_trans (List.length_filter_le _ _) ?_
  unfold children
  split
  case h_1 child phase =>
    have empty : t.child = none := by simpa only [Tidy, phase] using tidy
    rw [empty]
    exact Nat.le_refl _
  case h_2 =>
    rw [List.append_nil]
    cases t.child <;> simp

/-- What a task does at a step that spawns nothing. -/
structure Winds (t next : ManagedSubprocess) : Prop where
  label : next.label = t.label
  tidy : next.Tidy
  live : next.Live → t.Live
  doomed : t.Doomed → next.Doomed

theorem Winds.of_same (label : next.label = t.label) (tidy : next.Tidy)
    (children : next.children = t.children) (doomed : t.Doomed → next.Doomed) : t.Winds next where
  label := label
  tidy := tidy
  live live := by rwa [Live, liveChildren, children] at live
  doomed := doomed

theorem Winds.notify (tidy : t.Tidy) : t.Winds t.notify := by
  refine .of_same rfl tidy rfl fun doomed => ?_
  unfold Doomed ManagedSubprocess.notify at *
  dsimp only
  split at doomed
  case h_1 | h_2 | h_3 => trivial
  case h_4 => exact doomed.elim
  case h_5 => rfl

theorem doomed_notify (awake : ¬ t.Asleep) : t.notify.Doomed := by
  unfold Doomed ManagedSubprocess.notify
  dsimp only
  split
  case h_1 | h_2 | h_3 => trivial
  case h_4 wakes phase =>
    rw [Asleep, phase] at awake
    exact awake trivial
  case h_5 => rfl

theorem Winds.of_childless (label : next.label = t.label) (tidy : next.Tidy)
    (children : next.children = []) (doomed : t.Doomed → next.Doomed) : t.Winds next where
  label := label
  tidy := tidy
  live live := by
    rw [Live, liveChildren, children] at live
    exact absurd rfl live
  doomed := doomed

theorem winds_resume (tidy : t.Tidy) (resumed : t.resume now = some next)
    (unnotified : t.Restarts now → t.stopFlag = false) : t.Winds next := by
  obtain ⟨label, config, child, currentPid, stopFlag, history, events, phase, exits⟩ := t
  cases phase with
  | head =>
      cases child with
      | some child =>
          obtain rfl := Option.some.inj resumed
          exact .of_same rfl trivial rfl id
      | none =>
          obtain rfl := Option.some.inj resumed
          exact .of_same rfl rfl rfl fun _ => trivial
  | waiting =>
      cases stopFlag with
      | true =>
          obtain rfl := Option.some.inj resumed
          exact .of_same rfl trivial rfl fun _ => trivial
      | false =>
          obtain ⟨code, -, rfl⟩ := Option.map_eq_some_iff.mp resumed
          exact .of_childless rfl rfl rfl fun doomed => by cases doomed
  | terminating deadline =>
      unfold resume at resumed
      dsimp only at resumed
      split at resumed
      · obtain rfl := Option.some.inj resumed
        exact .of_same rfl trivial rfl id
      · obtain ⟨code, -, rfl⟩ := Option.map_eq_some_iff.mp resumed
        exact .of_childless rfl rfl rfl id
  | killing =>
      obtain ⟨code, -, rfl⟩ := Option.map_eq_some_iff.mp resumed
      exact .of_childless rfl rfl rfl id
  | exited code =>
      obtain rfl := Option.some.inj resumed
      obtain rfl : child = none := tidy
      unfold record
      split
      case isTrue => exact .of_same rfl rfl rfl fun _ => trivial
      case isFalse few =>
        refine .of_same rfl rfl rfl fun doomed => ?_
        have notified : stopFlag = true := doomed
        have quiet : stopFlag = false := unnotified (Nat.le_of_not_lt few)
        rw [quiet] at notified
        cases notified
  | backoff wakes => cases resumed
  | respawned child' =>
      obtain rfl := Option.some.inj resumed
      obtain rfl : child = none := tidy
      exact .of_same rfl trivial rfl id
  | respawnFailed wakes =>
      obtain rfl : child = none := tidy
      unfold resume at resumed
      dsimp only at resumed
      split at resumed
      · obtain rfl := Option.some.inj resumed
        exact .of_same rfl trivial rfl id
      · cases resumed
  | ended => cases resumed

theorem winds_childExits {code : Option Int32} (tidy : t.Tidy)
    (exits : t.childExits code = some next) : t.Winds next := by
  unfold childExits at exits
  split at exits
  case h_1 pid slot =>
    obtain rfl := Option.some.inj exits
    refine ⟨rfl, ?_, fun _ => ?_, id⟩
    · unfold Tidy at tidy ⊢
      cases phase : t.phase <;> simp_all
    · simp [Live, liveChildren, children, slot]
  case h_2 pid phase _ =>
    obtain rfl := Option.some.inj exits
    refine ⟨rfl, ?_, fun _ => ?_, fun doomed => ?_⟩
    · simpa only [Tidy, phase, goto] using tidy
    · simp [Live, liveChildren, children, phase]
    · simpa only [Doomed, phase, goto] using doomed
  case h_3 => cases exits

/-- Only a task in its backoff spawns a child. -/
theorem respawn_eq_some {pid : Option UInt32} (spawned : t.respawn now pid = some next) :
    (∃ wakes, t.phase = .backoff wakes) ∧ next.label = t.label ∧
      (t.Tidy → next.Tidy) := by
  unfold respawn at spawned
  split at spawned
  case h_1 wakes phase =>
    split at spawned
    · refine ⟨⟨wakes, phase⟩, ?_⟩
      cases pid with
      | some pid | none =>
          obtain rfl := Option.some.inj spawned
          exact ⟨rfl, fun tidy => by simpa only [Tidy, phase, goto] using tidy⟩
    · cases spawned
  case h_2 => cases spawned

theorem not_doomed {wakes : Nat} (phase : t.phase = .backoff wakes) : ¬ t.Doomed := by
  rw [Doomed, phase]
  exact not_false

end ManagedSubprocess

namespace SubprocessManager

variable {m next : SubprocessManager}

/-! ## Careful runs -/

/-- The step spawns a child of the label. -/
def Spawns (m : SubprocessManager) (label : String) : ManagerStep → Prop
  | .respawn i (some _) => ∃ t, m.tasks[i]? = some t ∧ t.label = label
  | .spawn (some _) => ∃ config, m.lock = some (.starting label config)
  | _ => False

/-- What is owed to the labels after some steps from an empty registry. -/
structure WellManaged (steps : List ManagerStep) : Prop where
  sole : ∀ m label, run {} steps = some m → (m.liveChildren label).length ≤ 1
  /-- After a stop has returned, no child is spawned until a later start. -/
  final : ∀ before later last label wakes stopping reached next,
    steps = before ++ .stopReturn :: (later ++ [last]) → run {} before = some stopping →
    stopping.lock = some (.stopping label wakes) →
    run stopping (.stopReturn :: later) = some reached → reached.step last = some next →
    (∀ config, .start label config ∉ later) → ¬ reached.Spawns label last

/-- A subprocess that goes into its backoff has no notification stored, none is stopped in its
backoff, and none is spawned by a start while an earlier child of the label lives. -/
def Careful (m : SubprocessManager) : ManagerStep → Prop
  | .resume i => ∀ t ∈ m.tasks[i]?, t.Restarts m.now → t.stopFlag = false
  | .stop label => ∀ i ∈ m.registry label, ∀ t ∈ m.tasks[i]?, ¬ t.Asleep
  | .spawn (some _) => ∀ call ∈ m.lock, m.liveChildren call.label = []
  | _ => True

instance (m : SubprocessManager) : DecidablePred m.Careful
  | .resume _ | .stop _ | .spawn (some _) => by unfold Careful; infer_instance
  | .elapse _ | .exit _ _ | .respawn _ _ | .start _ _ | .spawn none | .stopReturn => .isTrue trivial

def CarefulSteps : SubprocessManager → List ManagerStep → Prop := Stepping.Meets step Careful

instance (m : SubprocessManager) : DecidablePred m.CarefulSteps :=
  inferInstanceAs (DecidablePred (Stepping.Meets step Careful m))

/-- The registered subprocess of a label is its only one with a live child; the others end. -/
structure Orderly (m : SubprocessManager) : Prop where
  tidy : ∀ t ∈ m.tasks, t.Tidy
  registered : ∀ label i, m.registry label = some i →
    ∃ t, m.tasks[i]? = some t ∧ t.label = label
  doomed : ∀ i t, m.tasks[i]? = some t → m.registry t.label ≠ some i → t.Doomed
  alone : ∀ label i j u, m.registry label = some i → m.tasks[j]? = some u → u.label = label →
    u.Live → j = i
  sole : ∀ (i j : Nat) t u, m.tasks[i]? = some t → m.tasks[j]? = some u → t.label = u.label →
    t.Live → u.Live → i = j
  locked : ∀ label config wakes, m.lock = some (.starting label config) ∨
    m.lock = some (.stopping label wakes) → m.registry label = none

namespace Orderly

/-- One task has moved; it has a new child only if it is registered. -/
theorem setTask {i : Nat} {t t' : ManagedSubprocess} (orderly : m.Orderly)
    (found : m.tasks[i]? = some t) (label : t'.label = t.label) (tidy : t'.Tidy)
    (live : t'.Live → t.Live ∨ m.registry t.label = some i)
    (doomed : m.registry t.label ≠ some i → t.Doomed → t'.Doomed) :
    { m with tasks := m.tasks.set i t' }.Orderly := by
  have other {j : Nat} {u : ManagedSubprocess} (there : (m.tasks.set i t')[j]? = some u)
      (same : u.label = t.label) (alive : u.Live) :
      ∃ u', m.tasks[j]? = some u' ∧ u'.label = t.label ∧
        (u'.Live ∨ j = i ∧ m.registry t.label = some i) := by
    obtain ⟨rfl, rfl⟩ | ⟨-, old⟩ := task_of_set there
    · exact ⟨t, found, rfl, (live alive).imp_right fun own => ⟨rfl, own⟩⟩
    · exact ⟨u, old, same, .inl alive⟩
  have present := (List.getElem?_eq_some_iff.mp found).1
  refine ⟨fun u member => ?_, fun l k own => ?_, fun j u there unregistered => ?_,
    fun l k j u own there same alive => ?_, fun j k u v uj vk same ulive vlive => ?_,
    orderly.locked⟩
  · obtain old | rfl := List.mem_or_eq_of_mem_set member
    · exact orderly.tidy u old
    · exact tidy
  · obtain ⟨u, there, same⟩ := orderly.registered l k own
    by_cases here : k = i
    · subst here
      obtain rfl := Option.some.inj (found.symm.trans there)
      exact ⟨t', List.getElem?_set_self present, label.trans same⟩
    · exact ⟨u, (List.getElem?_set_ne (Ne.symm here)).trans there, same⟩
  · obtain ⟨rfl, rfl⟩ | ⟨-, old⟩ := task_of_set there
    · rw [label] at unregistered
      exact doomed unregistered (orderly.doomed j t found unregistered)
    · exact orderly.doomed j u old unregistered
  · by_cases mine : l = t.label
    · subst mine
      obtain ⟨u', old, same', alive' | ⟨rfl, here⟩⟩ := other there same alive
      · exact orderly.alone t.label k j u' own old same' alive'
      · exact Option.some.inj (here.symm.trans own)
    · obtain ⟨rfl, rfl⟩ | ⟨-, old⟩ := task_of_set there
      · exact absurd (same.symm.trans label) mine
      · exact orderly.alone l k j u own old same alive
  · by_cases mine : u.label = t.label
    · obtain ⟨u', oldu, sameu, fromu⟩ := other uj mine ulive
      obtain ⟨v', oldv, samev, fromv⟩ := other vk (same.symm.trans mine) vlive
      obtain ulive' | ⟨rfl, own⟩ := fromu
      · obtain vlive' | ⟨rfl, own⟩ := fromv
        · exact orderly.sole j k u' v' oldu oldv (sameu.trans samev.symm) ulive' vlive'
        · exact orderly.alone t.label k j u' own oldu sameu ulive'
      · obtain vlive' | ⟨rfl, -⟩ := fromv
        · exact (orderly.alone t.label j k v' own oldv samev vlive').symm
        · rfl
    · obtain ⟨rfl, rfl⟩ | ⟨-, oldu⟩ := task_of_set uj
      · exact absurd label mine
      · obtain ⟨rfl, rfl⟩ | ⟨-, oldv⟩ := task_of_set vk
        · exact absurd (same.trans label) mine
        · exact orderly.sole j k u v oldu oldv same ulive vlive

theorem winds {i : Nat} {t t' : ManagedSubprocess} (orderly : m.Orderly)
    (found : m.tasks[i]? = some t) (winds : t.Winds t') :
    { m with tasks := m.tasks.set i t' }.Orderly :=
  orderly.setTask found winds.label winds.tidy (fun live => .inl (winds.live live))
    fun _ => winds.doomed

/-- Neither the clock nor the lock matters to the tasks. -/
theorem relock (orderly : m.Orderly) (lock : Option RegistryCall) (now : Nat)
    (locked : ∀ label config wakes, lock = some (.starting label config) ∨
      lock = some (.stopping label wakes) → m.registry label = none) :
    { m with now, lock }.Orderly :=
  ⟨orderly.tidy, orderly.registered, orderly.doomed, orderly.alone, orderly.sole, locked⟩

theorem unlock (orderly : m.Orderly) : { m with lock := none }.Orderly := by
  refine orderly.relock none m.now fun _ _ _ held => ?_
  obtain absent | absent := held
  · cases absent
  · cases absent

/-- A start finds no live child of its label. -/
theorem register (orderly : m.Orderly) {label : String} {config : SubprocessConfig} {pid : UInt32}
    (free : m.registry label = none) (dead : ∀ t ∈ m.tasks, t.label = label → ¬ t.Live) :
    { m.register label (.spawn label config pid) with lock := none }.Orderly := by
  have old {j : Nat} {u : ManagedSubprocess} (there : (m.tasks ++ [.spawn label config pid])[j]? =
      some u) : u = .spawn label config pid ∧ j = m.tasks.length ∨ m.tasks[j]? = some u := by
    rw [List.getElem?_append] at there
    split at there
    case isTrue => exact .inr there
    case isFalse late =>
      rw [List.getElem?_singleton] at there
      split at there
      case isTrue last => exact .inl ⟨(Option.some.inj there).symm, by omega⟩
      case isFalse => cases there
  have gone {j : Nat} {u : ManagedSubprocess} (there : m.tasks[j]? = some u)
      (same : u.label = label) : ¬ u.Live :=
    dead u (List.mem_of_getElem? there) same
  refine ⟨fun u member => ?_, fun l k own => ?_, fun j u there unregistered => ?_,
    fun l k j u own there same alive => ?_, fun j k u v uj vk same ulive vlive => ?_,
    fun _ _ _ held => ?_⟩
  · obtain before | new := List.mem_append.mp member
    · exact orderly.tidy u before
    · obtain rfl := List.mem_singleton.mp new
      trivial
  · obtain ⟨rfl, last⟩ | ⟨-, before⟩ := entry_of_update own
    · obtain rfl := Option.some.inj last
      exact ⟨.spawn l config pid, List.getElem?_concat_length, rfl⟩
    · obtain ⟨u, there, same⟩ := orderly.registered l k before
      have inside := (List.getElem?_eq_some_iff.mp there).1
      exact ⟨u, (List.getElem?_append_left inside).trans there, same⟩
  · obtain ⟨rfl, rfl⟩ | before := old there
    · exact absurd (Function.update_self label _ _) unregistered
    · by_cases here : u.label = label
      · apply orderly.doomed j u before
        rw [here, free]
        exact fun absent => by cases absent
      · refine orderly.doomed j u before fun own => unregistered ?_
        exact (Function.update_of_ne here _ _).trans own
  · obtain ⟨rfl, last⟩ | ⟨here, owned⟩ := entry_of_update own
    · obtain ⟨-, rfl⟩ | before := old there
      · exact Option.some.inj last
      · exact absurd alive (gone before same)
    · obtain ⟨rfl, -⟩ | before := old there
      · exact absurd same.symm here
      · exact orderly.alone l k j u owned before same alive
  · obtain ⟨rfl, rfl⟩ | beforeu := old uj
    · obtain ⟨-, rfl⟩ | beforev := old vk
      · rfl
      · exact absurd vlive (gone beforev same.symm)
    · obtain ⟨rfl, -⟩ | beforev := old vk
      · exact absurd ulive (gone beforeu same)
      · exact orderly.sole j k u v beforeu beforev same ulive vlive
  · obtain absent | absent := held
    · cases absent
    · cases absent

/-- A subprocess that is going to end is taken out of the registry. -/
theorem forget {label : String} {i wakes : Nat} {t : ManagedSubprocess} (orderly : m.Orderly)
    (found : m.tasks[i]? = some t) (own : m.registry label = some i) (doomed : t.Doomed) :
    { m with
      registry := Function.update m.registry label none
      lock := some (.stopping label wakes) }.Orderly := by
  have kept {l : String} {k : Nat} (own : Function.update m.registry label none l = some k) :
      m.registry l = some k := by
    obtain ⟨-, absent⟩ | ⟨-, before⟩ := entry_of_update own
    · cases absent
    · exact before
  refine ⟨orderly.tidy, fun l k own => orderly.registered l k (kept own),
    fun j u there unregistered => ?_, fun l k j u own => orderly.alone l k j u (kept own),
    orderly.sole, fun l _ _ held => ?_⟩
  · by_cases here : i = j
    · subst here
      exact Option.some.inj (found.symm.trans there) ▸ doomed
    · refine orderly.doomed j u there fun mine => unregistered ?_
      have other : u.label ≠ label := by
        intro same
        rw [same, own] at mine
        exact here (Option.some.inj mine)
      exact (Function.update_of_ne other _ _).trans mine
  · obtain absent | held := held
    · cases absent
    · obtain rfl : label = l := by
        injection Option.some.inj held
      exact Function.update_self label _ _

/-- A stop does not find its subprocess in a backoff. -/
theorem unregister (orderly : m.Orderly) {label : String} {i wakes : Nat}
    (own : m.registry label = some i)
    (awake : ∀ t ∈ m.tasks[i]?, ¬ t.Asleep) :
    { m with
      registry := Function.update m.registry label none
      tasks := m.tasks.modify i ManagedSubprocess.notify
      lock := some (.stopping label wakes) }.Orderly := by
  obtain ⟨t, found, -⟩ := orderly.registered label i own
  have told : m.tasks.modify i ManagedSubprocess.notify = m.tasks.set i t.notify := by
    rw [List.modify_eq_set_getElem?, found]
    rfl
  have winding : { m with tasks := m.tasks.set i t.notify }.Orderly :=
    orderly.winds found (.notify (orderly.tidy t (List.mem_of_getElem? found)))
  rw [told]
  refine winding.forget ?_ own (ManagedSubprocess.doomed_notify (awake t found))
  exact List.getElem?_set_self (List.getElem?_eq_some_iff.mp found).1

theorem of_step {step : ManagerStep} (orderly : m.Orderly) (careful : m.Careful step)
    (stepped : m.step step = some next) : next.Orderly := by
  cases step with
  | elapse duration =>
      obtain rfl := Option.some.inj stepped
      exact orderly.relock m.lock _ orderly.locked
  | exit i code =>
      obtain ⟨t, t', found, exits, rfl⟩ := onTask_eq_some stepped
      have tidy := orderly.tidy t (List.mem_of_getElem? found)
      exact orderly.winds found (ManagedSubprocess.winds_childExits tidy exits)
  | resume i =>
      obtain ⟨t, t', found, resumed, rfl⟩ := onTask_eq_some stepped
      have tidy := orderly.tidy t (List.mem_of_getElem? found)
      have unnotified := careful t found
      exact orderly.winds found (ManagedSubprocess.winds_resume tidy resumed unnotified)
  | respawn i pid =>
      obtain ⟨t, t', found, spawned, rfl⟩ := onTask_eq_some stepped
      obtain ⟨⟨wakes, phase⟩, label, tidies⟩ := ManagedSubprocess.respawn_eq_some spawned
      have tidy := orderly.tidy t (List.mem_of_getElem? found)
      have own : m.registry t.label = some i := by
        by_contra unregistered
        exact ManagedSubprocess.not_doomed phase (orderly.doomed i t found unregistered)
      exact orderly.setTask found label (tidies tidy) (fun _ => .inr own)
        fun unregistered => absurd own unregistered
  | start label config =>
      obtain ⟨-, same | ⟨free, rfl⟩⟩ := start_eq_some stepped
      · rw [same]
        exact orderly
      · refine orderly.relock (some (.starting label config)) m.now fun l c w held => ?_
        obtain same | absent := held
        · obtain rfl : label = l := by injection Option.some.inj same
          exact free
        · cases absent
  | spawn pid =>
      obtain ⟨label, config, held, ⟨pid, rfl, rfl⟩ | ⟨rfl, rfl⟩⟩ := spawn_eq_some stepped
      · have free := orderly.locked label config 0 (.inl held)
        have none_live : m.liveChildren label = [] := careful _ held
        refine orderly.register free fun t member same live => live ?_
        have each := List.flatMap_eq_nil_iff.mp none_live t member
        rwa [if_pos same] at each
      · exact orderly.unlock
  | stop label =>
      obtain ⟨-, same | ⟨i, own, rfl⟩⟩ := stop_eq_some stepped
      · rw [same]
        exact orderly
      · exact orderly.unregister own (careful i own)
  | stopReturn =>
      obtain ⟨label, wakes, -, -, rfl⟩ := stopReturn_eq_some stepped
      exact orderly.unlock

theorem empty : ({} : SubprocessManager).Orderly where
  tidy _ member := absurd member List.not_mem_nil
  registered _ _ own := by cases own
  doomed i _ found := by cases found
  alone _ _ _ _ own := by cases own
  sole _ _ _ _ found := by cases found
  locked _ _ _ _ := rfl

theorem length_liveChildren_le (orderly : m.Orderly) (label : String) :
    (m.liveChildren label).length ≤ 1 := by
  have sole := orderly.sole
  have tidy := orderly.tidy
  unfold liveChildren
  generalize m.tasks = tasks at sole tidy
  induction tasks with
  | nil => exact Nat.zero_le _
  | cons t rest ih =>
      rw [List.flatMap_cons, List.length_append]
      have later := ih (fun i j u v ui vj => by
        have := sole (i + 1) (j + 1) u v ui vj
        intro same ulive vlive
        exact Nat.succ.inj (this same ulive vlive)) fun u member => tidy u (.tail _ member)
      by_cases alive : t.label = label ∧ t.Live
      · have others : (rest.flatMap fun u => if u.label = label then u.liveChildren else []) =
            [] := by
          refine List.flatMap_eq_nil_iff.mpr fun u member => ?_
          obtain ⟨j, there⟩ := List.getElem?_of_mem member
          split
          case isTrue same =>
            by_contra ulive
            cases sole 0 (j + 1) t u rfl there (alive.1.trans same.symm) alive.2 ulive
          case isFalse => rfl
        rw [others, List.length_nil, Nat.add_zero, if_pos alive.1]
        exact ManagedSubprocess.length_liveChildren_le (tidy t (.head _))
      · have nothing : (if t.label = label then t.liveChildren else []) = [] := by
          split
          case isTrue same =>
            by_contra live
            exact alive ⟨same, live⟩
          case isFalse => rfl
        rwa [nothing, List.length_nil, Nat.zero_add]

/-- A label that is not registered, and is not being started, gets no child. -/
theorem not_spawns {label : String} {step : ManagerStep} (orderly : m.Orderly)
    (free : m.registry label = none)
    (unstarted : ∀ config, m.lock ≠ some (.starting label config))
    (stepped : m.step step = some next) : ¬ m.Spawns label step := by
  intro spawns
  unfold Spawns at spawns
  split at spawns
  case h_1 i pid =>
    obtain ⟨t, found, rfl⟩ := spawns
    obtain ⟨t', _, there, spawned, -⟩ := onTask_eq_some stepped
    obtain rfl := Option.some.inj (found.symm.trans there)
    obtain ⟨⟨wakes, phase⟩, -⟩ := ManagedSubprocess.respawn_eq_some spawned
    refine ManagedSubprocess.not_doomed phase (orderly.doomed i t found ?_)
    rw [free]
    exact fun absent => by cases absent
  case h_2 =>
    obtain ⟨config, held⟩ := spawns
    exact unstarted config held
  case h_3 => exact spawns

end Orderly

/-- The label is not registered, nor is a start of it on its way. -/
def Free (m : SubprocessManager) (label : String) : Prop :=
  m.registry label = none ∧ ∀ config, m.lock ≠ some (.starting label config)

/-- A label is taken by a start of it only. -/
theorem Free.of_step {label : String} {step : ManagerStep} (free : m.Free label)
    (unstarted : ∀ config, step ≠ .start label config) (stepped : m.step step = some next) :
    next.Free label := by
  cases step with
  | elapse duration =>
      obtain rfl := Option.some.inj stepped
      exact free
  | exit i code | resume i | respawn i pid =>
      obtain ⟨t, t', -, -, rfl⟩ := onTask_eq_some stepped
      exact free
  | start other config =>
      have different : other ≠ label := by
        rintro rfl
        exact unstarted config rfl
      obtain ⟨-, same | ⟨-, rfl⟩⟩ := start_eq_some stepped
      · rw [same]
        exact free
      · refine ⟨free.1, fun config' held => different ?_⟩
        injection Option.some.inj held
  | spawn pid =>
      obtain ⟨other, config, held, ⟨pid, -, rfl⟩ | ⟨-, rfl⟩⟩ := spawn_eq_some stepped
      · have different : label ≠ other := by
          rintro rfl
          exact free.2 config held
        refine ⟨(Function.update_of_ne different _ _).trans free.1, fun _ absent => ?_⟩
        cases absent
      · exact ⟨free.1, fun _ absent => by cases absent⟩
  | stop other =>
      obtain ⟨-, same | ⟨i, -, rfl⟩⟩ := stop_eq_some stepped
      · rw [same]
        exact free
      · refine ⟨?_, fun _ absent => by cases absent⟩
        change Function.update m.registry other none label = none
        by_cases same : label = other
        · rw [same, Function.update_self]
        · rw [Function.update_of_ne same, free.1]
  | stopReturn =>
      obtain ⟨other, wakes, -, -, rfl⟩ := stopReturn_eq_some stepped
      exact ⟨free.1, fun _ absent => by cases absent⟩

theorem Free.of_run {label : String} {steps : List ManagerStep} (free : m.Free label)
    (unstarted : ∀ config, .start label config ∉ steps) (ran : m.run steps = some next) :
    next.Free label := by
  induction steps generalizing m with
  | nil =>
      obtain rfl := Option.some.inj ran
      exact free
  | cons step rest ih =>
      obtain ⟨middle, stepped, ran⟩ := Option.bind_eq_some_iff.mp ran
      have first := free.of_step (fun config same => unstarted config (same ▸ .head _)) stepped
      exact ih first (fun config member => unstarted config (.tail _ member)) ran

/-- In every run that stops no subprocess in its backoff, and starts none before the earlier
child of the label is dead, a label has one live child at most and a stop is final. -/
theorem wellManaged_of_careful (steps : List ManagerStep)
    (careful : ({} : SubprocessManager).CarefulSteps steps) : WellManaged steps where
  sole m label ran := by
    have orderly : m.Orderly := careful.invariant Orderly.of_step Orderly.empty ran
    exact orderly.length_liveChildren_le label
  final before later last label wakes stopping reached next same first held ran stepped
      unstarted := by
    rw [same] at careful
    have before_ok : stopping.Orderly :=
      careful.before.invariant Orderly.of_step Orderly.empty first
    have rest : stopping.CarefulSteps ((.stopReturn :: later) ++ [last]) := careful.after first
    have orderly : reached.Orderly := rest.before.invariant Orderly.of_step before_ok ran
    have stopped : stopping.Free label := by
      refine ⟨before_ok.locked label {} wakes (.inr held), fun config starting => ?_⟩
      rw [held] at starting
      cases starting
    have free : reached.Free label := by
      refine stopped.of_run (fun config member => ?_) ran
      obtain absent | member := List.mem_cons.mp member
      · cases absent
      · exact unstarted config member
    exact orderly.not_spawns free.1 free.2 stepped

end SubprocessManager

namespace Sample

open SubprocessManager

/-- A host is started and its child exits. -/
def crashed : List ManagerStep :=
  [.start "host" {}, .spawn (some 7), .resume 0, .exit 0 (some 1), .resume 0, .resume 0]

/-- The host is stopped in its backoff. -/
def asleep : List ManagerStep := crashed ++ [.stop "host", .elapse (seconds 1)]

def stoppedAsleep : List ManagerStep := asleep ++ [.stopReturn, .respawn 0 (some 8)]

/-- The host takes its time to die, and is started again. -/
def restartedEarly : List ManagerStep :=
  [.start "host" {}, .spawn (some 7), .resume 0, .stop "host", .resume 0,
    .elapse (milliseconds 100), .stopReturn, .start "host" {}, .spawn (some 8)]

/-- The host is stopped, dies, and is started again. -/
def restarted : List ManagerStep :=
  [.start "host" {}, .spawn (some 7), .resume 0, .stop "host", .resume 0, .exit 0 none, .resume 0,
    .elapse (milliseconds 100), .stopReturn, .start "host" {}, .spawn (some 8)]

theorem restarted_wellManaged : WellManaged restarted :=
  wellManaged_of_careful restarted (by decide)

def after (m : SubprocessManager) (steps : List ManagerStep) : SubprocessManager :=
  (m.run steps).getD m

theorem run_after (m : SubprocessManager) (steps : List ManagerStep)
    (runs : (m.run steps).isSome) : m.run steps = some (after m steps) := by
  obtain ⟨last, ran⟩ := Option.isSome_iff_exists.mp runs
  rw [after, ran, Option.getD_some]

/-- A stop in the backoff is followed by another child; a start soon after a stop gives the label
a second live child. -/
theorem stopped_not_wellManaged : ¬ WellManaged stoppedAsleep ∧ ¬ WellManaged restartedEarly := by
  constructor
  · intro managed
    have first := run_after {} asleep (by decide)
    have stopped := run_after (after {} asleep) [.stopReturn] (by decide)
    have spawned : ((after (after {} asleep) [.stopReturn]).step (.respawn 0 (some 8))).isSome := by
      decide
    have host : (after (after {} asleep) [.stopReturn]).tasks[0]?.map (·.label) = some "host" := by
      decide
    obtain ⟨next, spawned⟩ := Option.isSome_iff_exists.mp spawned
    refine managed.final asleep [] (.respawn 0 (some 8)) "host" (milliseconds 100) _ _ next rfl
      first (by decide) stopped spawned (fun _ member => ?_) (Option.map_eq_some_iff.mp host)
    cases member
  · intro managed
    have ran := run_after {} restartedEarly (by decide)
    exact absurd (managed.sole _ "host" ran) (by decide)

end Sample

end Qubox.Daemon
