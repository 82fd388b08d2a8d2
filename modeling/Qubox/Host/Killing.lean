import Qubox.Host.Sessions

/-!
# Killing a session

A kill reaches the one task that is registered when it looks. So it stops the
session if all other tasks of the session are over by then, and no request for the
session is admitted before it has returned. `Settled` is the invariant that carries
this from the look at the registry to the return, and from there to the next
request.
-/

namespace Qubox.Host

/-! ## What a step does to the tasks -/

/-- The task will never send or inject anything again. -/
def SessionTask.Over (task : SessionTask) : Prop :=
  task.closed = true ∨
    task.media = false ∧ task.input = false ∧
      (task.phase = .running ∨ task.phase = .closing ∨ task.phase = .leaving ∨ task.phase = .ended)

theorem SessionTask.Over.quiet {task : SessionTask} (past : task.Over) :
    task.sends = false ∧ task.injects = false := by
  rcases past with closed | ⟨media, input, -⟩
  · simp [sends, injects, closed]
  · simp [sends, injects, media, input]

/-- Each task is still of its session, and over if it was. -/
def Evolves (before after : List SessionTask) : Prop :=
  ∀ (index : Nat) (task' : SessionTask), after[index]? = some task' →
    ∃ task, before[index]? = some task ∧ task'.session = task.session ∧ (task.Over → task'.Over)

section Evolves

variable {before between after : List SessionTask} {index : Nat} {task task' : SessionTask}
  {host host' : HostAgent}

theorem Evolves.refl (tasks : List SessionTask) : Evolves tasks tasks :=
  fun _ task there => ⟨task, there, rfl, id⟩

theorem Evolves.trans (first : Evolves before between) (second : Evolves between after) :
    Evolves before after := by
  intro index task'' there
  obtain ⟨task', there, session', past'⟩ := second index task'' there
  obtain ⟨task, there, session, past⟩ := first index task' there
  exact ⟨task, there, session'.trans session, past' ∘ past⟩

theorem evolves_setTask (found : host.tasks[index]? = some task)
    (session : task'.session = task.session) (past : task.Over → task'.Over) :
    Evolves host.tasks (host.setTask index task').tasks := by
  intro other other' there
  rw [HostAgent.setTask, List.getElem?_set] at there
  split at there
  case isTrue same =>
    split at there
    · cases there
      exact ⟨task, same ▸ found, session, past⟩
    · cases there
  case isFalse => exact ⟨other', there, rfl, id⟩

theorem evolves_close (host : HostAgent) (index : Nat) :
    Evolves host.tasks (host.close index).tasks := by
  rw [HostAgent.close]
  split
  case h_1 => exact Evolves.refl _
  case h_2 task found => exact evolves_setTask found rfl fun _ => .inl rfl

/-- What a task leaves alone: the two killers, and which kills have returned. -/
structure Frame (host host' : HostAgent) : Prop where
  handler : host'.handler = host.handler
  watchdog : host'.watchdog = host.watchdog
  killed : host'.killed = host.killed
  tasks : Evolves host.tasks host'.tasks

theorem frame_close (host : HostAgent) (index : Nat) : Frame host (host.close index) := by
  rw [HostAgent.close]
  split
  case h_1 => exact ⟨rfl, rfl, rfl, Evolves.refl _⟩
  case h_2 task found => exact ⟨rfl, rfl, rfl, evolves_setTask found rfl fun _ => .inl rfl⟩

theorem SessionTask.Over.closed (past : task.Over)
    (early : task.phase = .starting ∨ task.phase = .built ∨ ∃ stale, task.phase = .evicting stale) :
    task.closed = true := by
  rcases past with closed | ⟨-, -, late⟩
  · exact closed
  · rcases early with phase | phase | ⟨stale, phase⟩ <;> simp [phase] at late

theorem SessionTask.Over.later {phase : Phase} (past : task.Over)
    (late : phase = .running ∨ phase = .closing ∨ phase = .leaving ∨ phase = .ended) :
    { task with phase }.Over :=
  past.imp_right fun ⟨media, input, _⟩ => ⟨media, input, late⟩

/-- Every step of a task leaves alone what is not its own. -/
theorem frame_runTask {step : TaskStep} (found : host.tasks[index]? = some task)
    (ran : host.runTask index task step = some host') : Frame host host' := by
  have set {task' : SessionTask} (session : task'.session = task.session)
      (past : task.Over → task'.Over) : Evolves host.tasks (host.setTask index task').tasks :=
    evolves_setTask found session past
  rw [HostAgent.runTask.eq_def] at ran
  split at ran
  case h_1 phase =>
    cases ran
    exact ⟨rfl, rfl, rfl, set rfl fun past => .inl (past.closed (.inl phase))⟩
  case h_2 phase =>
    split at ran
    · cases ran
    · cases ran
      exact ⟨rfl, rfl, rfl, set rfl fun past => .inl (past.closed (.inl phase))⟩
  case h_3 phase =>
    split at ran
    · cases ran
      exact ⟨rfl, rfl, rfl, set rfl fun past => .inl (past.closed (.inl phase))⟩
    · cases ran
  case h_4 phase =>
    split at ran
    · cases ran
      exact ⟨rfl, rfl, rfl, set rfl fun past => .inl (past.closed (.inr (.inl phase)))⟩
    · cases ran
  case h_5 session stale phase =>
    have evicted : Evolves host.tasks (host.setTask index { task with phase := .evicting stale }).tasks :=
      set rfl fun past => .inl (past.closed (.inr (.inr ⟨_, phase⟩)))
    simp only at ran
    split at ran
    · cases ran
      exact ⟨rfl, rfl, rfl, evicted⟩
    case h_2 old registered =>
      cases ran
      have closed := frame_close (host.setTask index { task with phase := .evicting stale }) old
      exact ⟨closed.handler, closed.watchdog, closed.killed, evicted.trans closed.tasks⟩
  case h_6 phase =>
    cases ran
    exact ⟨rfl, rfl, rfl, set rfl fun past => .inl (past.closed (.inr (.inr ⟨_, phase⟩)))⟩
  case h_7 phase =>
    split at ran
    · cases ran
      exact ⟨rfl, rfl, rfl, set rfl fun past => past.later (.inr (.inl rfl))⟩
    · cases ran
      exact ⟨rfl, rfl, rfl, set rfl fun past => past.imp_right fun late => ⟨rfl, late.2⟩⟩
  case h_8 phase =>
    split at ran
    · cases ran
    · cases ran
      exact ⟨rfl, rfl, rfl, set rfl fun past => past.imp_right fun late => ⟨late.1, rfl, late.2.2⟩⟩
  case h_9 phase =>
    cases ran
    exact ⟨rfl, rfl, rfl, set rfl fun _ => .inl rfl⟩
  case h_10 phase =>
    split at ran
    · cases ran
      exact ⟨rfl, rfl, rfl, set rfl fun past => past.later (.inr (.inr (.inr rfl)))⟩
    · cases ran
  case h_11 =>
    split at ran
    · cases ran
      exact ⟨rfl, rfl, rfl, Evolves.refl _⟩
    · cases ran
  case h_12 =>
    split at ran
    · cases ran
      exact ⟨rfl, rfl, rfl, Evolves.refl _⟩
    · cases ran
  case h_13 => cases ran

end Evolves

/-! ## The invariant -/

/-- All tasks of the session are over, except this one. -/
def Settled (tasks : List SessionTask) (session : Uuid) (exception : Option Nat) : Prop :=
  ∀ (index : Nat) (task : SessionTask), tasks[index]? = some task → task.session = session →
    some index = exception ∨ task.Over

/-- What a kill knows of the tasks of its session. -/
def Secure (tasks : List SessionTask) (kill : Kill) : Prop :=
  match kill.phase with
  | .removing => True
  | .closing index => Settled tasks kill.session (some index)
  | .kicking => Settled tasks kill.session none

/-- What the kills that are going on, and those that have returned, have achieved. -/
structure Secured (host : HostAgent) : Prop where
  kills : ∀ killer kill, host.kill killer = some kill → Secure host.tasks kill
  killed : ∀ session ∈ host.killed, Settled host.tasks session none

section Invariant

variable {before after : List SessionTask} {session : Uuid} {exception : Option Nat}
  {host host' : HostAgent} {kill : Kill} {killer : Killer}

theorem Settled.evolves (settled : Settled before session exception) (step : Evolves before after) :
    Settled after session exception := by
  intro index task' there ours
  obtain ⟨task, was, same, past⟩ := step index task' there
  exact (settled index task was (same ▸ ours)).imp_right past

/-- Closing the one task that was left. -/
theorem Settled.close {index : Nat} (settled : Settled host.tasks session (some index)) :
    Settled (host.close index).tasks session none := by
  intro other task' there ours
  rcases settled.evolves (evolves_close host index) other task' there ours with same | past
  · cases same
    rw [HostAgent.close] at there
    split at there
    case h_1 missing =>
      rw [missing] at there
      cases there
    case h_2 task found =>
      obtain ⟨bound, -⟩ := List.getElem?_eq_some_iff.mp found
      rw [HostAgent.setTask, List.getElem?_set_self bound] at there
      cases there
      exact .inr (.inl rfl)
  · exact .inr past

/-- A new task of another session. -/
theorem Settled.append {task : SessionTask} (settled : Settled before session exception)
    (other : task.session ≠ session) : Settled (before ++ [task]) session exception := by
  intro index task' there ours
  rw [List.getElem?_append] at there
  split at there
  case isTrue => exact settled index task' there ours
  case isFalse =>
    have added := List.mem_singleton.mp (List.mem_of_getElem? there)
    exact absurd (added ▸ ours) other

theorem Secure.evolves (secure : Secure before kill) (step : Evolves before after) :
    Secure after kill := by
  rw [Secure] at secure ⊢
  split at secure
  · trivial
  · exact Settled.evolves secure step
  · exact Settled.evolves secure step

theorem Frame.kill_eq (frame : Frame host host') (killer : Killer) :
    host'.kill killer = host.kill killer := by
  cases killer with
  | handler => rw [HostAgent.kill, HostAgent.kill, frame.handler]
  | watchdog => rw [HostAgent.kill, HostAgent.kill, frame.watchdog]

theorem Secured.frame (secured : Secured host) (frame : Frame host host') : Secured host' where
  kills killer kill going := by
    rw [frame.kill_eq] at going
    exact (secured.kills killer kill going).evolves frame.tasks
  killed session member := by
    rw [frame.killed] at member
    exact (secured.killed session member).evolves frame.tasks

theorem kill_withKill (host : HostAgent) (killer : Killer) (left : Option Kill) :
    (host.withKill killer left).kill killer = left := by
  cases killer with
  | watchdog => rfl
  | handler =>
      cases left with
      | none | some kill => rfl

theorem kill_withKill_of_ne {killer' : Killer} (other : killer' ≠ killer) (left : Option Kill) :
    (host.withKill killer left).kill killer' = host.kill killer' := by
  cases killer with
  | handler =>
      cases killer' with
      | handler => exact absurd rfl other
      | watchdog => rfl
  | watchdog =>
      cases killer' with
      | handler => rfl
      | watchdog => exact absurd rfl other

theorem tasks_withKill (left : Option Kill) : (host.withKill killer left).tasks = host.tasks := by
  cases killer <;> rfl

theorem killed_withKill (left : Option Kill) : (host.withKill killer left).killed = host.killed := by
  cases killer <;> rfl

/-- One killer goes on. -/
theorem Secured.withKill {left : Option Kill} (secured : Secured host)
    (own : ∀ kill, left = some kill → Secure host.tasks kill) :
    Secured (host.withKill killer left) where
  kills killer' kill going := by
    rw [tasks_withKill]
    by_cases same : killer' = killer
    case pos =>
      subst same
      rw [kill_withKill] at going
      exact own kill going
    case neg =>
      rw [kill_withKill_of_ne same] at going
      exact secured.kills killer' kill going
  killed session member := by
    rw [killed_withKill] at member
    rw [tasks_withKill]
    exact secured.killed session member

/-- A kill that begins knows nothing yet. -/
theorem Secured.begin (secured : Secured host) (tasks : host'.tasks = host.tasks)
    (killed : host'.killed = host.killed)
    (kills : ∀ killer kill, host'.kill killer = some kill →
      host.kill killer = some kill ∨ kill.phase = .removing) : Secured host' where
  kills killer kill going := by
    rw [tasks]
    rcases kills killer kill going with went | new
    · exact secured.kills killer kill went
    · rw [Secure, new]
      trivial
  killed session member := by
    rw [tasks]
    exact secured.killed session (killed ▸ member)

/-- The handler begins a kill, or goes back to its messages. -/
theorem Secured.handle (secured : Secured host) (tasks : host'.tasks = host.tasks)
    (killed : host'.killed = host.killed) (watchdog : host'.watchdog = host.watchdog)
    (fresh : ∀ kill, host'.kill .handler = some kill → kill.phase = .removing) :
    Secured host' := by
  refine secured.begin tasks killed fun killer kill going => ?_
  cases killer with
  | handler => exact .inr (fresh kill going)
  | watchdog =>
      change host'.watchdog = some kill at going
      exact .inl (watchdog.symm.trans going)

/-- A step of `kill_session` whose look at the registry finds the rest of the session
over. -/
theorem Secured.killSession {left : Option Kill} (secured : Secured host)
    (going : host.kill killer = some kill)
    (heeded : kill.phase = .removing →
      Settled host.tasks kill.session (host.registry.lookup kill.session))
    (ran : host.killSession kill = some (host', left)) : Secured (host'.withKill killer left) := by
  have secure := secured.kills killer kill going
  rw [HostAgent.killSession] at ran
  cases phase : kill.phase with
  | removing =>
      have heeded := heeded phase
      simp only [phase] at ran
      split at ran
      case isFalse => cases ran
      case isTrue =>
        split at ran
        case h_1 index registered =>
          cases ran
          rw [registered] at heeded
          have same : Secured { host with registry := host.registry.erase kill.session } :=
            secured.frame ⟨rfl, rfl, rfl, Evolves.refl _⟩
          exact same.withKill fun kill' there => by
            cases there
            exact heeded
        case h_2 missing =>
          cases ran
          rw [missing] at heeded
          exact secured.withKill fun kill' there => by
            cases there
            exact heeded
  | closing index =>
      rw [Secure, phase] at secure
      simp only [phase] at ran
      cases ran
      exact (secured.frame (frame_close host index)).withKill fun kill' there => by
        cases there
        exact Settled.close secure
  | kicking =>
      rw [Secure, phase] at secure
      simp only [phase] at ran
      cases ran
      have returned : Secured { host with killed := kill.session :: host.killed } :=
        { kills := fun killer kill going => by
            cases killer with
            | handler => exact secured.kills .handler kill going
            | watchdog => exact secured.kills .watchdog kill going
          killed := fun session member => by
            rcases List.mem_cons.mp member with rfl | before
            · exact secure
            · exact secured.killed session before }
      exact returned.withKill fun kill' there => by cases there

/-- A request that is admitted while no kill of its session is past the registry. -/
theorem Secured.admitSession (secured : Secured host) (transport : TransportKind)
    (apart : ∀ kill, host.watchdog = some kill → kill.session = session → kill.phase = .removing) :
    Secured (host.admitSession session transport) := by
  have settled {other : Uuid} {exception : Option Nat} (different : other ≠ session)
      (settled : Settled host.tasks other exception) :
      Settled (host.admitSession session transport).tasks other exception := by
    rw [HostAgent.admitSession]
    split
    case isTrue => exact settled.append different.symm
    case isFalse => exact settled
  refine ⟨?_, ?_⟩
  · intro killer kill going
    cases killer with
    | handler => cases going
    | watchdog =>
        have secure := secured.kills .watchdog kill going
        have different (past : kill.phase ≠ .removing) : kill.session ≠ session :=
          fun same => past (apart kill going same)
        rw [Secure] at secure ⊢
        cases phase : kill.phase with
        | removing => trivial
        | closing index | kicking =>
            rw [phase] at secure
            exact settled (different (by simp [phase])) secure
  · intro other member
    obtain ⟨before, different⟩ := List.mem_filter.mp member
    exact settled (of_decide_eq_true different) (secured.killed other before)

end Invariant

/-! ## Runs -/

/-- The registry has all that is left of a session when a kill looks there, and no
request of a session is admitted between that look and the return of the kill. -/
def HeededStep (host : HostAgent) : HostStep → Prop
  | .killRuns killer =>
      ∀ kill, host.kill killer = some kill → kill.phase = .removing →
        Settled host.tasks kill.session (host.registry.lookup kill.session)
  | .admitted =>
      ∀ session transport kill, host.handler = .gating session transport →
        host.watchdog = some kill → kill.session = session → kill.phase = .removing
  | _ => True

def HeededSteps (host : HostAgent) : List HostStep → Prop
  | [] => True
  | step :: steps =>
      HeededStep host step ∧ ∀ next, host.step step = some next → HeededSteps next steps

/-- No task of a killed session can send media or inject input. -/
def Stopped (host : HostAgent) : Prop :=
  ∀ session ∈ host.killed, ∀ task ∈ host.tasks, task.session = session →
    task.sends = false ∧ task.injects = false

section Run

variable {host host' : HostAgent}

theorem HeededSteps.cons {step : HostStep} {steps : List HostStep} (stepped : host.step step = some host')
    (heeded : HeededStep host step) (rest : HeededSteps host' steps) :
    HeededSteps host (step :: steps) := by
  refine ⟨heeded, fun next again => ?_⟩
  cases stepped.symm.trans again
  exact rest

theorem Secured.stopped (secured : Secured host) : Stopped host := by
  intro session member task there ours
  obtain ⟨index, found⟩ := List.getElem?_of_mem there
  rcases secured.killed session member index task found ours with impossible | past
  · cases impossible
  · exact past.quiet

theorem Secured.step {step : HostStep} (secured : Secured host) (heeded : HeededStep host step)
    (stepped : host.step step = some host') : Secured host' := by
  cases step with
  | requested session transport =>
      rw [HostAgent.step] at stepped
      split at stepped
      · cases stepped
        exact secured.handle rfl rfl rfl fun kill going => by cases going
      · cases stepped
  | admitted =>
      rw [HostAgent.step] at stepped
      split at stepped
      case h_1 session transport gating =>
        cases stepped
        exact secured.admitSession transport fun kill going =>
          heeded session transport kill gating going
      case h_2 => cases stepped
      case h_3 => cases stepped
  | refused kills =>
      rw [HostAgent.step] at stepped
      split at stepped
      case h_1 session transport gating =>
        cases stepped
        refine secured.handle rfl rfl rfl fun kill going => ?_
        cases kills with
        | true =>
            cases going
            rfl
        | false => cases going
      case h_2 => cases stepped
      case h_3 => cases stepped
  | kicked session | signedKill session =>
      rw [HostAgent.step] at stepped
      split at stepped
      · cases stepped
        refine secured.handle rfl rfl rfl fun kill going => ?_
        cases going
        rfl
      · cases stepped
  | stale session =>
      rw [HostAgent.step] at stepped
      split at stepped
      · cases stepped
        exact secured.begin rfl rfl fun killer kill going => by
          cases killer with
          | handler => exact .inl going
          | watchdog =>
              cases going
              exact .inr rfl
      · cases stepped
  | killRuns killer =>
      rw [HostAgent.step] at stepped
      split at stepped
      case h_1 => cases stepped
      case h_2 kill going =>
        obtain ⟨⟨next, left⟩, ran, rfl⟩ := Option.map_eq_some_iff.mp stepped
        exact secured.killSession going (heeded kill going) ran
  | task index step =>
      rw [HostAgent.step] at stepped
      split at stepped
      case h_1 => cases stepped
      case h_2 task found => exact secured.frame (frame_runTask found stepped)

theorem Secured.run {steps : List HostStep} (secured : Secured host)
    (heeded : HeededSteps host steps) (ran : host.run steps = some host') : Secured host' := by
  induction steps generalizing host with
  | nil =>
      cases ran
      exact secured
  | cons step steps ih =>
      obtain ⟨next, stepped, ran⟩ := Option.bind_eq_some_iff.mp ran
      exact ih (secured.step heeded.1 stepped) (heeded.2 next stepped) ran

theorem secured_start : Secured {} where
  kills killer kill going := by cases killer <;> cases going
  killed session member := by cases member

/-- In every run whose kills find all that is left of their session in the registry, a
killed session has stopped until it is requested again. -/
theorem stopped_of_heeded (steps : List HostStep) (host : HostAgent)
    (heeded : HeededSteps {} steps) (ran : HostAgent.run {} steps = some host) : Stopped host :=
  (secured_start.run heeded ran).stopped

end Run

namespace Sample

def killedSession : Uuid := 1

/-- A WebRTC session is kicked when it is registered. -/
def registeredSteps : List HostStep :=
  [.requested killedSession .webRtc, .admitted, .task 0 .build, .task 0 .lock, .task 0 .register,
    .kicked killedSession, .killRuns .handler, .killRuns .handler, .killRuns .handler]

/-- A native session is kicked. -/
def nativeSteps : List HostStep :=
  [.requested killedSession .nativeQuic, .admitted, .task 0 .connect, .kicked killedSession,
    .killRuns .handler, .killRuns .handler]

/-- A WebRTC session is kicked before it is registered. -/
def earlySteps : List HostStep :=
  [.requested killedSession .webRtc, .admitted, .kicked killedSession, .killRuns .handler,
    .killRuns .handler, .task 0 .build, .task 0 .lock, .task 0 .register]

def runningTask (transport : TransportKind) : SessionTask where
  session := killedSession
  transport
  phase := .running
  media := true
  input := true

theorem runningTask_not_stopped {host : HostAgent} {transport : TransportKind}
    (killed : host.killed = [killedSession]) (tasks : host.tasks = [runningTask transport]) :
    ¬ Stopped host := by
  intro stopped
  have quiet := stopped killedSession (killed ▸ .head _) (runningTask transport) (tasks ▸ .head _) rfl
  cases quiet.1

theorem registered_heeded : HeededSteps {} registeredSteps := by
  have found {task : SessionTask} {session : Uuid} : Settled [task] session (some 0) := by
    intro index task there ours
    cases index with
    | zero => exact .inl rfl
    | succ index => cases there
  refine .cons rfl trivial (.cons rfl ?_ ?_)
  · intro session transport kill gating going
    cases going
  refine .cons rfl trivial (.cons rfl trivial (.cons rfl trivial (.cons rfl trivial ?_)))
  refine .cons rfl (fun kill going removing => ?_) (.cons rfl (fun kill going removing => ?_) ?_)
  · cases going
    exact found
  · cases going
    cases removing
  refine .cons rfl (fun kill going removing => ?_) trivial
  cases going
  cases removing

theorem registered_stopped :
    ∃ host, HostAgent.run {} registeredSteps = some host ∧ host.killed = [killedSession] ∧
      Stopped host :=
  ⟨_, rfl, rfl, stopped_of_heeded registeredSteps _ registered_heeded rfl⟩

/-- A native session goes on after its kill, and so does a WebRTC session that was killed
before it was registered. -/
theorem killed_not_stopped :
    (∃ host, HostAgent.run {} nativeSteps = some host ∧ host.killed = [killedSession] ∧
      ¬ Stopped host) ∧
      ∃ host, HostAgent.run {} earlySteps = some host ∧ host.killed = [killedSession] ∧
        ¬ Stopped host :=
  ⟨⟨_, rfl, rfl, runningTask_not_stopped rfl rfl⟩, ⟨_, rfl, rfl, runningTask_not_stopped rfl rfl⟩⟩

end Sample

end Qubox.Host
