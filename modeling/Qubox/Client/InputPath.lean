import Qubox.Client.WindowInput

/-!
# From the window to the injector

What changes in the window goes through a channel to the task that writes to the session, over
the stream to the host, which asks its permissions, and through a second channel to the thread
that injects. The task and the thread take their events alike: both leave out mouse moves that
another one follows at once, and both may look at any moment, so it is a matter of timing which
moves are left. What is clicked and typed, in which order and with the pointer where, is not.
-/

namespace Qubox.Client

open Host

/-! ## The path -/

structure InputPath where
  pump : PumpState := {}
  /-- The frames so far. -/
  frames : List WindowFrame := []
  /-- `send_input_events`, which takes events as the thread of the host does. What it has done
  with an event is to write it. -/
  sender : InputThread := .start true
  /-- What is written and not yet read. -/
  wire : List RemoteInputEvent := []
  host : InputThread := .start true
  broken : Bool := false

inductive PathStep where
  | frame (frame : WindowFrame)
  /-- The loop over the frames ends. -/
  | close
  | sends
  | reads
  | injects
  /-- The connection is lost. -/
  | breaks

/-- What nobody but the tasks has to do. -/
inductive PathStep.Inner : PathStep → Prop where
  | sends : Inner .sends
  | reads : Inner .reads
  | injects : Inner .injects

/-- The event goes to the thread that injects. Gamepads have a thread of their own. -/
def forwarded (p : SessionPermissions) : RemoteInputEvent → Bool
  | .gamepad _ => false
  | .keyboard _ _ => allowKeyboard p
  | .mouseMove _ _ | .relativeMouseMove _ _ | .mouseButton _ _ _ _ | .mouseWheel _ _ =>
      allowMouse p
  | .hoverDisplay _ | .pen _ _ _ _ _ _ _ _ _ => allowInput p

namespace InputPath

variable (allowUnfocused : Bool) (p : SessionPermissions)

def send (s : InputPath) : Option InputPath :=
  s.sender.work.map fun sender =>
    { s with sender, wire := s.wire ++ sender.injected.drop s.sender.injected.length }

/-- The end of the stream ends the channel too. -/
def read (s : InputPath) : Option InputPath :=
  match s.wire with
  | event :: wire =>
      if forwarded p event then
        some { s with
          wire
          host := { s.host with queue := s.host.queue ++ [event], sent := s.host.sent ++ [event] } }
      else some { s with wire }
  | [] =>
      if s.sender.turn = .ended ∧ s.host.closed = false then
        some { s with host := { s.host with closed := true } }
      else none

/-- After the connection is lost only the host goes on. -/
def step (s : InputPath) : PathStep → Option InputPath
  | .frame frame =>
      if s.broken ∨ s.sender.closed then none
      else
        let (pump, events) := pumpWindowInput allowUnfocused frame s.pump
        some { s with
          pump
          frames := s.frames ++ [frame]
          sender := { s.sender with
            queue := s.sender.queue ++ events, sent := s.sender.sent ++ events } }
  | .close =>
      if s.broken then none else some { s with sender := { s.sender with closed := true } }
  | .sends => if s.broken then none else s.send
  | .reads => if s.broken then none else s.read p
  | .injects => s.host.work.map fun host => { s with host }
  | .breaks => some { s with broken := true }

/-- The tasks have nothing to do. -/
def Settled (s : InputPath) : Prop := ∀ a, a.Inner → step allowUnfocused p s a = none

/-! ## The invariant -/

/-- The two coalescing tasks are in order, nothing is lost between them, and what was sent says
what the frames say. -/
structure Carries (s : InputPath) : Prop where
  sender : ∃ received, s.sender.Orders received
  host : ∃ received, s.host.Orders received
  wire : s.host.sent ++ s.wire.filter (forwarded p) = s.sender.injected.filter (forwarded p)
  follows : Follows allowUnfocused s.frames s.pump (Controls.after s.sender.sent)
  /-- The channel of the host closes when all is written. -/
  closed : s.host.closed = true → s.sender.turn = .ended ∧ s.wire = []

variable {allowUnfocused p} {s t : InputPath}

namespace Carries

theorem start : Carries allowUnfocused p {} where
  sender := ⟨[], .start⟩
  host := ⟨[], .start⟩
  wire := rfl
  follows := .start
  closed closed := by cases closed

theorem frame (carries : Carries allowUnfocused p s) {frame : WindowFrame}
    (stepped : step allowUnfocused p s (.frame frame) = some t) : Carries allowUnfocused p t := by
  rw [step] at stepped
  split at stepped
  case isTrue => cases stepped
  case isFalse going =>
    obtain rfl := Option.some.inj stepped
    obtain ⟨received, orders⟩ := carries.sender
    have opened : ¬ s.sender.closed = true := fun closed => going (.inr closed)
    refine ⟨⟨received, ?_⟩, carries.host, carries.wire, ?_, ?_⟩
    · refine ⟨orders.injector, ?_, orders.coalesces, orders.looking, ?_⟩
      · rw [orders.sent, List.append_assoc]
      · intro ended
        exact absurd (orders.ended ended).1 opened
    · have next := carries.follows.next frame
      rwa [Controls.after, ← List.foldl_append] at next
    · intro closed
      exact absurd (orders.ended (carries.closed closed).1).1 opened

theorem send (carries : Carries allowUnfocused p s) (stepped : s.send = some t) :
    Carries allowUnfocused p t := by
  obtain ⟨sender, worked, rfl⟩ := Option.map_eq_some_iff.mp stepped
  obtain ⟨sent, -, written, grown⟩ := InputThread.work_keeps worked
  have sender : ∃ received, sender.Orders received :=
    InputThread.Orders.step carries.sender (show s.sender.step .work = some sender from worked)
  refine ⟨sender, carries.host, ?_, ?_, ?_⟩
  · dsimp only
    rw [← grown, List.drop_left, List.filter_append, List.filter_append, ← List.append_assoc,
      carries.wire]
  · dsimp only
    rw [sent]
    exact carries.follows
  · intro closed
    rw [InputThread.work, (carries.closed closed).1] at worked
    cases worked

theorem read (carries : Carries allowUnfocused p s) (stepped : s.read p = some t) :
    Carries allowUnfocused p t := by
  have kept := carries.wire
  obtain ⟨received, orders⟩ := carries.host
  rw [InputPath.read] at stepped
  split at stepped
  case h_1 event wire waiting =>
    rw [waiting] at kept
    have opened : ¬ s.host.closed = true := by
      intro closed
      rw [(carries.closed closed).2] at waiting
      cases waiting
    split at stepped
    case isTrue kind =>
      obtain rfl := Option.some.inj stepped
      refine ⟨carries.sender, ⟨received, ?_⟩, ?_, carries.follows, ?_⟩
      · refine ⟨orders.injector, ?_, orders.coalesces, orders.looking, ?_⟩
        · rw [orders.sent, List.append_assoc]
        · intro ended
          exact absurd (orders.ended ended).1 opened
      · rw [List.filter_cons_of_pos kind, List.append_cons] at kept
        exact kept
      · intro closed
        exact absurd closed opened
    case isFalse kind =>
      obtain rfl := Option.some.inj stepped
      refine ⟨carries.sender, ⟨received, orders⟩, ?_, carries.follows, ?_⟩
      · rwa [List.filter_cons_of_neg kind] at kept
      · intro closed
        exact absurd closed opened
  case h_2 waiting =>
    split at stepped
    case isTrue finished =>
      obtain rfl := Option.some.inj stepped
      refine ⟨carries.sender, ⟨received, ?_⟩, kept, carries.follows, fun _ => ⟨finished.1, waiting⟩⟩
      exact ⟨orders.injector, orders.sent, orders.coalesces, orders.looking,
        fun ended => ⟨rfl, (orders.ended ended).2⟩⟩
    case isFalse => cases stepped

theorem step {a : PathStep} (carries : Carries allowUnfocused p s)
    (stepped : step allowUnfocused p s a = some t) : Carries allowUnfocused p t := by
  cases a with
  | frame frame => exact carries.frame stepped
  | close =>
      rw [InputPath.step] at stepped
      split at stepped
      case isTrue => cases stepped
      case isFalse =>
        obtain rfl := Option.some.inj stepped
        have closed : s.sender.step .close = some { s.sender with closed := true } := rfl
        exact ⟨InputThread.Orders.step carries.sender closed, carries.host, carries.wire,
          carries.follows, carries.closed⟩
  | sends =>
      rw [InputPath.step] at stepped
      split at stepped
      case isTrue => cases stepped
      case isFalse => exact carries.send stepped
  | reads =>
      rw [InputPath.step] at stepped
      split at stepped
      case isTrue => cases stepped
      case isFalse => exact carries.read stepped
  | injects =>
      obtain ⟨host, worked, rfl⟩ := Option.map_eq_some_iff.mp stepped
      obtain ⟨sent, closed, -⟩ := InputThread.work_keeps worked
      have host : ∃ received, host.Orders received :=
        InputThread.Orders.step carries.host (show s.host.step .work = some host from worked)
      refine ⟨carries.sender, host, ?_, carries.follows, ?_⟩
      · dsimp only
        rw [sent]
        exact carries.wire
      · dsimp only
        rw [closed]
        exact carries.closed
  | breaks =>
      obtain rfl := Option.some.inj stepped
      exact ⟨carries.sender, carries.host, carries.wire, carries.follows, carries.closed⟩

end Carries

/-! ## The path comes to rest -/

/-- What the tasks have left to do when no more frames come. -/
def remaining (s : InputPath) : Nat :=
  8 * s.sender.remaining + 4 * s.wire.length + s.host.remaining + if s.host.closed then 0 else 1

/-- A turn of the sender writes one event at most. -/
theorem written_le {sender : InputThread} (worked : s.sender.work = some sender) :
    (sender.injected.drop s.sender.injected.length).length ≤ 1 := by
  obtain ⟨-, -, event, injected⟩ := InputThread.work_injects worked
  rw [injected, List.drop_left]
  cases event with
  | none | some => simp

theorem step_lowers {a : PathStep} (inner : a.Inner)
    (stepped : step allowUnfocused p s a = some t) : t.remaining < s.remaining := by
  cases inner with
  | sends =>
      rw [step] at stepped
      split at stepped
      case isTrue => cases stepped
      case isFalse =>
        obtain ⟨sender, worked, rfl⟩ := Option.map_eq_some_iff.mp stepped
        have lowers := InputThread.work_lowers worked
        have one := written_le worked
        rw [remaining, remaining]
        dsimp only
        rw [List.length_append]
        omega
  | reads =>
      rw [step] at stepped
      split at stepped
      case isTrue => cases stepped
      case isFalse =>
        rw [read] at stepped
        split at stepped
        case h_1 event wire waiting =>
          split at stepped
          · obtain rfl := Option.some.inj stepped
            rw [remaining, remaining, waiting]
            simp only [InputThread.remaining, List.length_append, List.length_cons, List.length_nil]
            omega
          · obtain rfl := Option.some.inj stepped
            rw [remaining, remaining, waiting]
            simp only [List.length_cons]
            omega
        case h_2 waiting =>
          split at stepped
          case isTrue finished =>
            obtain rfl := Option.some.inj stepped
            rw [remaining, remaining, finished.2]
            exact Nat.lt_succ_self _
          case isFalse => cases stepped
  | injects =>
      obtain ⟨host, worked, rfl⟩ := Option.map_eq_some_iff.mp stepped
      have lowers := InputThread.work_lowers worked
      rw [remaining, remaining]
      dsimp only
      rw [(InputThread.work_keeps worked).2.1]
      omega

/-- The tasks neither change what was pumped nor break the connection. -/
theorem inner_keeps {a : PathStep} (inner : a.Inner)
    (stepped : step allowUnfocused p s a = some t) :
    t.frames = s.frames ∧ t.sender.sent = s.sender.sent ∧ t.broken = s.broken := by
  cases inner with
  | sends =>
      rw [step] at stepped
      split at stepped
      case isTrue => cases stepped
      case isFalse =>
        obtain ⟨sender, worked, rfl⟩ := Option.map_eq_some_iff.mp stepped
        exact ⟨rfl, (InputThread.work_keeps worked).1, rfl⟩
  | reads =>
      rw [step, read] at stepped
      split at stepped
      · cases stepped
      · split at stepped
        · split at stepped
          · obtain rfl := Option.some.inj stepped
            exact ⟨rfl, rfl, rfl⟩
          · obtain rfl := Option.some.inj stepped
            exact ⟨rfl, rfl, rfl⟩
        · split at stepped
          · obtain rfl := Option.some.inj stepped
            exact ⟨rfl, rfl, rfl⟩
          · cases stepped
  | injects =>
      obtain ⟨host, worked, rfl⟩ := Option.map_eq_some_iff.mp stepped
      exact ⟨rfl, rfl, rfl⟩

theorem inner_run_keeps {inner : List PathStep} (tasks : ∀ a ∈ inner, a.Inner)
    (ran : Stepping.run (step allowUnfocused p) s inner = some t) :
    t.frames = s.frames ∧ t.sender.sent = s.sender.sent ∧ t.broken = s.broken := by
  induction inner generalizing s with
  | nil =>
      obtain rfl := Option.some.inj ran
      exact ⟨rfl, rfl, rfl⟩
  | cons a rest ih =>
      obtain ⟨u, stepped, ran⟩ := Option.bind_eq_some_iff.mp ran
      obtain ⟨frames, sent, broken⟩ := inner_keeps (tasks a (.head _)) stepped
      obtain ⟨frames', sent', broken'⟩ := ih (fun a member => tasks a (.tail _ member)) ran
      exact ⟨frames'.trans frames, sent'.trans sent, broken'.trans broken⟩

theorem exists_settled (s : InputPath) :
    ∃ inner t, (∀ a ∈ inner, a.Inner) ∧
      Stepping.run (step allowUnfocused p) s inner = some t ∧ t.Settled allowUnfocused p := by
  induction size : s.remaining using Nat.strongRecOn generalizing s with
  | ind size ih =>
      subst size
      by_cases settled : s.Settled allowUnfocused p
      case pos => exact ⟨[], s, fun _ member => absurd member List.not_mem_nil, rfl, settled⟩
      case neg =>
        obtain ⟨a, busy⟩ := not_forall.mp settled
        obtain ⟨inner, busy⟩ := Classical.not_imp.mp busy
        obtain ⟨t, stepped⟩ := Option.ne_none_iff_exists'.mp busy
        obtain ⟨rest, last, tasks, ran, settled⟩ := ih _ (step_lowers inner stepped) t rfl
        refine ⟨a :: rest, last, List.forall_mem_cons.mpr ⟨inner, tasks⟩, ?_, settled⟩
        rw [Stepping.run_cons, stepped]
        exact ran

/-! ## What is injected -/

variable (allowUnfocused p) in
/-- What the injector was given when all is done, for the frames and what was sent in them. -/
structure Delivers (frames : List WindowFrame) (pumped injected : List RemoteInputEvent) :
    Prop where
  coalesces : Coalesces (pumped.filter (forwarded p)) injected
  /-- Each click and key, in order, with the pointer in its place. -/
  acts : Controls.acts none injected = Controls.acts none (pumped.filter (forwarded p))
  mouse : allowMouse p = true → MirrorsMouse allowUnfocused frames (Controls.after injected)
  keys : allowKeyboard p = true → MirrorsKeys allowUnfocused frames (Controls.after injected)

theorem coalesces_trans {events kept injected : List RemoteInputEvent}
    (first : Coalesces events kept) (second : Coalesces kept injected) :
    Coalesces events injected :=
  first.trans (fun _ _ _ next later => ⟨next.1, later.2⟩) (fun _ _ _ next later => ⟨next.1, later.1⟩)
    second

theorem coalesces_filter {events kept : List RemoteInputEvent} (coalesces : Coalesces events kept) :
    Coalesces (events.filter (forwarded p)) (kept.filter (forwarded p)) := by
  apply Superseding.filter _ coalesces
  rintro event next ⟨first, second⟩
  cases event <;> cases first
  cases next <;> cases second
  rfl

theorem Carries.delivers (carries : Carries allowUnfocused p s) (unbroken : s.broken = false)
    (settled : s.Settled allowUnfocused p) :
    Delivers allowUnfocused p s.frames s.sender.sent s.host.injected := by
  have going : ¬ s.broken = true := by
    rw [unbroken]
    exact Bool.false_ne_true
  have sender_rests : s.sender.work = none := by
    have rests := settled _ .sends
    rw [InputPath.step, if_neg going] at rests
    exact Option.map_eq_none_iff.mp rests
  have host_rests : s.host.work = none := Option.map_eq_none_iff.mp (settled _ .injects)
  have wire : s.wire = [] := by
    have rests := settled _ .reads
    rw [InputPath.step, if_neg going, InputPath.read] at rests
    split at rests
    case h_1 => split at rests <;> cases rests
    case h_2 waiting => exact waiting
  obtain ⟨_, sender⟩ := carries.sender
  obtain ⟨_, host⟩ := carries.host
  have written := coalesces_filter (p := p) (sender.at_rest sender_rests)
  have kept := carries.wire
  rw [wire, List.filter_nil, List.append_nil] at kept
  have coalesces : Coalesces (s.sender.sent.filter (forwarded p)) s.host.injected := by
    rw [← kept] at written
    exact coalesces_trans written (host.at_rest host_rests)
  have after := Controls.after_coalesces coalesces
  refine ⟨coalesces, (Controls.acts_coalesces coalesces none).symm, ?_, ?_⟩
  · intro mouse
    obtain ⟨pointer, buttons⟩ := Controls.foldl_mouse_filter (c := {}) (d := {})
      s.sender.sent (p := forwarded p) (fun _ _ => mouse) (fun _ _ _ _ => mouse) rfl rfl
    rw [← after]
    exact ⟨pointer.trans carries.follows.mouse.pointer,
      fun button => (congrFun buttons button).trans (carries.follows.mouse.buttons button)⟩
  · intro keyboard
    have keys := Controls.foldl_keys_filter (c := {}) (d := {}) s.sender.sent
      (p := forwarded p) (fun _ _ => keyboard) rfl
    rw [← after]
    exact fun key => (congrFun keys key).trans (carries.follows.keys key)

/-- As long as the connection holds, the tasks come to rest after the frames, in whatever order
they go on, and then the injector, if there is one, was given all that the permissions let
through. -/
theorem arrives (injector : Bool) {steps : List PathStep}
    (ran : Stepping.run (step allowUnfocused p) { host := .start injector } steps = some s)
    (unbroken : s.broken = false) :
    (∃ inner t, (∀ a ∈ inner, a.Inner) ∧
      Stepping.run (step allowUnfocused p) s inner = some t ∧ t.Settled allowUnfocused p) ∧
    ∀ inner t, (∀ a ∈ inner, a.Inner) →
      Stepping.run (step allowUnfocused p) s inner = some t →
        inner.length ≤ s.remaining ∧
          (injector = true → t.Settled allowUnfocused p →
            Delivers allowUnfocused p s.frames s.sender.sent t.host.injected) := by
  refine ⟨exists_settled s, fun inner t tasks later => ⟨?_, fun initialised settled => ?_⟩⟩
  · exact Stepping.length_le (fun member => step_lowers (tasks _ member)) later
  · subst initialised
    obtain ⟨frames, sent, broken⟩ := inner_run_keeps tasks later
    have carries : Carries allowUnfocused p t :=
      Stepping.run_invariant Carries.step (Stepping.run_invariant Carries.step .start ran) later
    have delivers := carries.delivers (broken.trans unbroken) settled
    rwa [frames, sent] at delivers

end InputPath

namespace Sample

/-- A click with a key. -/
def click : WindowFrame where
  active := true
  mouse := some (3, 4)
  down button := button = .left
  pressed := ["LeftCtrl"]
  released := []

/-- The window is left, and the key let go. -/
def left : WindowFrame where
  active := false
  mouse := none
  down _ := false
  pressed := []
  released := ["LeftCtrl"]

/-- The key stays down on the host. -/
theorem arrives_click : ∃ s inner t,
    Stepping.run (InputPath.step false {}) { host := .start true }
        [.frame click, .sends, .frame left, .close] = some s ∧
      Stepping.run (InputPath.step false {}) s inner = some t ∧
      InputPath.Delivers false {} s.frames s.sender.sent t.host.injected ∧
      (Controls.after t.host.injected).keys "LeftCtrl" = true := by
  have ran : Stepping.run (InputPath.step false {}) { host := .start true }
      [.frame click, .sends, .frame left, .close] = some _ := rfl
  obtain ⟨⟨inner, t, tasks, later, settled⟩, delivers⟩ := InputPath.arrives true ran rfl
  have delivered := (delivers inner t tasks later).2 rfl settled
  exact ⟨_, inner, t, ran, later, delivered, delivered.keys rfl "LeftCtrl"⟩

end Sample

end Qubox.Client
