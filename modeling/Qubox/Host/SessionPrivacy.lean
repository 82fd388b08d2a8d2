import Qubox.Host.Displays
import Qubox.Library.Stepping
import Qubox.Proto

/-!
# Privacy on session start

A session function of the host is a sequence of calls, most of which end the
session when they fail. One of the functions asks for privacy on its way, and
nothing on any way out takes it back. A step is one call of the session, an access
unit that a running capture sends, or a task that the session has spawned.
-/

namespace Qubox.Host

/-! ## The session functions -/

inductive StreamMode where
  | singleStream
  | multiDisplay
  | allDisplays
  deriving DecidableEq

inductive PrivacyMode where
  | none
  | vkms
  | blankOverlay
  deriving DecidableEq

inductive DisplayPlatform where
  | x11
  | wayland
  | windows
  | macos
  deriving DecidableEq

/-- The part of the runtime that a session reads for its displays. -/
structure PrivacyRuntime where
  platform : DisplayPlatform
  streamMode : StreamMode
  displayId : Option DisplayId
  privacyMode : PrivacyMode
  enablePrivacyOnSessionStart : Bool
  disableAudio : Bool
  deriving DecidableEq

/-- A call whose error ends the session. -/
inductive SessionCall where
  | bindAsync
  | encodeTicket
  | relayTicket
  | acceptAuthenticatedConnection
  | mediaConfigFromRuntime
  | openInputReceiver
  | openHostAudioCapture
  | openAudioSender
  | openMediaSender
  | openHostControlSender
  /-- The control sender of the overlay. -/
  | openControlSender
  | detectBackend
  | displayManager
  | enumerateDisplays
  /-- `--display` is required. -/
  | requireDisplay
  | startMultiDisplay
  | planPipeline
  | spawnPipeline
  | newFramer
  | spawnReader
  | sendAccessUnits
  | finishSender
  | newWebTransportConfig
  | bindEndpoint
  | localAddr
  | awaitRequest
  | acceptSession
  | acceptBi
  | spawnInputWorker
  /-- The loop of a WebTransport session, which ends with an error only. -/
  | sendDatagrams
  | newWebRtcSession
  deriving DecidableEq

inductive SessionOp where
  | attempt (call : SessionCall)
  /-- `set_display_state`, whose error is answered with the overlay. -/
  | enablePrivacy
  /-- The wait for the captures to end. -/
  | awaitCapture
  deriving DecidableEq

namespace SessionOp

/-- Video may be sent while the session is here. -/
def captures : SessionOp → Bool
  | .attempt .startMultiDisplay | .attempt .sendAccessUnits | .attempt .sendDatagrams
  | .awaitCapture => true
  | _ => false

end SessionOp

def runWebTransportSession : List SessionOp :=
  [.attempt .newWebTransportConfig, .attempt .bindEndpoint, .attempt .localAddr,
    .attempt .encodeTicket, .attempt .relayTicket,
    .attempt .awaitRequest, .attempt .acceptSession, .attempt .acceptBi,
    .attempt .mediaConfigFromRuntime, .attempt .spawnInputWorker, .attempt .planPipeline,
    .attempt .spawnPipeline, .attempt .newFramer, .attempt .sendDatagrams]

def runWebRtcSession : List SessionOp := [.attempt .newWebRtcSession, .awaitCapture]

namespace PrivacyRuntime

variable (runtime : PrivacyRuntime)

def target : DisplayId := runtime.displayId.getD 0

/-- What a native QUIC session does first in every mode. -/
def openSession : List SessionOp :=
  [.attempt .bindAsync, .attempt .encodeTicket, .attempt .relayTicket,
    .attempt .acceptAuthenticatedConnection, .attempt .mediaConfigFromRuntime,
    .attempt .openInputReceiver] ++
  (if runtime.disableAudio then [.attempt .openAudioSender]
  else [.attempt .openHostAudioCapture, .attempt .openAudioSender])

def runSingleStreamSession : List SessionOp :=
  runtime.openSession ++
  [.attempt .openMediaSender, .attempt .openHostControlSender, .attempt .planPipeline,
    .attempt .spawnPipeline, .attempt .newFramer, .attempt .spawnReader,
    .attempt .sendAccessUnits, .attempt .finishSender]

def runMultiDisplaySession : List SessionOp :=
  runtime.openSession ++
  [.attempt .openControlSender, .attempt .detectBackend, .attempt .displayManager] ++
  (if runtime.enablePrivacyOnSessionStart then [.enablePrivacy] else []) ++
  [.attempt (if runtime.streamMode = .allDisplays then .enumerateDisplays else .requireDisplay),
    .attempt .startMultiDisplay, .awaitCapture]

def runNativeQuicSession : List SessionOp :=
  match runtime.streamMode with
  | .singleStream => runtime.runSingleStreamSession
  | .multiDisplay | .allDisplays => runtime.runMultiDisplaySession

/-- The function that is spawned for a transport. There is none for a relay. -/
def session : TransportKind → List SessionOp
  | .nativeQuic => runtime.runNativeQuicSession
  | .webRtc => runWebRtcSession
  | .webTransport => runWebTransportSession
  | .relayQuic => []

end PrivacyRuntime

/-! ## The display managers -/

inductive DisplayManagerKind where
  | x11 (fallback : Bool)
  /-- PipeWire and ScreenCaptureKit answer that all is well. -/
  | logical
  /-- So does DXGI, for the displays it knows. -/
  | dxgi
  deriving DecidableEq

namespace DisplayManagerKind

def setDisplayState (kind : DisplayManagerKind) (host : DisplayHost) (display : DisplayId)
    (state : DisplayState) (commands : Commands) : Except DisplayError Unit × DisplayHost :=
  match kind with
  | .x11 fallback => host.setDisplayState fallback display state commands
  | .logical => (.ok (), host)
  | .dxgi =>
      if commands.lists display then (.ok (), host)
      else (.error (.displayNotFound display), host)

end DisplayManagerKind

namespace PrivacyRuntime

def displayManager (runtime : PrivacyRuntime) : DisplayManagerKind :=
  match runtime.platform with
  | .x11 => .x11 (runtime.privacyMode = .blankOverlay)
  | .wayland => if runtime.privacyMode = .blankOverlay then .x11 true else .logical
  | .windows => .dxgi
  | .macos => .logical

end PrivacyRuntime

/-! ## A session -/

structure SessionState where
  rest : List SessionOp
  host : DisplayHost := {}
  returned : Bool := false
  /-- Proof-only: privacy was put in place for the target. -/
  engaged : Bool := false
  /-- Proof-only: video was sent before privacy was established. -/
  exposed : Bool := false

inductive SessionEvent where
  /-- The next call succeeds. -/
  | succeeds
  /-- The next call fails. -/
  | fails
  /-- `set_display_state`; a window that is asked for at once may not open. -/
  | enablesPrivacy (commands : Commands) (opens : Bool)
  /-- A capture sends an access unit. -/
  | video
  | shows (index : Nat) (opens : Bool)
  | disconnects

namespace SessionState

/-- The target has its virtual display, or the window of the client covers it. -/
def Established (host : DisplayHost) (target : DisplayId) : Prop :=
  (host.virtualDisplays.lookup target).isSome = true ∨ host.overlay.window = some target

instance (host : DisplayHost) (target : DisplayId) : Decidable (Established host target) :=
  inferInstanceAs (Decidable (_ ∨ _))

variable (runtime : PrivacyRuntime) (s : SessionState)

/-- Whether a call may end well or badly. -/
def possible (call : SessionCall) (well : Bool) : Bool :=
  match call with
  | .requireDisplay => runtime.displayId.isSome == well
  | .sendDatagrams => !well
  | _ => true

def advance (rest : List SessionOp) : SessionState :=
  { s with rest, returned := rest.isEmpty }

/-- What a call leaves for the displays: `set_control_channel` comes with the
control sender. -/
def perform (call : SessionCall) : SessionState :=
  if call = .openControlSender then
    { s with host := { s.host with overlay := { s.host.overlay with controlTx := some true } } }
  else s

def enablePrivacy (commands : Commands) (opens : Bool) : SessionState :=
  match runtime.displayManager.setDisplayState s.host runtime.target .privacy commands with
  | (.ok (), host) => { s with
      host := { host with states := host.states.insert runtime.target .privacy }
      engaged := true }
  | (.error _, host) =>
      match host.overlay.showOn runtime.target opens with
      | .ok overlay => { s with host := { host with overlay }, engaged := true }
      | .error _ => { s with host }

def step (s : SessionState) : SessionEvent → Option SessionState
  | .succeeds =>
      match s.rest with
      | .attempt call :: rest =>
          if possible runtime call true then some ((s.perform call).advance rest) else none
      | .awaitCapture :: rest => some (s.advance rest)
      | _ => none
  | .fails =>
      match s.rest with
      | .attempt call :: _ =>
          if possible runtime call false then some (s.advance []) else none
      | _ => none
  | .enablesPrivacy commands opens =>
      match s.rest with
      | .enablePrivacy :: rest => some ((s.enablePrivacy runtime commands opens).advance rest)
      | _ => none
  | .video =>
      if s.rest.head?.any SessionOp.captures then
        some { s with exposed := s.exposed || !decide (Established s.host runtime.target) }
      else none
  | .shows index opens =>
      s.host.showing[index]?.map fun display => { s with
        host := { s.host with showing := s.host.showing.eraseIdx index }.runShow display opens }
  | .disconnects => some { s with
      host := { s.host with overlay := { s.host.overlay with
        controlTx := s.host.overlay.controlTx.map fun _ => false } } }

/-- A session for a transport, on a screen in any state. -/
def start (transport : TransportKind) (screen : Screen) : SessionState :=
  { rest := runtime.session transport, host := { screen } }

/-- Nothing is seen before there is privacy, and when the session is over every
display it put into privacy mode is active again and the overlay is hidden. -/
structure PrivacyCovers (s : SessionState) : Prop where
  before : runtime.enablePrivacyOnSessionStart = true → s.exposed = false
  after : runtime.enablePrivacyOnSessionStart = true → s.returned = true →
    (∀ display, s.host.states.lookup display ≠ some .privacy) ∧ s.host.overlay.window = none

/-- A call after which the capture starts succeeds only when there is privacy, and
the session ends only when no privacy has been put in place. -/
def Careful (s : SessionState) : SessionEvent → Prop
  | .succeeds =>
      (s.rest.tail.head?.any SessionOp.captures = true → Established s.host runtime.target) ∧
        (s.rest.tail = [] → s.engaged = false)
  | .fails => s.engaged = false
  | _ => True

instance : DecidablePred (Careful runtime s)
  | .succeeds | .fails => by unfold Careful; infer_instance
  | .enablesPrivacy _ _ | .video | .shows _ _ | .disconnects => .isTrue trivial

variable {runtime s} {next : SessionState} {event : SessionEvent}

/-- The capture does not start right after privacy is asked for. -/
def Ordered : List SessionOp → Bool
  | [] => true
  | .enablePrivacy :: rest =>
      rest.head?.all (fun op => !op.captures) && !rest.isEmpty && Ordered rest
  | _ :: rest => Ordered rest

theorem ordered_tail {op : SessionOp} {rest : List SessionOp}
    (ordered : Ordered (op :: rest) = true) : Ordered rest = true := by
  cases op with
  | attempt call => exact ordered
  | enablePrivacy =>
      rw [Ordered, Bool.and_eq_true] at ordered
      exact ordered.2
  | awaitCapture => exact ordered

theorem ordered_session (runtime : PrivacyRuntime) (transport : TransportKind) :
    Ordered (runtime.session transport) = true := by
  obtain ⟨platform, streamMode, displayId, privacyMode, enable, disableAudio⟩ := runtime
  cases transport with
  | nativeQuic => cases streamMode <;> cases enable <;> cases disableAudio <;> rfl
  | webRtc | relayQuic | webTransport => rfl

theorem not_captures_session (runtime : PrivacyRuntime) (transport : TransportKind) :
    (runtime.session transport).head?.any SessionOp.captures = false := by
  cases transport with
  | nativeQuic =>
      show runtime.runNativeQuicSession.head?.any SessionOp.captures = false
      rw [PrivacyRuntime.runNativeQuicSession]
      split <;> rfl
  | webRtc | relayQuic | webTransport => rfl

/-- Nothing is in privacy mode, covered or about to be. -/
def Quiet (host : DisplayHost) : Prop :=
  (∀ display, host.states.lookup display ≠ some .privacy) ∧ host.overlay.window = none ∧
    host.showing = []

/-- What the events keep. -/
structure Guarded (runtime : PrivacyRuntime) (s : SessionState) : Prop where
  ordered : Ordered s.rest = true
  hidden : s.exposed = false
  established : s.rest.head?.any SessionOp.captures = true → Established s.host runtime.target
  quiet : s.engaged = false → Quiet s.host
  closed : s.returned = true → s.engaged = false

theorem guarded_start (runtime : PrivacyRuntime) (transport : TransportKind) (screen : Screen) :
    Guarded runtime (start runtime transport screen) where
  ordered := ordered_session runtime transport
  hidden := rfl
  established captures := by
    have none := not_captures_session runtime transport
    rw [show (runtime.session transport).head?.any SessionOp.captures = true from captures] at none
    cases none
  quiet _ := by
    refine ⟨?_, rfl, rfl⟩
    intro display was
    cases was
  closed returned := by
    cases returned

/-- A call moves on to one that may be carried out. -/
theorem Guarded.advance (guarded : Guarded runtime s) {op : SessionOp} {rest : List SessionOp}
    (front : s.rest = op :: rest)
    (established : rest.head?.any SessionOp.captures = true → Established s.host runtime.target)
    (last : rest = [] → s.engaged = false) : Guarded runtime (s.advance rest) where
  ordered := by
    have ordered := guarded.ordered
    rw [front] at ordered
    exact ordered_tail ordered
  hidden := guarded.hidden
  established := established
  quiet := guarded.quiet
  closed returned := last (List.isEmpty_iff.mp returned)

theorem Guarded.perform (guarded : Guarded runtime s) (call : SessionCall) :
    Guarded runtime (s.perform call) := by
  rw [SessionState.perform]
  split
  · exact ⟨guarded.ordered, guarded.hidden, guarded.established, guarded.quiet, guarded.closed⟩
  · exact guarded

/-- A display manager that answers with an error has touched the screen at most. -/
theorem setDisplayState_error {kind : DisplayManagerKind} {host left : DisplayHost}
    {display : DisplayId} {commands : Commands} {e : DisplayError}
    (failed : kind.setDisplayState host display .privacy commands = (.error e, left)) :
    ∃ screen, left = { host with screen } := by
  cases kind with
  | x11 fallback =>
      change host.setPrivacy fallback display commands = _ at failed
      rw [DisplayHost.setPrivacy] at failed
      split at failed
      · exact ⟨host.screen, (Prod.mk.inj failed).2.symm⟩
      · split at failed
        · exact ⟨host.screen, (Prod.mk.inj failed).2.symm⟩
        · split at failed
          · cases (Prod.mk.inj failed).1
          · split at failed
            · cases (Prod.mk.inj failed).1
            · split at failed
              · cases (Prod.mk.inj failed).1
              · exact ⟨_, (Prod.mk.inj failed).2.symm⟩
  | logical => cases (Prod.mk.inj failed).1
  | dxgi =>
      change (if commands.lists display then _ else _) = _ at failed
      split at failed
      · cases (Prod.mk.inj failed).1
      · exact ⟨host.screen, (Prod.mk.inj failed).2.symm⟩

theorem Guarded.enablePrivacy (guarded : Guarded runtime s) {rest : List SessionOp}
    (front : s.rest = .enablePrivacy :: rest) (commands : Commands) (opens : Bool) :
    Guarded runtime ((s.enablePrivacy runtime commands opens).advance rest) := by
  have ordered := guarded.ordered
  rw [front, Ordered, Bool.and_eq_true, Bool.and_eq_true] at ordered
  obtain ⟨⟨later, more⟩, ordered⟩ := ordered
  have waits : rest.head?.any SessionOp.captures ≠ true := by
    cases rest with
    | nil => exact Bool.false_ne_true
    | cons op rest =>
        intro captures
        have idle : op.captures = false := by simpa using later
        rw [show op.captures = true from captures] at idle
        cases idle
  have goes : ¬ rest.isEmpty = true := by simpa using more
  have hidden : (s.enablePrivacy runtime commands opens).exposed = false := by
    rw [SessionState.enablePrivacy]
    split
    · exact guarded.hidden
    · split <;> exact guarded.hidden
  refine ⟨ordered, hidden, fun captures => absurd captures waits, ?_, fun engaged => absurd engaged goes⟩
  show (s.enablePrivacy runtime commands opens).engaged = false →
    Quiet (s.enablePrivacy runtime commands opens).host
  rw [SessionState.enablePrivacy]
  split
  · intro engaged
    cases engaged
  · rename_i failed
    split
    · intro engaged
      cases engaged
    · intro engaged
      obtain ⟨screen, rfl⟩ := setDisplayState_error failed
      exact guarded.quiet engaged

theorem Guarded.shows (guarded : Guarded runtime s) {index : Nat} {display : DisplayId}
    (found : s.host.showing[index]? = some display) (opens : Bool) :
    Guarded runtime { s with
      host := { s.host with showing := s.host.showing.eraseIdx index }.runShow display opens } := by
  refine ⟨guarded.ordered, guarded.hidden, ?_, ?_, guarded.closed⟩
  · intro captures
    obtain handle | covered := guarded.established captures
    · exact .inl handle
    · exact .inr (BlankOverlayManager.window_showOn covered display opens)
  · intro engaged
    rw [(guarded.quiet engaged).2.2] at found
    cases found

theorem succeeds_eq_some (stepped : s.step runtime .succeeds = some next) :
    (∃ call rest, s.rest = .attempt call :: rest ∧ next = (s.perform call).advance rest) ∨
      ∃ rest, s.rest = .awaitCapture :: rest ∧ next = s.advance rest := by
  rw [SessionState.step] at stepped
  split at stepped
  case h_1 call rest front =>
    obtain ⟨-, same⟩ := Option.ite_none_right_eq_some.mp stepped
    exact .inl ⟨call, rest, front, (Option.some.inj same).symm⟩
  case h_2 rest front => exact .inr ⟨rest, front, (Option.some.inj stepped).symm⟩
  case h_3 => cases stepped

theorem fails_eq_some (stepped : s.step runtime .fails = some next) :
    next = s.advance [] := by
  rw [SessionState.step] at stepped
  split at stepped
  · obtain ⟨-, same⟩ := Option.ite_none_right_eq_some.mp stepped
    exact (Option.some.inj same).symm
  · cases stepped

theorem enablesPrivacy_eq_some {commands : Commands} {opens : Bool}
    (stepped : s.step runtime (.enablesPrivacy commands opens) = some next) :
    ∃ rest, s.rest = .enablePrivacy :: rest ∧
      next = (s.enablePrivacy runtime commands opens).advance rest := by
  rw [SessionState.step] at stepped
  split at stepped
  case h_1 rest front => exact ⟨rest, front, (Option.some.inj stepped).symm⟩
  case h_2 => cases stepped

theorem Guarded.step (guarded : Guarded runtime s) (careful : Careful runtime s event)
    (stepped : s.step runtime event = some next) : Guarded runtime next := by
  cases event with
  | succeeds =>
      obtain ⟨established, last⟩ := careful
      obtain ⟨call, rest, front, rfl⟩ | ⟨rest, front, rfl⟩ := succeeds_eq_some stepped
      · rw [front] at established last
        have ahead : (s.perform call).rest = .attempt call :: rest := by
          rw [SessionState.perform]
          split <;> exact front
        refine (guarded.perform call).advance ahead ?_ ?_
        · intro captures
          rw [SessionState.perform]
          split <;> exact established captures
        · intro empty
          rw [SessionState.perform]
          split <;> exact last empty
      · rw [front] at established last
        exact guarded.advance front established last
  | fails =>
      obtain rfl := fails_eq_some stepped
      refine ⟨rfl, guarded.hidden, ?_, guarded.quiet, fun _ => careful⟩
      intro captures
      cases captures
  | enablesPrivacy commands opens =>
      obtain ⟨rest, front, rfl⟩ := enablesPrivacy_eq_some stepped
      exact guarded.enablePrivacy front commands opens
  | video =>
      obtain ⟨captures, stepped⟩ := Option.ite_none_right_eq_some.mp stepped
      obtain rfl := Option.some.inj stepped
      refine ⟨guarded.ordered, ?_, guarded.established, guarded.quiet, guarded.closed⟩
      show (s.exposed || !decide (Established s.host runtime.target)) = false
      rw [guarded.hidden, decide_eq_true (guarded.established captures)]
      rfl
  | shows index opens =>
      obtain ⟨display, found, rfl⟩ := Option.map_eq_some_iff.mp stepped
      exact guarded.shows found opens
  | disconnects =>
      obtain rfl := Option.some.inj stepped
      exact ⟨guarded.ordered, guarded.hidden, guarded.established, guarded.quiet, guarded.closed⟩

/-- In every session whose events are all careful, privacy covers the session and no more. -/
theorem privacyCovers_of_careful (runtime : PrivacyRuntime) (transport : TransportKind)
    (screen : Screen) (events : List SessionEvent)
    (careful : Stepping.Meets (step runtime) (Careful runtime) (start runtime transport screen)
      events) (s : SessionState)
    (ran : Stepping.run (step runtime) (start runtime transport screen) events = some s) :
    PrivacyCovers runtime s := by
  have guarded : Guarded runtime s :=
    careful.invariant (fun guarded careful stepped => guarded.step careful stepped)
      (guarded_start runtime transport screen) ran
  refine ⟨fun _ => guarded.hidden, fun _ returned => ?_⟩
  obtain ⟨active, closed, -⟩ := guarded.quiet (guarded.closed returned)
  exact ⟨active, closed⟩

/-! ## The other sessions -/

/-- Nothing of the session asks for privacy, or has. -/
structure Plain (runtime : PrivacyRuntime) (s : SessionState) : Prop where
  rest : .enablePrivacy ∉ s.rest
  bare : ¬ Established s.host runtime.target
  showing : s.host.showing = []

theorem Plain.advance (plain : Plain runtime s) {op : SessionOp} {rest : List SessionOp}
    (front : s.rest = op :: rest) : Plain runtime (s.advance rest) := by
  refine ⟨fun member => plain.rest ?_, plain.bare, plain.showing⟩
  rw [front]
  exact .tail _ member

theorem Plain.step (plain : Plain runtime s) (stepped : s.step runtime event = some next) :
    Plain runtime next := by
  cases event with
  | succeeds =>
      obtain ⟨call, rest, front, rfl⟩ | ⟨rest, front, rfl⟩ := succeeds_eq_some stepped
      · rw [perform]
        split
        · exact ⟨(plain.advance front).rest, plain.bare, plain.showing⟩
        · exact plain.advance front
      · exact plain.advance front
  | fails =>
      obtain rfl := fails_eq_some stepped
      exact ⟨List.not_mem_nil, plain.bare, plain.showing⟩
  | enablesPrivacy commands opens =>
      obtain ⟨rest, front, -⟩ := enablesPrivacy_eq_some stepped
      exact absurd (by rw [front]; exact .head _) plain.rest
  | video =>
      obtain ⟨-, stepped⟩ := Option.ite_none_right_eq_some.mp stepped
      obtain rfl := Option.some.inj stepped
      exact ⟨plain.rest, plain.bare, plain.showing⟩
  | shows index opens =>
      obtain ⟨display, found, rfl⟩ := Option.map_eq_some_iff.mp stepped
      rw [plain.showing] at found
      cases found
  | disconnects =>
      obtain rfl := Option.some.inj stepped
      exact ⟨plain.rest, plain.bare, plain.showing⟩

/-- In a session that does not ask for privacy, nothing covers the target when an access unit is
sent, so it is exposed from the first one on. -/
theorem video_exposes {transport : TransportKind} {screen : Screen} {events : List SessionEvent}
    {s next : SessionState} (unasked : .enablePrivacy ∉ runtime.session transport)
    (ran : Stepping.run (step runtime) (start runtime transport screen) events = some s)
    (sent : s.step runtime .video = some next) :
    ¬ Established s.host runtime.target ∧ next.exposed = true := by
  have plain : Plain runtime s := by
    refine Stepping.run_invariant (fun plain stepped => plain.step stepped) ?_ ran
    refine ⟨unasked, ?_, rfl⟩
    rintro (handle | covered)
    · cases handle
    · cases covered
  obtain ⟨-, stepped⟩ := Option.ite_none_right_eq_some.mp sent
  obtain rfl := Option.some.inj stepped
  refine ⟨plain.bare, ?_⟩
  show (s.exposed || !decide (Established s.host runtime.target)) = true
  rw [decide_eq_false plain.bare]
  exact Bool.or_true _

end SessionState

namespace Sample

open SessionState

def privateRuntime : PrivacyRuntime where
  platform := .x11
  streamMode := .multiDisplay
  displayId := some 0
  privacyMode := .vkms
  enablePrivacyOnSessionStart := true
  disableAudio := true

/-- Every call succeeds, up to the first access unit. -/
def toFirstUnit : List SessionEvent :=
  .replicate 10 .succeeds ++ [.enablesPrivacy {} true, .succeeds, .succeeds, .video]

/-- The displays cannot be enumerated and the client is gone, so nothing comes of the privacy, and
the session ends. -/
def withoutDisplays : List SessionEvent :=
  .replicate 10 .succeeds ++
    [.disconnects, .enablesPrivacy { enumerate := .error "no outputs" } true, .fails]

def allDisplaysRuntime : PrivacyRuntime := { privateRuntime with streamMode := .allDisplays }

/-- A session that sends its first access unit, and one that returns. -/
theorem toFirstUnit_privacyCovers :
    (∃ s, Stepping.run (step privateRuntime) (start privateRuntime .nativeQuic {}) toFirstUnit =
        some s ∧ s.rest = [.awaitCapture] ∧ PrivacyCovers privateRuntime s) ∧
    ∃ s, Stepping.run (step allDisplaysRuntime) (start allDisplaysRuntime .nativeQuic {})
        withoutDisplays = some s ∧ s.returned = true ∧ PrivacyCovers allDisplaysRuntime s := by
  have sends : (Stepping.run (step privateRuntime) (start privateRuntime .nativeQuic {})
      toFirstUnit).any (fun s => decide (s.rest = [.awaitCapture])) = true := by decide
  have ends : (Stepping.run (step allDisplaysRuntime) (start allDisplaysRuntime .nativeQuic {})
      withoutDisplays).any (fun s => s.returned) = true := by decide
  obtain ⟨s, ran, waits⟩ := (Option.any_eq_true _ _).mp sends
  obtain ⟨s', ran', returned⟩ := (Option.any_eq_true _ _).mp ends
  exact ⟨⟨s, ran, of_decide_eq_true waits,
      privacyCovers_of_careful privateRuntime .nativeQuic {} toFirstUnit (by decide) s ran⟩,
    s', ran', returned, privacyCovers_of_careful allDisplaysRuntime .nativeQuic {}
      withoutDisplays (by decide) s' ran'⟩

/-- Nobody has asked for privacy. -/
def openRuntime : PrivacyRuntime where
  platform := .x11
  streamMode := .multiDisplay
  displayId := some 0
  privacyMode := .vkms
  enablePrivacyOnSessionStart := false
  disableAudio := true

/-- The second access unit is sent after the client has gone. -/
def secondUnit : List SessionEvent := .replicate 11 .succeeds ++ [.video, .disconnects]

theorem openRuntime_exposes : ∃ s next,
    Stepping.run (step openRuntime) (start openRuntime .nativeQuic {}) secondUnit = some s ∧
      s.step openRuntime .video = some next ∧
      ¬ Established s.host openRuntime.target ∧ next.exposed = true := by
  obtain ⟨s, next, ran, sent⟩ : ∃ s next,
      Stepping.run (step openRuntime) (start openRuntime .nativeQuic {}) secondUnit = some s ∧
        s.step openRuntime .video = some next := ⟨_, _, rfl, rfl⟩
  exact ⟨s, next, ran, sent, video_exposes (by decide) ran sent⟩

/-- The session ends when its capture does. -/
theorem normalEnd_not_privacyCovers : ¬ ∀ runtime transport screen events s,
    Stepping.run (step runtime) (start runtime transport screen) events = some s →
      PrivacyCovers runtime s := by
  intro always
  have ends : (Stepping.run (step privateRuntime) (start privateRuntime .nativeQuic {})
      (toFirstUnit ++ [.succeeds])).any (fun s =>
        s.returned && decide (s.host.states.lookup 0 = some .privacy)) = true := by
    decide
  obtain ⟨s, ran, left⟩ := (Option.any_eq_true _ _).mp ends
  rw [Bool.and_eq_true, decide_eq_true_eq] at left
  exact ((always _ _ _ _ s ran).after rfl left.1).1 0 left.2

end Sample

end Qubox.Host
