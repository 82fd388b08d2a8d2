import Qubox.Host.Overlay
import Qubox.Library.Table

/-!
# Starting displays

The orchestrator keeps a pipeline for every display that it captures. Starting a
display that has a pipeline succeeds and changes nothing, also when the task of the
pipeline has ended. What the backend, the encoder and the connection answer is given
with every request.

Starting several displays is undone when one fails. `start_multi_display` undoes all
requests ahead of the failing one, those that were running before among them, and
`subscribe` only what it started.
-/

namespace Qubox.Host

inductive CaptureError where
  | displayNotFound (id : DisplayId)
  | backend (message : String)
  deriving DecidableEq, Repr

inductive OrchestratorError where
  | capture (e : CaptureError)
  | pipeline (message : String)
  | quic (message : String)
  deriving DecidableEq, Repr

structure DisplayInfo where
  id : DisplayId
  name : String
  deriving DecidableEq, Repr

/-- A display whose capture starts, with what the environment answers on the way. -/
structure StartRequest where
  id : DisplayId
  enumerated : Except CaptureError (List DisplayInfo)
  opened : Except CaptureError Unit
  spawned : Except String Unit
  sender : Except String Unit

/-- The capture is opened, the encoder spawned and a stream opened for a display that
exists. -/
def StartRequest.prepare (r : StartRequest) : Except OrchestratorError DisplayInfo := do
  let displays ← r.enumerated.mapError .capture
  let info ←
    match displays.find? fun d => d.id = r.id with
    | some info => .ok info
    | none => .error (.capture (.displayNotFound r.id))
  r.opened.mapError .capture
  r.spawned.mapError fun e => .pipeline ("ffmpeg spawn: " ++ e)
  r.sender.mapError fun e => .quic ("open media sender: " ++ e)
  return info

structure DisplayPipeline where
  displayInfo : DisplayInfo
  task : Nat
  deriving DecidableEq, Repr

/-- Tasks are numbered in the order in which they are spawned. -/
structure CaptureOrchestrator where
  pipelines : AList (fun _ : DisplayId => DisplayPipeline)
  nextTask : Nat
  spawned : ∀ id p, pipelines.lookup id = some p → p.task < nextTask

namespace CaptureOrchestrator

def Running (s : CaptureOrchestrator) (id : DisplayId) : Prop := id ∈ s.pipelines

instance (s : CaptureOrchestrator) (id : DisplayId) : Decidable (s.Running id) :=
  inferInstanceAs (Decidable (id ∈ s.pipelines))

/-- A task is spawned for the display. -/
def addPipeline (s : CaptureOrchestrator) (id : DisplayId) (info : DisplayInfo) :
    CaptureOrchestrator where
  pipelines := s.pipelines.insert id ⟨info, s.nextTask⟩
  nextTask := s.nextTask + 1
  spawned := by
    intro other p found
    rw [AList.lookup_insert_ite] at found
    split at found
    · cases found
      exact Nat.lt_succ_self _
    · exact Nat.lt_succ_of_lt (s.spawned other p found)

def startDisplayInner (s : CaptureOrchestrator) (r : StartRequest) :
    Except OrchestratorError Unit × CaptureOrchestrator :=
  if s.Running r.id then (.ok (), s)
  else
    match r.prepare with
    | .ok info => (.ok (), s.addPipeline r.id info)
    | .error e => (.error e, s)

def stopDisplay (s : CaptureOrchestrator) (id : DisplayId) : CaptureOrchestrator where
  pipelines := s.pipelines.erase id
  nextTask := s.nextTask
  spawned := by
    intro other p found
    rw [AList.lookup_erase_ite] at found
    split at found
    · cases found
    · exact s.spawned other p found

def stopAll (s : CaptureOrchestrator) (ids : List DisplayId) : CaptureOrchestrator :=
  ids.foldl stopDisplay s

/-- The loop of `start_multi_display`; `started` is what is stopped on failure. -/
def startEach (s : CaptureOrchestrator) (started : List DisplayId) :
    List StartRequest → Except OrchestratorError Unit × CaptureOrchestrator
  | [] => (.ok (), s)
  | r :: rest =>
    match s.startDisplayInner r with
    | (.ok (), s) => s.startEach (started ++ [r.id]) rest
    | (.error e, s) => (.error e, s.stopAll started)

def startMultiDisplay (s : CaptureOrchestrator) (requests : List StartRequest) :
    Except OrchestratorError Unit × CaptureOrchestrator :=
  s.startEach [] requests

/-- The requests for the displays that the backend lists, with what the environment
answers for each. -/
def allRequests (displays : List DisplayInfo) (answers : DisplayInfo → StartRequest) :
    List StartRequest :=
  displays.map fun d => { answers d with id := d.id }

def startAllDisplays (s : CaptureOrchestrator)
    (enumerated : Except CaptureError (List DisplayInfo)) (answers : DisplayInfo → StartRequest) :
    Except OrchestratorError (List DisplayId) × CaptureOrchestrator :=
  match enumerated with
  | .error e => (.error (.capture e), s)
  | .ok displays =>
    match s.startMultiDisplay (allRequests displays answers) with
    | (.ok (), s) => (.ok (displays.map DisplayInfo.id), s)
    | (.error e, s) => (.error e, s)

/-- The loop of `subscribe`, which passes over the displays that have a pipeline. -/
def subscribeEach (s : CaptureOrchestrator) (started : List DisplayId) :
    List StartRequest → Except OrchestratorError Unit × CaptureOrchestrator
  | [] => (.ok (), s)
  | r :: rest =>
    if s.Running r.id then s.subscribeEach started rest
    else
      match s.startDisplayInner r with
      | (.ok (), s) => s.subscribeEach (started ++ [r.id]) rest
      | (.error e, s) => (.error e, s.stopAll started)

def subscribe (s : CaptureOrchestrator) (requests : List StartRequest) :
    Except OrchestratorError Unit × CaptureOrchestrator :=
  s.subscribeEach [] requests

/-! ## Atomic starts -/

/-- What starting the displays in one step means for a result: either nothing changed, or
all of them run, each by a task that was started now or has not ended. -/
def Atomic {α : Type} (s : CaptureOrchestrator) (ids : List DisplayId) (ended : Nat → Prop) :
    Except OrchestratorError α × CaptureOrchestrator → Prop
  | (.error _, after) => ∀ id, after.Running id ↔ s.Running id
  | (.ok _, after) =>
    (∀ id, after.Running id ↔ s.Running id ∨ id ∈ ids) ∧
      ∀ id ∈ ids, ∃ p, after.pipelines.lookup id = some p ∧
        (s.nextTask ≤ p.task ∨ ¬ ended p.task)

/-- The request is the first one for its display, which has no pipeline, and does not
succeed. -/
def FailsAfter (s : CaptureOrchestrator) (ahead : List StartRequest) (r : StartRequest) : Prop :=
  ¬ s.Running r.id ∧ r.id ∉ ahead.map StartRequest.id ∧ r.prepare.toBool = false

instance (s : CaptureOrchestrator) (ahead : List StartRequest) (r : StartRequest) :
    Decidable (s.FailsAfter ahead r) :=
  inferInstanceAs (Decidable (¬ s.Running r.id ∧ r.id ∉ ahead.map StartRequest.id ∧
    r.prepare.toBool = false))

/-- The requests ahead of the first one that fails. -/
def aheadOfFailure (s : CaptureOrchestrator) (ahead : List StartRequest) :
    List StartRequest → Option (List StartRequest)
  | [] => none
  | r :: rest =>
    if s.FailsAfter ahead r then some ahead else s.aheadOfFailure (ahead ++ [r]) rest

/-- The displays that ran before and are requested again run on. -/
def RunOn (s : CaptureOrchestrator) (requests : List StartRequest) (ended : Nat → Prop) : Prop :=
  ∀ r ∈ requests, ∀ p, s.pipelines.lookup r.id = some p → ¬ ended p.task

/-- When a request fails, no display ahead of it ran before; otherwise those that ran
before run on. -/
def StartsCleanly (s : CaptureOrchestrator) (requests : List StartRequest)
    (ended : Nat → Prop) : Prop :=
  match s.aheadOfFailure [] requests with
  | some ahead => ∀ r ∈ ahead, ¬ s.Running r.id
  | none => s.RunOn requests ended

/-- When no request fails, the displays that ran before run on. -/
def SubscribesCleanly (s : CaptureOrchestrator) (requests : List StartRequest)
    (ended : Nat → Prop) : Prop :=
  s.aheadOfFailure [] requests = none → s.RunOn requests ended

/-! ## One request -/

variable {s t : CaptureOrchestrator} {ahead rest : List StartRequest} {r : StartRequest}

theorem running_iff {id : DisplayId} : s.Running id ↔ ∃ p, s.pipelines.lookup id = some p := by
  rw [Running, ← AList.lookup_isSome, Option.isSome_iff_exists]

theorem not_running_iff {id : DisplayId} : ¬ s.Running id ↔ s.pipelines.lookup id = none :=
  AList.lookup_eq_none.symm

/-- The state after requests that succeeded: what ran before is as it was, and the others
have a task that was started since. -/
structure Extends (s : CaptureOrchestrator) (ahead : List StartRequest) (t : CaptureOrchestrator) :
    Prop where
  old : ∀ id, s.Running id → t.pipelines.lookup id = s.pipelines.lookup id
  fresh : ∀ id, ¬ s.Running id → id ∈ ahead.map StartRequest.id →
    ∃ p, t.pipelines.lookup id = some p ∧ s.nextTask ≤ p.task
  absent : ∀ id, ¬ s.Running id → id ∉ ahead.map StartRequest.id → ¬ t.Running id
  tasks : s.nextTask ≤ t.nextTask

theorem extends_nil (s : CaptureOrchestrator) : s.Extends [] s :=
  ⟨fun _ _ => rfl, fun _ _ => nofun, fun _ away _ => away, Nat.le_refl _⟩

theorem Extends.running_iff (ext : s.Extends ahead t) (id : DisplayId) :
    t.Running id ↔ s.Running id ∨ id ∈ ahead.map StartRequest.id := by
  by_cases before : s.Running id
  · refine iff_of_true ?_ (.inl before)
    rw [CaptureOrchestrator.running_iff, ext.old id before]
    exact CaptureOrchestrator.running_iff.mp before
  · by_cases requested : id ∈ ahead.map StartRequest.id
    · obtain ⟨p, found, -⟩ := ext.fresh id before requested
      exact iff_of_true (CaptureOrchestrator.running_iff.mpr ⟨p, found⟩) (.inr requested)
    · exact iff_of_false (ext.absent id before requested) (by simp [before, requested])

/-- A display with a pipeline is passed over. -/
theorem Extends.skip (ext : s.Extends ahead t) (running : t.Running r.id) :
    s.Extends (ahead ++ [r]) t := by
  have known := (ext.running_iff _).mp running
  refine ⟨ext.old, ?_, ?_, ext.tasks⟩
  · intro id away requested
    apply ext.fresh id away
    rw [List.map_append, List.mem_append] at requested
    rcases requested with earlier | now
    · exact earlier
    · obtain rfl := List.mem_singleton.mp now
      exact known.resolve_left away
  · intro id away requested
    apply ext.absent id away
    intro earlier
    apply requested
    rw [List.map_append]
    exact List.mem_append_left _ earlier

/-- A display without one gets the next task. -/
theorem Extends.add (ext : s.Extends ahead t) (away : ¬ t.Running r.id) (info : DisplayInfo) :
    s.Extends (ahead ++ [r]) (t.addPipeline r.id info) := by
  have lookup (id : DisplayId) : (t.addPipeline r.id info).pipelines.lookup id =
      if id = r.id then some ⟨info, t.nextTask⟩ else t.pipelines.lookup id :=
    AList.lookup_insert_ite _ _ _ _
  have unknown := not_or.mp (mt (ext.running_iff _).mpr away)
  refine ⟨?_, ?_, ?_, Nat.le_succ_of_le ext.tasks⟩
  · intro id before
    rw [lookup, if_neg, ext.old id before]
    rintro rfl
    exact unknown.1 before
  · intro id before requested
    rw [lookup]
    split
    · exact ⟨_, rfl, ext.tasks⟩
    · rename_i other
      apply ext.fresh id before
      rw [List.map_append, List.mem_append] at requested
      exact requested.resolve_right (mt List.mem_singleton.mp other)
  · intro id before requested
    rw [List.map_append, List.mem_append, not_or] at requested
    rw [not_running_iff, lookup, if_neg (mt List.mem_singleton.mpr requested.2), ← not_running_iff]
    exact ext.absent id before requested.1

/-- A request succeeds and extends the state, or fails and leaves it. -/
theorem Extends.startDisplayInner (ext : s.Extends ahead t) (r : StartRequest) :
    (∃ t', t.startDisplayInner r = (.ok (), t') ∧ ¬ s.FailsAfter ahead r ∧
        s.Extends (ahead ++ [r]) t') ∨
      ∃ e, t.startDisplayInner r = (.error e, t) ∧ s.FailsAfter ahead r := by
  have known := ext.running_iff r.id
  rw [CaptureOrchestrator.startDisplayInner]
  by_cases running : t.Running r.id
  · rw [if_pos running]
    refine .inl ⟨t, rfl, ?_, ext.skip running⟩
    rintro ⟨away, unknown, -⟩
    exact (known.mp running).elim away unknown
  · rw [if_neg running]
    have unknown := not_or.mp (mt known.mpr running)
    cases prepared : r.prepare with
    | ok info =>
        refine .inl ⟨_, rfl, ?_, ext.add running info⟩
        rintro ⟨-, -, failed⟩
        rw [prepared] at failed
        exact nomatch failed
    | error e =>
        refine .inr ⟨e, rfl, unknown.1, unknown.2, ?_⟩
        rw [prepared]
        rfl

/-! ## The loops -/

theorem running_stopAll {ids : List DisplayId} {id : DisplayId} :
    (t.stopAll ids).Running id ↔ t.Running id ∧ id ∉ ids := by
  induction ids generalizing t with
  | nil => simp [stopAll]
  | cons first rest ih =>
      have one : (t.stopDisplay first).Running id ↔ t.Running id ∧ id ≠ first := by
        rw [running_iff, running_iff, stopDisplay]
        simp only [AList.lookup_erase_ite]
        by_cases same : id = first <;> simp [same]
      rw [stopAll, List.foldl_cons]
      change ((t.stopDisplay first).stopAll rest).Running id ↔ _
      rw [ih, one, List.mem_cons, not_or, and_assoc]

/-- All requests succeed, or those ahead of the first failure are stopped again. -/
theorem Extends.startEach (ext : s.Extends ahead t) (rest : List StartRequest) :
    match s.aheadOfFailure ahead rest with
    | none => ∃ t', t.startEach (ahead.map StartRequest.id) rest = (.ok (), t') ∧
        s.Extends (ahead ++ rest) t'
    | some before => ∃ e t', t.startEach (ahead.map StartRequest.id) rest =
          (.error e, t'.stopAll (before.map StartRequest.id)) ∧ s.Extends before t' := by
  induction rest generalizing ahead t with
  | nil => exact ⟨t, rfl, by rwa [List.append_nil]⟩
  | cons r rest ih =>
      rw [aheadOfFailure, CaptureOrchestrator.startEach]
      rcases ext.startDisplayInner r with ⟨t', started, succeeds, next⟩ | ⟨e, started, fails⟩
      · have later := ih next
        rw [List.map_append, List.map_singleton, List.append_assoc, List.singleton_append] at later
        rw [if_neg succeeds, started]
        exact later
      · rw [if_pos fails, started]
        exact ⟨e, t, rfl, ext⟩

/-- The displays that were started are those requested that did not run before. -/
def Started (s : CaptureOrchestrator) (ahead : List StartRequest) (started : List DisplayId) : Prop :=
  ∀ id, id ∈ started ↔ id ∈ ahead.map StartRequest.id ∧ ¬ s.Running id

theorem Extends.subscribeEach (ext : s.Extends ahead t) (started : List DisplayId)
    (recorded : s.Started ahead started) (rest : List StartRequest) :
    match s.aheadOfFailure ahead rest with
    | none => ∃ t', t.subscribeEach started rest = (.ok (), t') ∧ s.Extends (ahead ++ rest) t'
    | some before => ∃ e t' stopped, t.subscribeEach started rest =
          (.error e, t'.stopAll stopped) ∧ s.Extends before t' ∧ s.Started before stopped := by
  induction rest generalizing ahead t started with
  | nil => exact ⟨t, rfl, by rwa [List.append_nil]⟩
  | cons r rest ih =>
      have known := ext.running_iff r.id
      rw [aheadOfFailure, CaptureOrchestrator.subscribeEach]
      by_cases running : t.Running r.id
      · have passes : ¬ s.FailsAfter ahead r := by
          rintro ⟨away, unknown, -⟩
          exact (known.mp running).elim away unknown
        rw [if_pos running, if_neg passes]
        have later := ih (ext.skip running) started ?_
        · rw [List.append_assoc, List.singleton_append] at later
          exact later
        · intro id
          rw [recorded id, List.map_append, List.mem_append, List.map_singleton,
            List.mem_singleton]
          constructor
          · rintro ⟨requested, away⟩
            exact ⟨.inl requested, away⟩
          · rintro ⟨requested | rfl, away⟩
            · exact ⟨requested, away⟩
            · exact ⟨(known.mp running).resolve_left away, away⟩
      · rw [if_neg running]
        rcases ext.startDisplayInner r with ⟨t', started', succeeds, next⟩ | ⟨e, started', fails⟩
        · rw [if_neg succeeds, started']
          have later := ih next (started ++ [r.id]) ?_
          · rw [List.append_assoc, List.singleton_append] at later
            exact later
          · intro id
            have unknown := not_or.mp (mt known.mpr running)
            rw [List.mem_append, recorded id, List.map_append, List.mem_append, List.map_singleton,
              List.mem_singleton]
            constructor
            · rintro (⟨requested, away⟩ | rfl)
              · exact ⟨.inl requested, away⟩
              · exact ⟨.inr rfl, unknown.1⟩
            · rintro ⟨requested | same, away⟩
              · exact .inl ⟨requested, away⟩
              · exact .inr same
        · rw [if_pos fails, started']
          exact ⟨e, t, started, rfl, ext, recorded⟩

/-! ## Results -/

variable {requests : List StartRequest} {ended : Nat → Prop}

theorem Extends.atomic_iff (ext : s.Extends requests t) :
    s.Atomic (requests.map StartRequest.id) ended (.ok (), t) ↔ s.RunOn requests ended := by
  constructor
  · rintro ⟨-, alive⟩ r member p found
    have before := CaptureOrchestrator.running_iff.mpr ⟨p, found⟩
    obtain ⟨p', found', task⟩ := alive r.id (List.mem_map_of_mem member)
    rw [ext.old r.id before, found] at found'
    cases found'
    exact task.resolve_left (Nat.not_le_of_lt (s.spawned r.id p found))
  · intro runOn
    refine ⟨ext.running_iff, ?_⟩
    intro id requested
    by_cases before : s.Running id
    · obtain ⟨p, found⟩ := CaptureOrchestrator.running_iff.mp before
      obtain ⟨r, member, rfl⟩ := List.mem_map.mp requested
      exact ⟨p, (ext.old r.id before).trans found, .inr (runOn r member p found)⟩
    · obtain ⟨p, found, new⟩ := ext.fresh id before requested
      exact ⟨p, found, .inl new⟩

/-- What is stopped is only what was started exactly if it did not run before. -/
theorem Extends.stopAll_iff (ext : s.Extends ahead t) :
    (∀ id, (t.stopAll (ahead.map StartRequest.id)).Running id ↔ s.Running id) ↔
      ∀ r ∈ ahead, ¬ s.Running r.id := by
  constructor
  · intro same r member running
    have kept := (same r.id).mpr running
    exact (running_stopAll.mp kept).2 (List.mem_map_of_mem member)
  · intro apart id
    rw [running_stopAll, ext.running_iff]
    constructor
    · rintro ⟨before | requested, other⟩
      · exact before
      · exact absurd requested other
    · intro before
      refine ⟨.inl before, ?_⟩
      intro requested
      obtain ⟨r, member, rfl⟩ := List.mem_map.mp requested
      exact apart r member before

theorem Extends.stopStarted (ext : s.Extends ahead t) {started : List DisplayId}
    (recorded : s.Started ahead started) (id : DisplayId) :
    (t.stopAll started).Running id ↔ s.Running id := by
  rw [running_stopAll, ext.running_iff, recorded id]
  by_cases before : s.Running id <;> simp [before]

theorem startMultiDisplay_atomic_iff (s : CaptureOrchestrator) (requests : List StartRequest)
    (ended : Nat → Prop) :
    s.Atomic (requests.map StartRequest.id) ended (s.startMultiDisplay requests) ↔
      s.StartsCleanly requests ended := by
  have run := (extends_nil s).startEach requests
  rw [startMultiDisplay, StartsCleanly]
  rw [List.map_nil, List.nil_append] at run
  cases failure : s.aheadOfFailure [] requests with
  | none =>
      rw [failure] at run
      obtain ⟨t, result, ext⟩ := run
      rw [result]
      exact ext.atomic_iff
  | some before =>
      rw [failure] at run
      obtain ⟨e, t, result, ext⟩ := run
      rw [result]
      exact ext.stopAll_iff

theorem subscribe_atomic_iff (s : CaptureOrchestrator) (requests : List StartRequest)
    (ended : Nat → Prop) :
    s.Atomic (requests.map StartRequest.id) ended (s.subscribe requests) ↔
      s.SubscribesCleanly requests ended := by
  have run := (extends_nil s).subscribeEach [] (fun id => by simp) requests
  rw [subscribe, SubscribesCleanly]
  rw [List.nil_append] at run
  cases failure : s.aheadOfFailure [] requests with
  | none =>
      rw [failure] at run
      obtain ⟨t, result, ext⟩ := run
      rw [result, imp_iff_right rfl]
      exact ext.atomic_iff
  | some before =>
      rw [failure] at run
      obtain ⟨e, t, stopped, result, ext, recorded⟩ := run
      rw [result]
      exact iff_of_true (ext.stopStarted recorded) nofun

theorem startAllDisplays_atomic_iff (s : CaptureOrchestrator) (displays : List DisplayInfo)
    (answers : DisplayInfo → StartRequest) (ended : Nat → Prop) :
    s.Atomic (displays.map DisplayInfo.id) ended (s.startAllDisplays (.ok displays) answers) ↔
      s.StartsCleanly (allRequests displays answers) ended := by
  have ids : (allRequests displays answers).map StartRequest.id =
      displays.map DisplayInfo.id := by
    rw [allRequests, List.map_map]
    rfl
  rw [← startMultiDisplay_atomic_iff, ids, startAllDisplays]
  generalize s.startMultiDisplay (allRequests displays answers) = result
  obtain ⟨ended | ⟨⟩, after⟩ := result
  · rfl
  · rfl

/-- Each of the three ways to start displays is atomic exactly under its condition; a
listing that fails starts nothing. -/
theorem starts_atomic_iff (s : CaptureOrchestrator) (ended : Nat → Prop) :
    (∀ requests, s.Atomic (requests.map StartRequest.id) ended (s.startMultiDisplay requests) ↔
        s.StartsCleanly requests ended) ∧
      (∀ e answers, s.Atomic [] ended (s.startAllDisplays (.error e) answers)) ∧
      (∀ displays answers,
        s.Atomic (displays.map DisplayInfo.id) ended (s.startAllDisplays (.ok displays) answers) ↔
          s.StartsCleanly (allRequests displays answers) ended) ∧
      ∀ requests, s.Atomic (requests.map StartRequest.id) ended (s.subscribe requests) ↔
        s.SubscribesCleanly requests ended := by
  refine ⟨?_, ?_, ?_, ?_⟩
  · intro requests
    exact s.startMultiDisplay_atomic_iff requests ended
  · intro e answers id
    rfl
  · intro displays answers
    exact s.startAllDisplays_atomic_iff displays answers ended
  · intro requests
    exact s.subscribe_atomic_iff requests ended

end CaptureOrchestrator

namespace Sample

open CaptureOrchestrator

def noDisplays : CaptureOrchestrator := ⟨∅, 0, nofun⟩

def leftDisplay : DisplayInfo := ⟨0, "DP-1"⟩

/-- The left display is captured. -/
def leftCaptured : CaptureOrchestrator := noDisplays.addPipeline 0 leftDisplay

/-- A request for a display where the backend lists the left one only. -/
def requestFor (id : DisplayId) : StartRequest :=
  ⟨id, .ok [leftDisplay], .ok (), .ok (), .ok ()⟩

/-- The left display is stopped because another one is unknown. -/
theorem leftCaptured_not_atomic :
    ¬ ∀ (s : CaptureOrchestrator) (requests : List StartRequest) (ended : Nat → Prop),
      s.Atomic (requests.map StartRequest.id) ended (s.startMultiDisplay requests) ∧
        s.Atomic (requests.map StartRequest.id) ended (s.subscribe requests) := by
  intro atomic
  have clean := (startMultiDisplay_atomic_iff leftCaptured [requestFor 0, requestFor 7]
    fun _ => False).mp (atomic _ _ _).1
  have ahead : leftCaptured.aheadOfFailure [] [requestFor 0, requestFor 7] =
      some [requestFor 0] := by rfl
  rw [StartsCleanly, ahead] at clean
  exact clean _ (List.mem_singleton_self _) (by decide)

end Sample

end Qubox.Host
