import Qubox.Host.Displays
import Qubox.Library.Stepping

/-!
# Privacy of one display beside the others

The screen has one power switch and the client one window, so a display keeps its
privacy only while no call for another display gives up what it rests on, and all
of it is given back only where the last display to become active finds nothing
else in use.
-/

namespace Qubox.Host

/-! ## Making and destroying outputs -/

namespace Screen

variable {screen : Screen}

theorem poweredOff_force (off : Bool) (result : CommandResult) :
    (screen.force off result).poweredOff = if result.success then off else screen.poweredOff := by
  rw [force]
  split <;> rfl

@[simp] theorem outputs_force (off : Bool) (result : CommandResult) :
    (screen.force off result).outputs = screen.outputs := by
  rw [force]
  split <;> rfl

@[simp] theorem poweredOff_unload (result : CommandResult) :
    (screen.unload result).poweredOff = screen.poweredOff := by
  rw [unload]
  split <;> rfl

theorem outputs_unload (result : CommandResult) :
    (screen.unload result).outputs ⊆ screen.outputs := by
  rw [unload]
  split
  · exact List.nil_subset _
  · exact List.Subset.refl _

@[simp] theorem poweredOff_delOutput (outputName : String) (result : CommandResult) :
    (screen.delOutput outputName result).poweredOff = screen.poweredOff := by
  rw [delOutput]
  split <;> rfl

theorem outputs_delOutput (outputName : String) (result : CommandResult) :
    (screen.delOutput outputName result).outputs ⊆ screen.outputs := by
  rw [delOutput]
  split
  · exact List.filter_subset_self _
  · exact List.Subset.refl _

@[simp] theorem poweredOff_destroy (outputName : String) (commands : Commands) :
    (destroyVkmsDisplay screen outputName commands).poweredOff = screen.poweredOff := by
  rw [destroyVkmsDisplay, poweredOff_unload, poweredOff_delOutput]

/-- Either of the two commands takes the output away. -/
theorem mem_outputs_destroy {outputName other : String} {commands : Commands}
    (deleted : commands.deleted = true)
    (member : other ∈ (destroyVkmsDisplay screen outputName commands).outputs) :
    other ∈ screen.outputs ∧ other ≠ outputName := by
  refine ⟨outputs_delOutput _ _ (outputs_unload _ member), ?_⟩
  rw [Commands.deleted, Bool.or_eq_true] at deleted
  rintro rfl
  cases deleted with
  | inl gone =>
      have left := outputs_unload _ member
      rw [delOutput, if_pos gone] at left
      simp at left
  | inr unloaded =>
      rw [destroyVkmsDisplay, unload, if_pos unloaded] at member
      cases member

end Screen

/-- What an attempt to make a virtual output leaves behind. -/
theorem tryCreateVkmsDisplay_cases (screen : Screen) (name : String) (commands : Commands) :
    (commands.created = true ∧ ∃ made,
      tryCreateVkmsDisplay screen name commands = (.ok (outputNameOf name), made) ∧
      made.outputs = screen.outputs.insert (outputNameOf name) ∧
      made.poweredOff = (commands.forceOff.success || screen.poweredOff)) ∨
    (commands.created = false ∧ ∃ e left,
      tryCreateVkmsDisplay screen name commands = (.error e, left) ∧
      left.outputs ⊆ screen.outputs ∧ left.poweredOff = screen.poweredOff) := by
  unfold tryCreateVkmsDisplay
  cases modprobed : commands.modprobe with
  | error e =>
      refine .inr ⟨?_, _, screen, rfl, List.Subset.refl _, rfl⟩
      rw [Commands.created, modprobed]
      rfl
  | ok modprobe =>
      by_cases loads : modprobe.code = some 0
      · rw [Commands.created, modprobed, CommandResult.success, decide_eq_true loads, Bool.true_and]
        simp only [ne_eq, loads, not_true_eq_false, if_false]
        cases added : commands.newOutput with
        | error e => exact .inr ⟨rfl, _, _, rfl, List.Subset.refl _, rfl⟩
        | ok newOutput =>
            by_cases adds : newOutput.code = some 0
            · refine .inl ⟨decide_eq_true adds, _, if_neg (not_not_intro adds), ?_, ?_⟩
              · rw [Screen.outputs_force]
              · rw [Screen.poweredOff_force]
                cases commands.forceOff.success <;> rfl
            · refine .inr ⟨decide_eq_false adds, _, _, if_pos adds, ?_, ?_⟩
              · exact Screen.outputs_unload _
              · rw [Screen.poweredOff_unload]
      · refine .inr ⟨?_, _, screen, if_pos loads, List.Subset.refl _, rfl⟩
        rw [Commands.created, modprobed, CommandResult.success, decide_eq_false loads]
        rfl

/-! ## What the calls have to meet -/

namespace DisplayHost

variable {fallback : Bool} {host next : DisplayHost} {display : DisplayId} {call : DisplayCall}

/-- The screen is off, or the window of the client covers the display. -/
def Covered (host : DisplayHost) (display : DisplayId) : Prop :=
  host.screen.poweredOff = true ∨ host.overlay.window = some display

/-- No display was left in another state than active. -/
def AllActive (host : DisplayHost) : Prop := ∀ state ∈ host.states.values, state = .active

instance (host : DisplayHost) (display : DisplayId) : Decidable (host.Covered display) :=
  inferInstanceAs (Decidable (_ ∨ _))

instance (host : DisplayHost) : Decidable host.AllActive :=
  inferInstanceAs (Decidable (∀ state ∈ host.states.values, state = .active))

/-- The privacy of a display does not hang on what is done to the others. -/
structure Independent (host : DisplayHost) : Prop where
  covered : ∀ display, host.states.lookup display = some .privacy → host.Covered display
  restored : host.AllActive → host.screen.poweredOff = false ∧ host.overlay.window = none ∧
    host.screen.outputs = []
  distinct : host.live.Nodup

/-- The screen may be powered on for this display. -/
def Releasable (host : DisplayHost) (display : DisplayId) (commands : Commands) : Prop :=
  commands.forceOn.success = true → ∀ entry ∈ (host.states.erase display).entries,
    entry.2 = .privacy → host.overlay.window = some entry.1

/-- If this display is the last to become active, nothing else is in use and the screen comes
on again. -/
def Final (host : DisplayHost) (display : DisplayId) (commands : Commands) : Prop :=
  (∀ state ∈ (host.states.erase display).values, state = .active) →
    (commands.forceOn.success = true ∨ host.screen.poweredOff = false) ∧
    host.overlay.window = none ∧ host.showing = [] ∧
    (host.virtualDisplays.erase display).keys = []

/-- If the display exists, it is covered, or the call for it will power the screen off. -/
def Coverable (fallback : Bool) (host : DisplayHost) (display : DisplayId) (commands : Commands) :
    Prop :=
  commands.lists display = true →
    host.Covered display ∨ (host.virtualDisplays.lookup display = none ∧
      if commands.created then commands.forceOff.success = true else fallback = false)

def Careful (fallback : Bool) (host : DisplayHost) : DisplayCall → Prop
  | .setDisplayState display .active commands =>
      host.Releasable display commands ∧ host.Final display commands ∧
        ((host.virtualDisplays.lookup display).isSome → commands.deleted = true)
  | .setDisplayState display .privacy commands => host.Coverable fallback display commands
  | .createVirtualDisplay name commands => commands.created = true →
      ¬ host.AllActive ∧ host.virtualDisplays.lookup (displayIdOf (outputNameOf name)) = none
  | .destroyVirtualDisplay display commands =>
      (host.virtualDisplays.lookup display).isSome → commands.deleted = true
  | _ => True

instance (fallback : Bool) (host : DisplayHost) : DecidablePred (Careful fallback host)
  | .setDisplayState _ .active _ | .setDisplayState _ .privacy _ | .createVirtualDisplay _ _
  | .destroyVirtualDisplay _ _ => by
      unfold Careful
      try unfold Releasable Final
      try unfold Coverable
      infer_instance
  | .setDisplayState _ .blanked _ | .shows _ _ | .connects | .disconnects => .isTrue trivial

/-! ## One call -/

/-- Every output belongs to a handle, and the live ids are different keys of handles. -/
structure Handled (host : DisplayHost) : Prop where
  named : ∀ outputName ∈ host.screen.outputs, ∃ display,
    host.virtualDisplays.lookup display = some outputName
  distinct : host.live.Nodup
  live : ∀ display ∈ host.live, host.virtualDisplays.lookup display ≠ none

theorem Handled.insert (handled : host.Handled)
    (unused : host.virtualDisplays.lookup display = none) {made : Screen} {outputName : String}
    (outputs : made.outputs = host.screen.outputs.insert outputName) :
    ({ host with screen := made }.insertHandle display outputName).Handled := by
  have fresh : display ∉ host.live := fun member => handled.live display member unused
  refine ⟨?_, ?_, ?_⟩
  · intro other member
    have before : other ∈ host.screen.outputs.insert outputName := by
      rw [← outputs]
      exact member
    obtain rfl | before := List.mem_insert_iff.mp before
    · exact ⟨display, by rw [insertHandle, AList.lookup_insert_ite, if_pos rfl]⟩
    · obtain ⟨owner, found⟩ := handled.named other before
      refine ⟨owner, ?_⟩
      rw [insertHandle, AList.lookup_insert_ite, if_neg]
      · exact found
      · rintro rfl
        rw [unused] at found
        cases found
  · exact List.nodup_append'.mpr ⟨handled.distinct, List.nodup_singleton _,
      List.disjoint_singleton.mpr fresh⟩
  · intro other member
    rw [insertHandle, AList.lookup_insert_ite]
    split
    · exact Option.some_ne_none _
    · obtain before | new := List.mem_append.mp member
      · exact handled.live other before
      · exact absurd (List.mem_singleton.mp new) ‹_›

theorem Handled.remove (handled : host.Handled) {left : Screen}
    (outputs : ∀ outputName ∈ left.outputs, outputName ∈ host.screen.outputs ∧
      host.virtualDisplays.lookup display ≠ some outputName) :
    Handled { host.removeHandle display with screen := left } := by
  refine ⟨?_, handled.distinct.erase display, ?_⟩
  · intro outputName member
    obtain ⟨before, other⟩ := outputs outputName member
    obtain ⟨owner, found⟩ := handled.named outputName before
    refine ⟨owner, ?_⟩
    rw [removeHandle, AList.lookup_erase_ite, if_neg]
    · exact found
    · rintro rfl
      exact other found
  · intro other member
    obtain ⟨different, before⟩ := handled.distinct.mem_erase_iff.mp member
    rw [removeHandle, AList.lookup_erase_ite, if_neg different]
    exact handled.live other before

theorem Handled.shrink (handled : host.Handled) {left : Screen}
    (outputs : left.outputs ⊆ host.screen.outputs) : Handled { host with screen := left } :=
  ⟨fun outputName member => handled.named outputName (outputs member), handled.distinct,
    handled.live⟩

/-- What the calls keep: besides the handles, each display in privacy mode is covered, and
nothing is in use once every display is active. -/
structure Kept (host : DisplayHost) : Prop where
  covered : ∀ display, host.states.lookup display = some .privacy → host.Covered display
  handled : host.Handled
  restored : host.AllActive → host.screen.poweredOff = false ∧ host.overlay.window = none ∧
    host.showing = [] ∧ ∀ display, host.virtualDisplays.lookup display = none

theorem Kept.independent (kept : host.Kept) : host.Independent := by
  refine ⟨kept.covered, fun all => ?_, kept.handled.distinct⟩
  obtain ⟨on, closed, -, unused⟩ := kept.restored all
  refine ⟨on, closed, List.eq_nil_iff_forall_not_mem.mpr fun outputName member => ?_⟩
  obtain ⟨display, found⟩ := kept.handled.named outputName member
  rw [unused display] at found
  cases found

/-- The states other than that of one display. -/
theorem mem_states_erase {other : DisplayId} {state : DisplayState} (different : other ≠ display)
    (found : host.states.lookup other = some state) :
    (⟨other, state⟩ : Sigma fun _ : DisplayId => DisplayState) ∈
      (host.states.erase display).entries := by
  apply AList.mem_lookup_iff.mp
  rw [AList.lookup_erase_ite, if_neg different]
  exact found

theorem others_active {state : DisplayState}
    (all : ∀ state' ∈ (host.states.insert display state).values, state' = .active) :
    state = .active ∧ ∀ state' ∈ (host.states.erase display).values, state' = .active := by
  constructor
  · apply all
    exact AList.mem_values.mpr ⟨display, by rw [AList.lookup_insert_ite, if_pos rfl]⟩
  · intro state' member
    obtain ⟨other, found⟩ := AList.mem_values.mp member
    rw [AList.lookup_erase_ite] at found
    split at found
    · cases found
    · apply all
      exact AList.mem_values.mpr ⟨other, by rwa [AList.lookup_insert_ite, if_neg ‹_›]⟩

theorem Kept.setActive (kept : host.Kept) {commands : Commands}
    (careful : Careful fallback host (.setDisplayState display .active commands)) :
    (record display .active (.ok (), host.setActive display commands)).Kept := by
  obtain ⟨releasable, final, deleted⟩ := careful
  have power : (host.setActive display commands).screen.poweredOff =
      if commands.forceOn.success then false else host.screen.poweredOff := by
    rw [DisplayHost.setActive]
    dsimp only
    split
    · rw [Screen.poweredOff_destroy, Screen.poweredOff_force]
    · rw [Screen.poweredOff_force]
  have removed : (host.setActive display commands).Handled := by
    apply kept.handled.remove
    intro outputName member
    split at member
    · rename_i found
      obtain ⟨before, other⟩ := Screen.mem_outputs_destroy (deleted (by rw [found]; rfl)) member
      rw [Screen.outputs_force] at before
      refine ⟨before, fun same => other ?_⟩
      exact (Option.some.inj (found.symm.trans same)).symm
    · rename_i found
      rw [Screen.outputs_force] at member
      refine ⟨member, ?_⟩
      rw [found]
      exact Option.some_ne_none _ |>.symm
  refine ⟨?_, ⟨removed.named, removed.distinct, removed.live⟩, ?_⟩
  · intro other was
    have different : other ≠ display := by
      rintro rfl
      rw [record, AList.lookup_insert_ite, if_pos rfl] at was
      cases was
    have before : host.states.lookup other = some .privacy := by
      rwa [record, AList.lookup_insert_ite, if_neg different] at was
    show (host.setActive display commands).screen.poweredOff = true ∨ _
    rw [power]
    split
    · exact .inr (releasable ‹_› _ (mem_states_erase different before) rfl)
    · exact kept.covered other before
  · intro all
    obtain ⟨on, closed, idle, only⟩ := final (others_active all).2
    refine ⟨?_, closed, idle, ?_⟩
    · show (host.setActive display commands).screen.poweredOff = false
      rw [power]
      split
      · rfl
      · exact on.resolve_left ‹_›
    · intro other
      show (host.virtualDisplays.erase display).lookup other = none
      rw [AList.lookup_erase_ite]
      split
      · rfl
      · rename_i different
        have missing : other ∉ host.virtualDisplays.erase display := by
          rw [AList.mem_keys, only]
          exact List.not_mem_nil
        have unused := AList.lookup_eq_none.mpr missing
        rwa [AList.lookup_erase_ite, if_neg different] at unused

theorem Kept.blank (kept : host.Kept) : (record display .blanked (.ok (), host)).Kept := by
  refine ⟨?_, ⟨kept.handled.named, kept.handled.distinct, kept.handled.live⟩, ?_⟩
  · intro other was
    rw [record, AList.lookup_insert_ite] at was
    split at was
    · cases was
    · exact kept.covered other was
  · intro all
    cases (others_active all).1

/-- A call that answers with an error leaves the states, and what made them true. -/
theorem Kept.fail (kept : host.Kept) {left : Screen} (outputs : left.outputs ⊆ host.screen.outputs)
    (power : left.poweredOff = host.screen.poweredOff) : Kept { host with screen := left } := by
  refine ⟨?_, kept.handled.shrink outputs, ?_⟩
  · intro other was
    rw [Covered, power]
    exact kept.covered other was
  · rw [power]
    exact kept.restored

/-- Privacy is recorded for a display that is covered. -/
theorem Kept.recordPrivacy (handled : host.Handled)
    (covered : ∀ other, other ≠ display → host.states.lookup other = some .privacy →
      host.Covered other) (now : host.Covered display) :
    (record display .privacy (.ok (), host)).Kept := by
  refine ⟨?_, ⟨handled.named, handled.distinct, handled.live⟩, ?_⟩
  · intro other was
    rw [record, AList.lookup_insert_ite] at was
    split at was
    · rw [‹other = display›]
      exact now
    · exact covered other ‹_› was
  · intro all
    cases (others_active all).1

theorem Kept.setPrivacy (kept : host.Kept) {commands : Commands}
    (careful : host.Coverable fallback display commands) :
    (record display .privacy (host.setPrivacy fallback display commands)).Kept := by
  rw [DisplayHost.setPrivacy]
  split
  · exact kept
  · rename_i displays enumerated
    split
    · exact kept
    · rename_i listed
      have lists : commands.lists display = true := by
        rw [Commands.lists, enumerated]
        exact List.contains_iff_mem.mpr (not_not.mp listed)
      split
      · rename_i mapped
        refine Kept.recordPrivacy kept.handled (fun other _ => kept.covered other) ?_
        obtain covered | ⟨unmapped, -⟩ := careful lists
        · exact covered
        · rw [unmapped] at mapped
          cases mapped
      · rename_i unmapped
        have unused : host.virtualDisplays.lookup display = none :=
          Option.not_isSome_iff_eq_none.mp unmapped
        obtain ⟨created, made, makes, outputs, power⟩ |
            ⟨uncreated, e, left, fails, outputs, power⟩ :=
          tryCreateVkmsDisplay_cases host.screen ("VKMS-" ++ toString display) commands
        · rw [makes]
          refine Kept.recordPrivacy (kept.handled.insert unused outputs) ?_ ?_
          · intro other _ was
            show made.poweredOff = true ∨ _
            rw [power, Bool.or_eq_true]
            exact (kept.covered other was).imp_left .inr
          · show made.poweredOff = true ∨ _
            rw [power, Bool.or_eq_true]
            obtain covered | ⟨-, off⟩ := careful lists
            · exact covered.imp_left .inr
            · rw [if_pos created] at off
              exact .inl (.inl off)
        · rw [fails]
          dsimp only
          have failed := kept.fail outputs power
          split
          · refine Kept.recordPrivacy ⟨failed.handled.named, failed.handled.distinct,
              failed.handled.live⟩ (fun other _ => failed.covered other) ?_
            show left.poweredOff = true ∨ _
            rw [power]
            obtain covered | ⟨-, without⟩ := careful lists
            · exact covered
            · rw [uncreated, if_neg Bool.false_ne_true, ‹fallback = true›] at without
              cases without
          · exact failed

theorem Kept.createVirtualDisplay (kept : host.Kept) {name : String} {commands : Commands}
    (careful : Careful fallback host (.createVirtualDisplay name commands)) :
    (host.createVirtualDisplay name commands).2.Kept := by
  obtain ⟨created, made, makes, outputs, power⟩ | ⟨-, e, left, fails, outputs, power⟩ :=
    tryCreateVkmsDisplay_cases host.screen name commands
  · rw [DisplayHost.createVirtualDisplay, makes]
    obtain ⟨busy, unused⟩ := careful created
    refine ⟨?_, kept.handled.insert unused outputs, fun all => absurd all busy⟩
    intro other was
    show made.poweredOff = true ∨ _
    rw [power, Bool.or_eq_true]
    exact (kept.covered other was).imp_left .inr
  · rw [DisplayHost.createVirtualDisplay, fails]
    exact kept.fail outputs power

theorem Kept.destroyVirtualDisplay (kept : host.Kept) {commands : Commands}
    (careful : Careful fallback host (.destroyVirtualDisplay display commands)) :
    (host.destroyVirtualDisplay display commands).2.Kept := by
  rw [DisplayHost.destroyVirtualDisplay]
  split
  · rename_i outputName found
    refine ⟨?_, ?_, ?_⟩
    · intro other was
      show (destroyVkmsDisplay host.screen outputName commands).poweredOff = true ∨ _
      rw [Screen.poweredOff_destroy]
      exact kept.covered other was
    · apply kept.handled.remove
      intro other member
      obtain ⟨before, different⟩ :=
        Screen.mem_outputs_destroy (careful (by rw [found]; rfl)) member
      refine ⟨before, fun same => different ?_⟩
      exact (Option.some.inj (found.symm.trans same)).symm
    · intro all
      have unused := (kept.restored all).2.2.2 display
      rw [found] at unused
      cases unused
  · exact kept

theorem Kept.runShow (kept : host.Kept) {index : Nat} (found : host.showing[index]? = some display)
    (opens : Bool) :
    ({ host with showing := host.showing.eraseIdx index }.runShow display opens).Kept := by
  refine ⟨?_, ⟨kept.handled.named, kept.handled.distinct, kept.handled.live⟩, ?_⟩
  · intro other was
    obtain off | covered := kept.covered other was
    · exact .inl off
    · exact .inr (BlankOverlayManager.window_showOn covered display opens)
  · intro all
    rw [(kept.restored all).2.2.1] at found
    cases found

theorem Kept.step (kept : host.Kept) (careful : Careful fallback host call)
    (stepped : host.step fallback call = some next) : next.Kept := by
  cases call with
  | setDisplayState display state commands =>
      obtain rfl := Option.some.inj stepped
      cases state with
      | active => exact kept.setActive careful
      | privacy => exact kept.setPrivacy careful
      | blanked => exact kept.blank
  | createVirtualDisplay name commands =>
      obtain rfl := Option.some.inj stepped
      exact kept.createVirtualDisplay careful
  | destroyVirtualDisplay display commands =>
      obtain rfl := Option.some.inj stepped
      exact kept.destroyVirtualDisplay careful
  | shows index opens =>
      obtain ⟨display, found, rfl⟩ := Option.map_eq_some_iff.mp stepped
      exact kept.runShow found opens
  | connects | disconnects =>
      obtain rfl := Option.some.inj stepped
      exact ⟨kept.covered, ⟨kept.handled.named, kept.handled.distinct, kept.handled.live⟩,
        kept.restored⟩

theorem kept_start : ({} : DisplayHost).Kept := by
  refine ⟨?_, ⟨?_, List.nodup_nil, ?_⟩, fun _ => ⟨rfl, rfl, rfl, fun _ => rfl⟩⟩
  · intro display was
    cases was
  · intro outputName member
    cases member
  · intro display member
    cases member

/-! ## Runs -/

/-- In a run whose calls are all careful, the privacy of each display is its own. -/
theorem independent_of_careful (fallback : Bool) (calls : List DisplayCall)
    (careful : Stepping.Meets (step fallback) (Careful fallback) {} calls) (host : DisplayHost)
    (ran : Stepping.run (step fallback) {} calls = some host) : host.Independent := by
  have kept : host.Kept :=
    careful.invariant (fun kept careful stepped => kept.step careful stepped) kept_start ran
  exact kept.independent

end DisplayHost

/-! ## Two displays -/

namespace Sample

open DisplayHost

/-- Two displays into privacy mode and back, with a virtual display in between. -/
def inAndOut : List DisplayCall :=
  [.setDisplayState 0 .privacy {}, .createVirtualDisplay "" {},
    .destroyVirtualDisplay (displayIdOf "VKMS-1") {}, .setDisplayState 0 .active {},
    .setDisplayState 1 .privacy {}, .setDisplayState 1 .active {}]

/-- The second display becomes active while the first is in privacy mode. -/
def otherActive : List DisplayCall :=
  [.setDisplayState 0 .privacy {}, .setDisplayState 1 .privacy {}, .setDisplayState 1 .active {}]

theorem inAndOut_independent : ∃ host, Stepping.run (step true) {} inAndOut = some host ∧
    host.AllActive ∧ host.Independent := by
  have returns : (Stepping.run (step true) {} inAndOut).any
      (fun host => decide host.AllActive) = true := by decide +kernel
  obtain ⟨host, ran, all⟩ := (Option.any_eq_true _ _).mp returns
  exact ⟨host, ran, of_decide_eq_true all,
    independent_of_careful true inAndOut (by decide +kernel) host ran⟩

theorem otherActive_not_independent : ¬ ∀ (fallback : Bool) (calls : List DisplayCall) host,
    Stepping.run (step fallback) {} calls = some host → host.Independent := by
  intro always
  have exposes : (Stepping.run (step true) {} otherActive).any (fun host =>
      decide (host.states.lookup 0 = some .privacy) && !decide (host.Covered 0)) = true := by
    decide
  obtain ⟨host, ran, exposed⟩ := (Option.any_eq_true _ _).mp exposes
  rw [Bool.and_eq_true, decide_eq_true_eq, Bool.not_eq_true', decide_eq_false_iff_not] at exposed
  exact exposed.2 ((always true otherActive host ran).covered 0 exposed.1)

end Sample

end Qubox.Host
