import Qubox.Library.Interaction

/-!
# What a failure is due to

`Runs` is a completed run of a program against answers of any kind, as a trace of
events. A program that `FailsAfter` faults fails only when there was one. Of events that
make it give up at once (`GivesUpOn`), the trace says exactly whether one of them is why
the program failed. The contracts of a program hold of each of its runs.
-/

namespace Interaction

namespace Program

variable {S : Signature} {ε α β : Type}

/-- A completed run: its events and its result. -/
inductive Runs : Program S ε α → List (Event S) → Except ε α → Prop where
  | done (a : α) : Runs (.done a) [] (.ok a)
  | fail (e : ε) : Runs (.fail e) [] (.error e)
  | act {a : S.Action} {k : S.Answer a → Program S ε α} {r : S.Answer a} {events : List (Event S)}
      {result : Except ε α} (rest : Runs (k r) events result) :
      Runs (.act a k) (⟨a, r⟩ :: events) result

theorem bind_assoc {γ : Type} (p : Program S ε α) (f : α → Program S ε β) (g : β → Program S ε γ) :
    (p >>= f) >>= g = p >>= fun a => f a >>= g := by
  induction p with
  | done a | fail e => rfl
  | act a k ih => exact congrArg (Program.act a) (funext ih)

/-- Without a fault the program does not fail. -/
def FailsAfter (fault : Event S → Prop) : Program S ε α → Prop
  | .done _ => True
  | .fail _ => False
  | .act a k => ∀ r, ¬ fault ⟨a, r⟩ → (k r).FailsAfter fault

/-- No event of the program is one of these. -/
def Spares (bad : Event S → Prop) (p : Program S ε α) : Prop :=
  p.Upholds (fun _ _ => True) (fun a => ∀ r, ¬ bad ⟨a, r⟩) fun _ => True

/-- Such an event is the last one and the program fails, and after a fault there is none. -/
def GivesUpOn (bad fault : Event S → Prop) : Program S ε α → Prop
  | .done _ => True
  | .fail _ => True
  | .act a k => ∀ r, (bad ⟨a, r⟩ → ∃ e, k r = .fail e) ∧ (fault ⟨a, r⟩ → (k r).Spares bad) ∧
      (k r).GivesUpOn bad fault

section

variable {bad fault : Event S → Prop}

@[simp] theorem failsAfter_done (a : α) : (.done a : Program S ε α).FailsAfter fault ↔ True := Iff.rfl

@[simp] theorem failsAfter_fail (e : ε) : (.fail e : Program S ε α).FailsAfter fault ↔ False := Iff.rfl

@[simp] theorem failsAfter_act (a : S.Action) (k : S.Answer a → Program S ε α) :
    (Program.act a k).FailsAfter fault ↔ ∀ r, ¬ fault ⟨a, r⟩ → (k r).FailsAfter fault := Iff.rfl

theorem FailsAfter.bind {p : Program S ε α} {f : α → Program S ε β} (first : p.FailsAfter fault)
    (rest : ∀ a, (f a).FailsAfter fault) : (p >>= f).FailsAfter fault := by
  induction p with
  | done a => exact rest a
  | fail e => exact first
  | act a k ih => exact fun r blameless => ih r (first r blameless)

@[simp] theorem spares_done (a : α) : (.done a : Program S ε α).Spares bad ↔ True := Iff.rfl

@[simp] theorem spares_fail (e : ε) : (.fail e : Program S ε α).Spares bad ↔ True := Iff.rfl

@[simp] theorem spares_act (a : S.Action) (k : S.Answer a → Program S ε α) :
    (Program.act a k).Spares bad ↔ (∀ r, ¬ bad ⟨a, r⟩) ∧ ∀ r, (k r).Spares bad := by
  constructor
  · intro spares
    exact ⟨spares.1, fun r => spares.2 r trivial⟩
  · intro spares
    exact ⟨spares.1, fun r _ => spares.2 r⟩

theorem Spares.bind {p : Program S ε α} {f : α → Program S ε β} (first : p.Spares bad)
    (rest : ∀ a, (f a).Spares bad) : (p >>= f).Spares bad :=
  Upholds.bind first fun a _ => rest a

theorem Spares.givesUpOn {p : Program S ε α} (spares : p.Spares bad) : p.GivesUpOn bad fault := by
  induction p with
  | done a | fail e => trivial
  | act a k ih =>
      intro r
      exact ⟨fun bad => absurd bad (spares.1 r), fun _ => spares.2 r trivial,
        ih r (spares.2 r trivial)⟩

/-- A first part without such events and without faults. -/
theorem Spares.bind_givesUpOn {p : Program S ε α} {f : α → Program S ε β}
    (first : p.Spares fun event => bad event ∨ fault event)
    (rest : ∀ a, (f a).GivesUpOn bad fault) : (p >>= f).GivesUpOn bad fault := by
  induction p with
  | done a => exact rest a
  | fail e => trivial
  | act a k ih =>
      intro r
      have spared := not_or.mp (first.1 r)
      exact ⟨fun event => absurd event spared.1, fun event => absurd event spared.2,
        ih r (first.2 r trivial)⟩

/-- A rest without such events. -/
theorem GivesUpOn.bind_spares {p : Program S ε α} {f : α → Program S ε β}
    (first : p.GivesUpOn bad fault) (rest : ∀ a, (f a).Spares bad) :
    (p >>= f).GivesUpOn bad fault := by
  induction p with
  | done a => exact (rest a).givesUpOn
  | fail e => trivial
  | act a k ih =>
      intro r
      obtain ⟨stops, spares, later⟩ := first r
      refine ⟨fun event => ?_, fun event => (spares event).bind rest, ih r later⟩
      obtain ⟨e, failed⟩ := stops event
      exact ⟨e, by change k r >>= f = _; rw [failed]; rfl⟩

theorem Runs.faulted {p : Program S ε α} {events : List (Event S)} {result : Except ε α} {e : ε}
    (runs : p.Runs events result) (fails : p.FailsAfter fault) (failed : result = .error e) :
    ∃ event ∈ events, fault event := by
  induction runs with
  | done a => cases failed
  | fail e => exact fails.elim
  | @act a k r events result rest ih =>
      by_cases blame : fault ⟨a, r⟩
      · exact ⟨_, List.mem_cons_self, blame⟩
      · obtain ⟨event, member, blame⟩ := ih (fails r blame) failed
        exact ⟨event, .tail _ member, blame⟩

theorem Runs.spares {p : Program S ε α} {events : List (Event S)} {result : Except ε α}
    (runs : p.Runs events result) (spares : p.Spares bad) : ∀ event ∈ events, ¬ bad event := by
  induction runs with
  | done a | fail e => exact fun _ member => absurd member List.not_mem_nil
  | @act a k r events result rest ih =>
      intro event member
      obtain rfl | later := List.mem_cons.mp member
      · exact spares.1 r
      · exact ih (spares.2 r trivial) event later

theorem Runs.givesUp {p : Program S ε α} {events : List (Event S)} {result : Except ε α}
    (apart : ∀ event, bad event → ¬ fault event) (runs : p.Runs events result)
    (gives : p.GivesUpOn bad fault) (there : ∃ event ∈ events, bad event) :
    (∃ e, result = .error e) ∧ ∀ event ∈ events, ¬ fault event := by
  induction runs with
  | done a | fail e => obtain ⟨event, member, -⟩ := there; cases member
  | @act a k r events result rest ih =>
      obtain ⟨stops, spares, later⟩ := gives r
      by_cases here : bad ⟨a, r⟩
      · obtain ⟨e, failed⟩ := stops here
        rw [failed] at rest
        cases rest
        refine ⟨⟨e, rfl⟩, fun event member => ?_⟩
        rw [List.mem_singleton.mp member]
        exact apart _ here
      · obtain ⟨event, member, event_bad⟩ := there
        have inside : event ∈ events := by
          refine (List.mem_cons.mp member).resolve_left fun same => ?_
          exact here (same ▸ event_bad)
        obtain ⟨failed, blameless⟩ := ih later ⟨event, inside, event_bad⟩
        refine ⟨failed, fun other member => ?_⟩
        obtain rfl | member := List.mem_cons.mp member
        · intro blame
          exact rest.spares (spares blame) event inside event_bad
        · exact blameless other member

/-- A failure is due to a fault exactly in the runs without an event that makes the program give
up. -/
theorem Runs.due_to_fault_iff {p : Program S ε α} {events : List (Event S)} {result : Except ε α}
    (apart : ∀ event, bad event → ¬ fault event)
    (fails : p.FailsAfter fun event => bad event ∨ fault event) (gives : p.GivesUpOn bad fault)
    (runs : p.Runs events result) :
    ((∃ e, result = .error e) → ∃ event ∈ events, fault event) ↔ ∀ event ∈ events, ¬ bad event := by
  constructor
  · intro due event member event_bad
    obtain ⟨failed, blameless⟩ := runs.givesUp apart gives ⟨event, member, event_bad⟩
    obtain ⟨other, member, blame⟩ := due failed
    exact blameless other member blame
  · rintro none ⟨e, failed⟩
    obtain ⟨event, member, event_bad | blame⟩ := runs.faulted fails failed
    · exact absurd event_bad (none event member)
    · exact ⟨event, member, blame⟩

end

/-! ## Contracts -/

section Contracts

variable {p : Program S ε α} {events : List (Event S)} {result : Except ε α}

theorem Runs.bind {f : α → Program S ε β} {later : List (Event S)} {a : α}
    {answer : Except ε β} (first : p.Runs events (.ok a)) (second : (f a).Runs later answer) :
    (p >>= f).Runs (events ++ later) answer := by
  generalize done : (Except.ok a : Except ε α) = outcome at first
  induction first with
  | done b =>
      obtain rfl := Except.ok.inj done
      exact second
  | fail e => cases done
  | act rest ih => exact .act (ih done)

theorem Runs.attempt {ε' : Type} (runs : p.Runs events result) :
    (p.attempt : Program S ε' (Except ε α)).Runs events (.ok result) := by
  induction runs with
  | done a | fail e => exact .done _
  | act rest ih => exact .act ih

/-- What a run performs and returns, when its answers are as the contract assumes. -/
theorem Runs.upholds {assume : (a : S.Action) → S.Answer a → Prop} {ensure : S.Action → Prop}
    {post : α → Prop} (runs : p.Runs events result) (contract : p.Upholds assume ensure post)
    (answers : ∀ event ∈ events, assume event.action event.answer) :
    (∀ event ∈ events, ensure event.action) ∧ ∀ a, result = .ok a → post a := by
  induction runs with
  | done a =>
      refine ⟨fun event member => absurd member List.not_mem_nil, fun b same => ?_⟩
      obtain rfl := Except.ok.inj same
      exact contract
  | fail e =>
      refine ⟨fun event member => absurd member List.not_mem_nil, fun b same => ?_⟩
      cases same
  | act rest ih =>
      have answer := answers _ (.head _)
      obtain ⟨ensured, returned⟩ :=
        ih (contract.2 _ answer) fun event member => answers event (.tail _ member)
      exact ⟨List.forall_mem_cons.mpr ⟨contract.1, ensured⟩, returned⟩

/-- What a run performs has its cause in what it has performed before. -/
theorem Runs.justified {cause : List (Event S) → S.Action → Prop}
    {post : List (Event S) → α → Prop} {past : List (Event S)} (runs : p.Runs events result)
    (contract : p.Justified cause post past) :
    (∀ before event after, events = before ++ event :: after →
        cause (past ++ before) event.action) ∧
      ∀ a, result = .ok a → post (past ++ events) a := by
  induction runs generalizing past with
  | done a =>
      refine ⟨fun before event after split => ?_, fun b same => ?_⟩
      · cases before <;> cases split
      · rw [List.append_nil]
        exact Except.ok.inj same ▸ contract
  | fail e =>
      refine ⟨fun before event after split => ?_, fun b same => by cases same⟩
      cases before <;> cases split
  | @act a k r events result rest ih =>
      obtain ⟨caused, returned⟩ := ih (contract.2 r)
      refine ⟨fun before event after split => ?_, fun b same => ?_⟩
      · cases before with
        | nil =>
            obtain ⟨rfl, -⟩ := List.cons.inj split
            rw [List.append_nil]
            exact contract.1
        | cons first before =>
            obtain ⟨rfl, tail⟩ := List.cons.inj split
            have cause := caused before event after tail
            rwa [List.append_assoc] at cause
      · have post := returned b same
        rwa [List.append_assoc] at post

theorem upholds_anything {assume : (a : S.Action) → S.Answer a → Prop} (p : Program S ε α) :
    p.Upholds assume (fun _ => True) fun _ => True := by
  induction p with
  | done a | fail e => trivial
  | act a k ih => exact ⟨trivial, fun r _ => ih r⟩

/-- Of an action that a contract allows by what has been answered, the cause has come before it
in every run whose answers are of that kind. -/
theorem Runs.caused {cause : (Event S → Prop) → S.Action → Prop} {kind : Event S → Prop}
    (runs : p.Runs events result) (answers : ∀ event ∈ events, kind event)
    (contract : ∀ seen : Event S → Prop, (∀ event, seen event → kind event) →
      p.Upholds (fun a r => seen ⟨a, r⟩) (cause seen) fun _ => True)
    {before after : List (Event S)} {event : Event S} (split : events = before ++ event :: after) :
    cause (fun earlier => earlier ∈ before) event.action := by
  have justified : p.Justified
      (fun past a => (∀ earlier ∈ past, kind earlier) → cause (fun earlier => earlier ∈ past) a)
      (fun _ _ => True) [] := by
    refine @justified_of_upholds S ε α [] (fun seen a =>
      (∀ earlier, seen earlier → kind earlier) → cause seen a) p fun seen _ => ?_
    by_cases kinds : ∀ earlier, seen earlier → kind earlier
    · exact (contract seen kinds).mono (fun _ _ => id) (fun _ caused _ => caused) fun _ => id
    · exact (upholds_anything p).mono (fun _ _ => id) (fun _ _ all => absurd all kinds) fun _ => id
  refine (runs.justified justified).1 before event after split fun earlier member => ?_
  exact answers earlier (split ▸ List.mem_append_left _ member)

/-- The program has a run that returns this value and whose answers are of this kind. -/
def MayReturn (assume : (a : S.Action) → S.Answer a → Prop) (p : Program S ε α) (value : α) :
    Prop :=
  ∃ events, p.Runs events (.ok value) ∧ ∀ event ∈ events, assume event.action event.answer

variable {assume : (a : S.Action) → S.Answer a → Prop}

theorem mayReturn_done (a : α) : (.done a : Program S ε α).MayReturn assume a :=
  ⟨[], .done a, fun _ member => absurd member List.not_mem_nil⟩

theorem MayReturn.act {a : S.Action} {k : S.Answer a → Program S ε α} {value : α} (r : S.Answer a)
    (answered : assume a r) (rest : (k r).MayReturn assume value) :
    (Program.act a k).MayReturn assume value := by
  obtain ⟨events, runs, answers⟩ := rest
  exact ⟨⟨a, r⟩ :: events, .act runs, List.forall_mem_cons.mpr ⟨answered, answers⟩⟩

theorem MayReturn.bind {f : α → Program S ε β} {a : α} {b : β} (first : p.MayReturn assume a)
    (rest : (f a).MayReturn assume b) : (p >>= f).MayReturn assume b := by
  obtain ⟨events, runs, answers⟩ := first
  obtain ⟨later, second, answered⟩ := rest
  refine ⟨events ++ later, runs.bind second, fun event member => ?_⟩
  exact (List.mem_append.mp member).elim (answers event) (answered event)

theorem MayReturn.attempt {ε' : Type} {a : α} (returns : p.MayReturn assume a) :
    (p.attempt : Program S ε' (Except ε α)).MayReturn assume (.ok a) := by
  obtain ⟨events, runs, answers⟩ := returns
  exact ⟨events, runs.attempt, answers⟩

end Contracts

end Program

end Interaction
