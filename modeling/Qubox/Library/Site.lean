import Qubox.Library.Pool

/-!
# Programs at a site

Several copies of a machine, one at each site, may share part of their state.
An action of the whole is an action of one copy together with its site, and a
program of a copy becomes a program of the whole by naming its site in every
action. Contracts carry over: nothing that is known about a program has to be
proved again for the site it runs at.
-/

namespace Interaction

variable {S : Signature} {ι ε α : Type}

/-- The actions of all copies, each with its site. -/
@[reducible] def Signature.sited (S : Signature) (ι : Type) : Signature where
  Action := ι × S.Action
  Answer := fun a => S.Answer a.2

/-- The event as the whole sees it. -/
def Event.sited (i : ι) (e : Event S) : Event (S.sited ι) := ⟨(i, e.action), e.answer⟩

namespace Program

def sited (i : ι) : Program S ε α → Program (S.sited ι) ε α
  | .done a => .done a
  | .fail e => .fail e
  | .act a k => .act (i, a) (fun r => (k r).sited i)

theorem upholds_sited {i : ι} {assume : (a : ι × S.Action) → S.Answer a.2 → Prop}
    {ensure : ι × S.Action → Prop} {post : α → Prop} {p : Program S ε α} :
    (p.sited i).Upholds assume ensure post ↔
      p.Upholds (fun a => assume (i, a)) (fun a => ensure (i, a)) post := by
  induction p with
  | done a | fail e => exact Iff.rfl
  | act a k ih => exact and_congr Iff.rfl (forall_congr' fun r => imp_congr Iff.rfl (ih r))

/-- A cause that speaks of the program's own events speaks of the events at its
site when the program runs there. -/
theorem Justified.sited {cause : (Event S → Prop) → S.Action → Prop} {i : ι}
    (mono : ∀ seen known a, (∀ e, seen e → known e) → cause seen a → cause known a)
    {p : Program S ε α} {own : List (Event S)} {past : List (Event (S.sited ι))}
    (h : p.Justified (fun own a => cause (fun e => e ∈ own) a) (fun _ _ => True) own)
    (shared : ∀ e ∈ own, e.sited i ∈ past) :
    (p.sited i).Justified (fun past (a : ι × S.Action) =>
      a.1 = i ∧ cause (fun e => e.sited i ∈ past) a.2) (fun _ _ => True) past := by
  induction p generalizing own past with
  | done a | fail e => trivial
  | act a k ih =>
      refine ⟨⟨rfl, mono _ _ a shared h.1⟩, fun r => ih r (h.2 r) fun e member => ?_⟩
      rcases List.mem_append.mp member with before | now
      · exact List.mem_append_left _ (shared e before)
      · rw [List.mem_singleton.mp now]
        exact List.mem_append_right _ (List.mem_singleton.mpr rfl)

theorem Passes.sited {i : ι} {mark : Event (S.sited ι) → Prop}
    {after : Program (S.sited ι) ε α → Prop} {p : Program S ε α}
    (h : p.Passes (fun e => mark (e.sited i)) (fun rest => after (rest.sited i))) :
    (p.sited i).Passes mark after := by
  induction p with
  | done a => exact h.elim
  | fail e => trivial
  | act a k ih => exact fun r => ⟨(h r).1, fun unmarked => ih r ((h r).2 unmarked)⟩

end Program

end Interaction
