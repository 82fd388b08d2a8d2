import Mathlib.Data.List.AList

/-!
# Finite tables

Association lists with one value type, seen through `lookup`. Mathlib's `AList`
keeps the keys distinct; this file adds the operations of a hash map that it
lacks (`retain`, `values`, `adjust`, `mapValues`) and states every operation as
an equation for `lookup`, so that proofs about tables never look at the order of
entries.
-/

namespace AList

universe u v

variable {α : Type u} {β : Type v} [DecidableEq α]

theorem lookup_insert_ite (m : AList (fun _ : α => β)) (k k' : α) (v : β) :
    (m.insert k v).lookup k' = if k' = k then some v else m.lookup k' := by
  by_cases h : k' = k
  · subst h
    simp
  · rw [if_neg h, lookup_insert_ne h]

theorem lookup_erase_ite (m : AList (fun _ : α => β)) (k k' : α) :
    (m.erase k).lookup k' = if k' = k then none else m.lookup k' := by
  by_cases h : k' = k
  · subst h
    simp
  · rw [if_neg h, lookup_erase_ne h]

/-- Keep the entries that satisfy `keep`, as `retain` on a hash map. -/
def retain (keep : α → β → Bool) (m : AList (fun _ : α => β)) : AList (fun _ : α => β) where
  entries := m.entries.filter (fun e => keep e.1 e.2)
  nodupKeys := m.nodupKeys.sublist List.filter_sublist

theorem lookup_retain_eq_some {keep : α → β → Bool} {m : AList (fun _ : α => β)} {k : α} {v : β} :
    (m.retain keep).lookup k = some v ↔ m.lookup k = some v ∧ keep k v = true := by
  rw [← Option.mem_def, ← Option.mem_def, mem_lookup_iff, mem_lookup_iff]
  simp [retain, List.mem_filter]

/-- Change the value under a key, if there is one. -/
def adjust (m : AList (fun _ : α => β)) (k : α) (f : β → β) : AList (fun _ : α => β) :=
  match m.lookup k with
  | some v => m.insert k (f v)
  | none => m

theorem lookup_adjust (m : AList (fun _ : α => β)) (k k' : α) (f : β → β) :
    (m.adjust k f).lookup k' = if k' = k then (m.lookup k).map f else m.lookup k' := by
  cases found : m.lookup k with
  | none =>
      simp only [adjust, found, Option.map_none]
      by_cases h : k' = k
      · rw [if_pos h, h, found]
      · rw [if_neg h]
  | some v => simp only [adjust, found, lookup_insert_ite, Option.map_some]

/-- Another value under every key. -/
def mapValues {γ : Type v} (f : β → γ) (m : AList (fun _ : α => β)) : AList (fun _ : α => γ) where
  entries := m.entries.map (Sigma.map id fun _ => f)
  nodupKeys := by
    rw [List.NodupKeys, List.keys, List.map_map]
    exact m.nodupKeys

theorem lookup_mapValues {γ : Type v} (f : β → γ) (m : AList (fun _ : α => β)) (k : α) :
    (m.mapValues f).lookup k = (m.lookup k).map f :=
  List.dlookup_map₂ k

/-- The values in the order of the entries. -/
def values (m : AList (fun _ : α => β)) : List β := m.entries.map Sigma.snd

theorem mem_values {m : AList (fun _ : α => β)} {v : β} :
    v ∈ m.values ↔ ∃ k, m.lookup k = some v := by
  simp only [values, List.mem_map]
  constructor
  · rintro ⟨⟨k, w⟩, member, rfl⟩
    exact ⟨k, mem_lookup_iff.mpr member⟩
  · rintro ⟨k, found⟩
    exact ⟨⟨k, v⟩, mem_lookup_iff.mp found, rfl⟩

/-- The entries under one key. -/
theorem filter_entries (m : AList (fun _ : α => β)) (k : α) :
    (m.entries.filter fun e => decide (e.1 = k)) =
      (m.lookup k).toList.map (Sigma.mk (β := fun _ => β) k) := by
  suffices ∀ l : List (Sigma fun _ : α => β), l.NodupKeys →
      (l.filter fun e => decide (e.1 = k)) =
        (l.dlookup k).toList.map (Sigma.mk (β := fun _ => β) k) from
    this m.entries m.nodupKeys
  intro l distinct
  induction l with
  | nil => rfl
  | cons e l ih =>
      obtain ⟨k', v⟩ := e
      obtain ⟨fresh, distinct⟩ := List.nodupKeys_cons.mp distinct
      by_cases same : k' = k
      · subst same
        rw [List.filter_cons_of_pos (by simp), ih distinct, List.dlookup_eq_none.mpr fresh,
          List.dlookup_cons_eq]
        rfl
      · rw [List.filter_cons_of_neg (by simpa using same), ih distinct,
          List.dlookup_cons_ne l (⟨k', v⟩ : Sigma fun _ => β) (Ne.symm same)]

theorem filter_keys (m : AList (fun _ : α => β)) (k : α) :
    (m.keys.filter fun k' => decide (k' = k)) = ((m.lookup k).map fun _ => k).toList := by
  change (m.entries.map Sigma.fst).filter _ = _
  rw [List.filter_map]
  simp only [Function.comp_def]
  rw [filter_entries, List.map_map]
  cases m.lookup k <;> rfl

end AList
