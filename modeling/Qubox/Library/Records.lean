import Mathlib.Data.List.Sort
import Mathlib.Data.String.Basic
import Qubox.Library.Table

/-!
# Tables of records

A record is stored under a key that is one of its own fields. The table keeps
this as an invariant, so that looking for the record with a key in the list of
all records and asking for that key come to the same. The list is in the order
of the keys.
-/

structure Records (β : Type) (key : β → String) where
  table : AList (fun _ : String => β)
  keyed : ∀ k record, table.lookup k = some record → key record = k

namespace Records

variable {β : Type} {key : β → String}

def empty : Records β key := ⟨∅, fun k record found => by simp at found⟩

def get (t : Records β key) (k : String) : Option β := t.table.lookup k

def put (t : Records β key) (record : β) : Records β key where
  table := t.table.insert (key record) record
  keyed := by
    intro k other found
    rw [AList.lookup_insert_ite] at found
    split at found
    case isTrue same =>
      obtain rfl := Option.some.inj found
      exact same.symm
    case isFalse => exact t.keyed k other found

def remove (t : Records β key) (k : String) : Records β key where
  table := t.table.erase k
  keyed := by
    intro k' other found
    rw [AList.lookup_erase_ite] at found
    split at found
    case isTrue => cases found
    case isFalse => exact t.keyed k' other found

/-- All records, in the order of their keys. -/
def list (t : Records β key) : List β :=
  (t.table.entries.insertionSort fun a b => a.1 ≤ b.1).map Sigma.snd

theorem key_of_get {t : Records β key} {k : String} {record : β} (found : t.get k = some record) :
    key record = k :=
  t.keyed k record found

@[simp] theorem get_put (t : Records β key) (record : β) (k : String) :
    (t.put record).get k = if k = key record then some record else t.get k :=
  AList.lookup_insert_ite t.table (key record) k record

@[simp] theorem get_remove (t : Records β key) (k k' : String) :
    (t.remove k).get k' = if k' = k then none else t.get k' :=
  AList.lookup_erase_ite t.table k k'

@[simp] theorem get_empty (k : String) : (empty : Records β key).get k = none :=
  AList.lookup_empty k

theorem mem_list {t : Records β key} {record : β} :
    record ∈ t.list ↔ t.get (key record) = some record := by
  have sorted : ∀ e, e ∈ t.table.entries.insertionSort (fun a b => a.1 ≤ b.1) ↔
      e ∈ t.table.entries := fun e => List.mem_insertionSort _
  simp only [list, List.mem_map, sorted]
  constructor
  · rintro ⟨⟨k, record⟩, member, rfl⟩
    have found : t.get k = some record := AList.mem_lookup_iff.mpr member
    rwa [key_of_get found]
  · intro found
    exact ⟨⟨_, record⟩, AList.mem_lookup_iff.mp found, rfl⟩

/-- Searching all records for a key finds the record under that key. -/
theorem find?_list (t : Records β key) (k : String) :
    (t.list.find? fun record => key record = k) = t.get k := by
  cases found : t.list.find? fun record => key record = k with
  | some record =>
      have same : key record = k := by simpa using List.find?_some found
      rw [← same]
      exact (mem_list.mp (List.mem_of_find?_eq_some found)).symm
  | none =>
      symm
      rw [Option.eq_none_iff_forall_ne_some]
      intro record there
      have member := mem_list.mpr ((key_of_get there).symm ▸ there)
      exact List.find?_eq_none.mp found record member (by simp [key_of_get there])

end Records
