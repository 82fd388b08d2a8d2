import Mathlib.Data.List.Sort
import Mathlib.Data.String.Basic

/-!
# JSON values

A value of JSON over an arbitrary type of numbers. An object is a list of entries,
in the order in which a map yields them; `Permuted` relates values that differ
only in that order, at any depth, and `sorted` picks one value of each class by
sorting the entries of every object by their keys. With distinct keys there is
one way to do so, hence `sorted` decides `Permuted`.
-/

inductive JsonValue (N : Type) where
  | null
  | bool (value : Bool)
  | number (value : N)
  | string (value : String)
  | array (items : List (JsonValue N))
  | object (entries : List (String × JsonValue N))

namespace JsonValue

variable {N : Type}

/-- Induction over the items of arrays and the entries of objects. -/
@[elab_as_elim]
theorem nested_induction {motive : JsonValue N → Prop} (null : motive .null)
    (bool : ∀ b, motive (.bool b)) (number : ∀ n, motive (.number n))
    (string : ∀ s, motive (.string s))
    (array : ∀ items, (∀ v ∈ items, motive v) → motive (.array items))
    (object : ∀ entries, (∀ e ∈ entries, motive e.2) → motive (.object entries)) :
    ∀ v, motive v
  | .null => null
  | .bool b => bool b
  | .number n => number n
  | .string s => string s
  | .array items => array items fun v member => by
      have smaller := List.sizeOf_lt_of_mem member
      exact nested_induction null bool number string array object v
  | .object entries => object entries fun e member => by
      have smaller := List.sizeOf_lt_of_mem member
      have parts : sizeOf e.2 < sizeOf e := by
        cases e
        simp
      exact nested_induction null bool number string array object e.2
termination_by v => sizeOf v

/-! ## Depth and keys -/

mutual

/-- How deep arrays and objects are nested in each other. -/
def depth : JsonValue N → Nat
  | .array items => depthAll items + 1
  | .object entries => depthEntries entries + 1
  | _ => 0

def depthAll : List (JsonValue N) → Nat
  | [] => 0
  | v :: items => max v.depth (depthAll items)

def depthEntries : List (String × JsonValue N) → Nat
  | [] => 0
  | (_, v) :: entries => max v.depth (depthEntries entries)

end

theorem depthAll_le {items : List (JsonValue N)} {n : Nat} :
    depthAll items ≤ n ↔ ∀ v ∈ items, v.depth ≤ n := by
  induction items with
  | nil => simp [depthAll]
  | cons v items ih => rw [depthAll, Nat.max_le, ih, List.forall_mem_cons]

theorem depthEntries_le {entries : List (String × JsonValue N)} {n : Nat} :
    depthEntries entries ≤ n ↔ ∀ e ∈ entries, e.2.depth ≤ n := by
  induction entries with
  | nil => simp [depthEntries]
  | cons e entries ih => rw [depthEntries, Nat.max_le, ih, List.forall_mem_cons]

mutual

/-- No object in the value has a key twice. -/
def Distinct : JsonValue N → Prop
  | .array items => DistinctAll items
  | .object entries => (entries.map Prod.fst).Nodup ∧ DistinctEntries entries
  | _ => True

def DistinctAll : List (JsonValue N) → Prop
  | [] => True
  | v :: items => v.Distinct ∧ DistinctAll items

def DistinctEntries : List (String × JsonValue N) → Prop
  | [] => True
  | (_, v) :: entries => v.Distinct ∧ DistinctEntries entries

end

theorem distinct_array {items : List (JsonValue N)} :
    (array items).Distinct ↔ ∀ v ∈ items, v.Distinct := by
  rw [Distinct]
  induction items with
  | nil => simp [DistinctAll]
  | cons v items ih => rw [DistinctAll, ih, List.forall_mem_cons]

theorem distinct_object {entries : List (String × JsonValue N)} :
    (object entries).Distinct ↔
      (entries.map Prod.fst).Nodup ∧ ∀ e ∈ entries, e.2.Distinct := by
  rw [Distinct]
  apply and_congr_right'
  induction entries with
  | nil => simp [DistinctEntries]
  | cons e entries ih => rw [DistinctEntries, ih, List.forall_mem_cons]

/-! ## Sorting -/

/-- Sort entries by their keys, in the order of code points. -/
def sortKeys {β : Type} (entries : List (String × β)) : List (String × β) :=
  entries.mergeSort fun a b => decide (a.1 ≤ b.1)

mutual

/-- The value with the entries of every object sorted. -/
def sorted : JsonValue N → JsonValue N
  | .array items => .array (sortedAll items)
  | .object entries => .object (sortKeys (sortedEntries entries))
  | v => v

def sortedAll : List (JsonValue N) → List (JsonValue N)
  | [] => []
  | v :: items => v.sorted :: sortedAll items

def sortedEntries : List (String × JsonValue N) → List (String × JsonValue N)
  | [] => []
  | (k, v) :: entries => (k, v.sorted) :: sortedEntries entries

end

theorem sortedAll_eq (items : List (JsonValue N)) : sortedAll items = items.map sorted := by
  induction items with
  | nil => rfl
  | cons v items ih => rw [sortedAll, ih, List.map_cons]

theorem sortedEntries_eq (entries : List (String × JsonValue N)) :
    sortedEntries entries = entries.map (Prod.map id sorted) := by
  induction entries with
  | nil => rfl
  | cons e entries ih => rw [sortedEntries, ih, List.map_cons]; rfl

@[simp] theorem sorted_array (items : List (JsonValue N)) :
    (array items).sorted = .array (items.map sorted) := by
  rw [sorted, sortedAll_eq]

@[simp] theorem sorted_object (entries : List (String × JsonValue N)) :
    (object entries).sorted = .object (sortKeys (entries.map (Prod.map id sorted))) := by
  rw [sorted, sortedEntries_eq]

section SortKeys

variable {β γ : Type}

theorem sortKeys_perm (entries : List (String × β)) : (sortKeys entries).Perm entries :=
  List.mergeSort_perm entries _

theorem mem_sortKeys {entries : List (String × β)} {e : String × β} :
    e ∈ sortKeys entries ↔ e ∈ entries :=
  (sortKeys_perm entries).mem_iff

theorem sortKeys_pairwise (entries : List (String × β)) :
    (sortKeys entries).Pairwise (fun a b => a.1 ≤ b.1) := by
  let before (a b : String × β) : Bool := decide (a.1 ≤ b.1)
  have trans (a b c : String × β) (first : before a b) (second : before b c) : before a c :=
    decide_eq_true (le_trans (of_decide_eq_true first) (of_decide_eq_true second))
  have total (a b : String × β) : before a b || before b a := by
    simpa [before] using le_total a.1 b.1
  have sorted := List.pairwise_mergeSort trans total entries
  exact sorted.imp fun ordered => of_decide_eq_true ordered

/-- With distinct keys the order of the entries is lost. -/
theorem sortKeys_eq_of_perm {entries entries' : List (String × β)}
    (distinct : (entries.map Prod.fst).Nodup) (perm : entries.Perm entries') :
    sortKeys entries = sortKeys entries' := by
  have same : (sortKeys entries).Perm (sortKeys entries') :=
    (sortKeys_perm entries).trans (perm.trans (sortKeys_perm entries').symm)
  refine same.eq_of_pairwise (fun a b memberA memberB before after => ?_)
    (sortKeys_pairwise entries) (sortKeys_pairwise entries')
  have key : a.1 = b.1 := le_antisymm before after
  have memberB' : b ∈ entries := perm.mem_iff.mpr (mem_sortKeys.mp memberB)
  exact List.inj_on_of_nodup_map distinct (mem_sortKeys.mp memberA) memberB' key

theorem sortKeys_map (f : β → γ) (entries : List (String × β)) :
    sortKeys (entries.map (Prod.map id f)) = (sortKeys entries).map (Prod.map id f) :=
  (List.map_mergeSort (f := Prod.map id f) fun _ _ _ _ => rfl).symm

end SortKeys

/-! ## Values up to the order of entries -/

/-- The second value comes from the first by permuting the entries of objects. -/
inductive Permuted : JsonValue N → JsonValue N → Prop
  | refl (v : JsonValue N) : Permuted v v
  | trans {u v w : JsonValue N} : Permuted u v → Permuted v w → Permuted u w
  | entries {before after : List (String × JsonValue N)} : before.Perm after →
      Permuted (.object before) (.object after)
  | item {v w : JsonValue N} (front back : List (JsonValue N)) : Permuted v w →
      Permuted (.array (front ++ v :: back)) (.array (front ++ w :: back))
  | value {v w : JsonValue N} (front : List (String × JsonValue N)) (key : String)
      (back : List (String × JsonValue N)) : Permuted v w →
      Permuted (.object (front ++ (key, v) :: back)) (.object (front ++ (key, w) :: back))

namespace Permuted

theorem symm {v w : JsonValue N} (permuted : Permuted v w) : Permuted w v := by
  induction permuted with
  | refl v => exact .refl v
  | trans _ _ first second => exact second.trans first
  | entries perm => exact .entries perm.symm
  | item front back _ ih => exact ih.item front back
  | value front key back _ ih => exact ih.value front key back

/-- Permuting every item permutes the array. -/
theorem array {f : JsonValue N → JsonValue N} {items : List (JsonValue N)}
    (each : ∀ v ∈ items, Permuted v (f v)) (front : List (JsonValue N)) :
    Permuted (.array (front ++ items)) (.array (front ++ items.map f)) := by
  induction items generalizing front with
  | nil => exact .refl _
  | cons v items ih =>
      have head := (each v List.mem_cons_self).item front items
      have tail := ih (fun w member => each w (List.mem_cons_of_mem v member)) (front ++ [f v])
      rw [List.append_assoc, List.append_assoc] at tail
      exact head.trans tail

/-- Permuting every value permutes the object. -/
theorem object {f : JsonValue N → JsonValue N} {entries : List (String × JsonValue N)}
    (each : ∀ e ∈ entries, Permuted e.2 (f e.2)) (front : List (String × JsonValue N)) :
    Permuted (.object (front ++ entries))
      (.object (front ++ entries.map (Prod.map id f))) := by
  induction entries generalizing front with
  | nil => exact .refl _
  | cons e entries ih =>
      have head := (each e List.mem_cons_self).value front e.1 entries
      have tail := ih (fun w member => each w (List.mem_cons_of_mem e member))
        (front ++ [Prod.map id f e])
      rw [List.append_assoc, List.append_assoc] at tail
      exact head.trans tail

end Permuted

theorem permuted_sorted (v : JsonValue N) : Permuted v v.sorted := by
  induction v using nested_induction with
  | null | bool b | number n | string s => exact .refl _
  | array items ih =>
      rw [sorted_array]
      exact Permuted.array ih []
  | object entries ih =>
      rw [sorted_object]
      exact (Permuted.object ih []).trans (.entries (sortKeys_perm _).symm)

/-- Permuting keeps the keys distinct and the sorted value as it is. -/
theorem Permuted.sorted_eq {v w : JsonValue N} (permuted : Permuted v w) (distinct : v.Distinct) :
    w.Distinct ∧ v.sorted = w.sorted := by
  induction permuted with
  | refl v => exact ⟨distinct, rfl⟩
  | trans _ _ first second =>
      obtain ⟨middle, same⟩ := first distinct
      obtain ⟨last, equal⟩ := second middle
      exact ⟨last, same.trans equal⟩
  | @entries before after perm =>
      obtain ⟨keys, values⟩ := distinct_object.mp distinct
      refine ⟨distinct_object.mpr ⟨(perm.map Prod.fst).nodup_iff.mp keys,
        fun e member => values e (perm.mem_iff.mpr member)⟩, ?_⟩
      rw [sorted_object, sorted_object, sortKeys_map, sortKeys_map,
        sortKeys_eq_of_perm keys perm]
  | @item v w front back _ ih =>
      have each := distinct_array.mp distinct
      obtain ⟨last, same⟩ := ih (each v (List.mem_append_right _ List.mem_cons_self))
      refine ⟨distinct_array.mpr fun u member => ?_, ?_⟩
      · rcases List.mem_append.mp member with early | late
        · exact each u (List.mem_append_left _ early)
        · rcases List.mem_cons.mp late with rfl | late
          · exact last
          · exact each u (List.mem_append_right _ (List.mem_cons_of_mem _ late))
      · rw [sorted_array, sorted_array, List.map_append, List.map_append, List.map_cons,
          List.map_cons, same]
  | @value v w front key back _ ih =>
      obtain ⟨keys, values⟩ := distinct_object.mp distinct
      obtain ⟨last, same⟩ := ih (values (key, v) (List.mem_append_right _ List.mem_cons_self))
      refine ⟨distinct_object.mpr ⟨?_, fun e member => ?_⟩, ?_⟩
      · rw [List.map_append, List.map_cons] at keys ⊢
        exact keys
      · rcases List.mem_append.mp member with early | late
        · exact values e (List.mem_append_left _ early)
        · rcases List.mem_cons.mp late with rfl | late
          · exact last
          · exact values e (List.mem_append_right _ (List.mem_cons_of_mem _ late))
      · rw [sorted_object, sorted_object, List.map_append, List.map_append, List.map_cons,
          List.map_cons, Prod.map_apply, Prod.map_apply, same]

theorem distinct_sorted {v : JsonValue N} (distinct : v.Distinct) : v.sorted.Distinct :=
  ((permuted_sorted v).sorted_eq distinct).1

/-- Sorting twice is sorting once. -/
theorem sorted_sorted {v : JsonValue N} (distinct : v.Distinct) : v.sorted.sorted = v.sorted :=
  ((permuted_sorted v).sorted_eq distinct).2.symm

theorem permuted_of_sorted_eq {v w : JsonValue N} (same : v.sorted = w.sorted) : Permuted v w := by
  have forth := permuted_sorted v
  rw [same] at forth
  exact forth.trans (permuted_sorted w).symm

theorem depth_sorted_le {v : JsonValue N} {n : Nat} : v.sorted.depth ≤ n ↔ v.depth ≤ n := by
  induction v using nested_induction generalizing n with
  | null | bool b | number k | string s => exact Iff.rfl
  | array items ih =>
      rw [sorted_array, depth, depth]
      cases n with
      | zero => exact iff_of_false (Nat.not_succ_le_zero _) (Nat.not_succ_le_zero _)
      | succ n =>
          rw [Nat.succ_le_succ_iff, Nat.succ_le_succ_iff, depthAll_le, depthAll_le,
            List.forall_mem_map]
          exact forall₂_congr fun v member => ih v member
  | object entries ih =>
      rw [sorted_object, depth, depth]
      cases n with
      | zero => exact iff_of_false (Nat.not_succ_le_zero _) (Nat.not_succ_le_zero _)
      | succ n =>
          rw [Nat.succ_le_succ_iff, Nat.succ_le_succ_iff, depthEntries_le, depthEntries_le]
          refine Iff.trans ?_ (forall₂_congr fun e member => ih e member)
          constructor
          · intro each e member
            exact each (Prod.map id sorted e) (mem_sortKeys.mpr (List.mem_map_of_mem member))
          · intro each f member
            obtain ⟨e, original, rfl⟩ := List.mem_map.mp (mem_sortKeys.mp member)
            exact each e original

end JsonValue
