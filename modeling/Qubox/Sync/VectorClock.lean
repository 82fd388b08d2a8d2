import Mathlib.Order.Lattice
import Mathlib.Data.List.Dedup
import Qubox.Library.Table

/-!
# Vector clocks

A clock is a finite table of counters. What it means is the function `count`,
which gives zero to nodes without an entry; clocks are compared and merged as
these functions are in the pointwise order. The tables of one function differ
in their zero entries only.
-/

namespace Qubox.Sync

abbrev NodeId := String

structure VectorClock where
  counters : AList (fun _ : NodeId => UInt64)

inductive ClockRelation where
  | ahead
  | behind
  | equal
  | conflict
  deriving DecidableEq, Repr

/-- The relation seen from the other side. -/
def ClockRelation.mirror : ClockRelation → ClockRelation
  | .ahead => .behind
  | .behind => .ahead
  | .equal => .equal
  | .conflict => .conflict

namespace VectorClock

def empty : VectorClock := ⟨∅⟩

def get (clock : VectorClock) (node : NodeId) : UInt64 := (clock.counters.lookup node).getD 0

/-- The nodes with an entry in one of the clocks, each once. -/
def keys (a b : VectorClock) : List NodeId := (a.counters.keys ++ b.counters.keys).dedup

/-- One round of the loop of `compare`: whether a counter of the one clock and
one of the other were greater. -/
def note (a b : VectorClock) (seen : Bool × Bool) (k : NodeId) : Bool × Bool :=
  (seen.1 || decide (b.get k < a.get k), seen.2 || decide (a.get k < b.get k))

def compare (a b : VectorClock) : ClockRelation :=
  match (keys a b).foldl (note a b) (false, false) with
  | (true, false) => .ahead
  | (false, true) => .behind
  | (false, false) => .equal
  | (true, true) => .conflict

/-- The entry of a node, made if it was not there, raised to a value. -/
def raise (clock : VectorClock) (k : NodeId) (v : UInt64) : VectorClock :=
  ⟨clock.counters.insert k (if clock.get k < v then v else clock.get k)⟩

def merge (clock other : VectorClock) : VectorClock :=
  other.counters.entries.foldl (fun clock e => clock.raise e.1 e.2) clock

/-- The addition wraps, as it does without overflow checks. -/
def bump (clock : VectorClock) (node : NodeId) : VectorClock :=
  ⟨clock.counters.insert node (clock.get node + 1)⟩

/-- The counter of every node. -/
def count (clock : VectorClock) (node : NodeId) : Nat := (clock.get node).toNat

/-! ## The order -/

variable (a b c : VectorClock)

theorem note_foldl (nodes : List NodeId) (seen : Bool × Bool) :
    nodes.foldl (note a b) seen =
      (seen.1 || nodes.any fun k => decide (b.get k < a.get k),
        seen.2 || nodes.any fun k => decide (a.get k < b.get k)) := by
  induction nodes generalizing seen with
  | nil => simp
  | cons k nodes ih =>
      rw [List.foldl_cons, ih]
      simp only [note, List.any_cons, Bool.or_assoc]

variable {a b c}

theorem get_of_not_mem {node : NodeId} (absent : node ∉ a.counters.keys) : a.get node = 0 := by
  rw [get, AList.lookup_eq_none.mpr absent, Option.getD_none]

/-- A node where the clocks differ has an entry in one of them. -/
theorem mem_keys_of_lt {node : NodeId} (less : a.get node < b.get node) : node ∈ keys a b := by
  rw [keys, List.mem_dedup, List.mem_append]
  by_contra absent
  rw [not_or] at absent
  rw [get_of_not_mem absent.1, get_of_not_mem absent.2] at less
  exact absurd less (UInt64.lt_irrefl 0)

theorem keys_comm (a b : VectorClock) {node : NodeId} : node ∈ keys a b ↔ node ∈ keys b a := by
  simp only [keys, List.mem_dedup, List.mem_append, or_comm]

/-- The loop finds a greater counter exactly when there is one. -/
theorem any_get_lt : ((keys a b).any fun k => decide (a.get k < b.get k)) = true ↔
    ¬ b.count ≤ a.count := by
  rw [List.any_eq_true, Pi.le_def, not_forall]
  constructor
  · rintro ⟨node, -, less⟩
    exact ⟨node, Nat.not_le.mpr (UInt64.lt_iff_toNat_lt.mp (of_decide_eq_true less))⟩
  · rintro ⟨node, less⟩
    have less := UInt64.lt_iff_toNat_lt.mpr (Nat.not_le.mp less)
    exact ⟨node, mem_keys_of_lt less, decide_eq_true less⟩

theorem any_get_gt : ((keys a b).any fun k => decide (b.get k < a.get k)) = true ↔
    ¬ a.count ≤ b.count := by
  rw [← any_get_lt, List.any_eq_true, List.any_eq_true]
  simp only [keys_comm a b]

/-- What each answer says of the counters, in the pointwise order. -/
def Means (f g : NodeId → Nat) : ClockRelation → Prop
  | .equal => f = g
  | .ahead => g ≤ f ∧ f ≠ g
  | .behind => f ≤ g ∧ f ≠ g
  | .conflict => ¬ f ≤ g ∧ ¬ g ≤ f

theorem compare_means (a b : VectorClock) : Means a.count b.count (a.compare b) := by
  rw [compare, note_foldl, Bool.false_or, Bool.false_or]
  have less := any_get_lt (a := a) (b := b)
  have greater := any_get_gt (a := a) (b := b)
  generalize ((keys a b).any fun k => decide (a.get k < b.get k)) = isLess at less
  generalize ((keys a b).any fun k => decide (b.get k < a.get k)) = isGreater at greater
  cases isGreater with
  | false =>
      have le : a.count ≤ b.count := by simpa using greater
      cases isLess with
      | false => exact le_antisymm le (by simpa using less)
      | true => exact ⟨le, fun same => (by simpa using less : ¬ b.count ≤ a.count) same.ge⟩
  | true =>
      have notLe : ¬ a.count ≤ b.count := by simpa using greater
      cases isLess with
      | false => exact ⟨by simpa using less, fun same => notLe same.le⟩
      | true => exact ⟨notLe, by simpa using less⟩

/-- Two answers that mean something of the same counters are one answer. -/
theorem Means.unique {f g : NodeId → Nat} {r s : ClockRelation} (first : Means f g r)
    (second : Means f g s) : r = s := by
  cases r <;> cases s
  case ahead.ahead | behind.behind | equal.equal | conflict.conflict => rfl
  case ahead.behind => exact absurd (le_antisymm second.1 first.1) first.2
  case behind.ahead => exact absurd (le_antisymm first.1 second.1) first.2
  case ahead.equal => exact absurd second first.2
  case behind.equal => exact absurd second first.2
  case equal.ahead => exact absurd first second.2
  case equal.behind => exact absurd first second.2
  case ahead.conflict => exact absurd first.1 second.2
  case behind.conflict => exact absurd first.1 second.1
  case equal.conflict => exact absurd (le_of_eq first) second.1
  case conflict.ahead => exact absurd second.1 first.2
  case conflict.behind => exact absurd second.1 first.1
  case conflict.equal => exact absurd (le_of_eq second) first.1

theorem compare_iff (a b : VectorClock) (r : ClockRelation) :
    a.compare b = r ↔ Means a.count b.count r := by
  constructor
  · rintro rfl
    exact compare_means a b
  · intro means
    exact (compare_means a b).unique means

theorem Means.mirror {f g : NodeId → Nat} {r : ClockRelation} (means : Means f g r) :
    Means g f r.mirror := by
  cases r with
  | ahead | behind => exact ⟨means.1, means.2.symm⟩
  | equal => exact means.symm
  | conflict => exact ⟨means.2, means.1⟩

theorem compare_mirror (a b : VectorClock) : b.compare a = (a.compare b).mirror :=
  (compare_iff b a _).mpr (compare_means a b).mirror

/-- The clock is neither behind the other nor in conflict with it. -/
def Covers (a b : VectorClock) : Prop := a.compare b = .ahead ∨ a.compare b = .equal

theorem covers_iff : a.Covers b ↔ b.count ≤ a.count := by
  rw [Covers, compare_iff, compare_iff]
  constructor
  · rintro (ahead | equal)
    · exact ahead.1
    · exact le_of_eq equal.symm
  · intro le
    by_cases same : a.count = b.count
    · exact .inr same
    · exact .inl ⟨le, same⟩

theorem Covers.refl (a : VectorClock) : a.Covers a := covers_iff.mpr le_rfl

theorem Covers.trans (first : b.Covers a) (second : c.Covers b) : c.Covers a :=
  covers_iff.mpr ((covers_iff.mp first).trans (covers_iff.mp second))

/-! ## Merging and counting up -/

theorem raise_count (clock : VectorClock) (k : NodeId) (v : UInt64) (node : NodeId) :
    (clock.raise k v).count node =
      if node = k then max (clock.count node) v.toNat else clock.count node := by
  by_cases same : node = k
  · subst same
    have stored : (clock.raise node v).get node =
        if clock.get node < v then v else clock.get node := by
      rw [get, raise, AList.lookup_insert, Option.getD_some]
    rw [if_pos rfl, count, stored, count]
    split
    case isTrue less => exact (Nat.max_eq_right (UInt64.le_of_lt less)).symm
    case isFalse more => exact (Nat.max_eq_left (Nat.not_lt.mp more)).symm
  · rw [if_neg same, count, count, get, raise, AList.lookup_insert_ne same, get]

/-- The loop of `merge` over a list of entries with distinct keys. -/
theorem foldl_raise_count {entries : List (Sigma fun _ : NodeId => UInt64)}
    (distinct : entries.NodupKeys) (clock : VectorClock) (node : NodeId) :
    (entries.foldl (fun clock e => clock.raise e.1 e.2) clock).count node =
      max (clock.count node) ((entries.dlookup node).getD 0).toNat := by
  induction entries generalizing clock with
  | nil => simp
  | cons e entries ih =>
      obtain ⟨k, v⟩ := e
      obtain ⟨fresh, distinct⟩ := List.nodupKeys_cons.mp distinct
      rw [List.foldl_cons, ih distinct, raise_count]
      by_cases same : node = k
      · subst same
        rw [if_pos rfl, List.dlookup_cons_eq, List.dlookup_eq_none.mpr fresh]
        simp
      · rw [if_neg same, List.dlookup_cons_ne entries (⟨k, v⟩ : Sigma fun _ => UInt64) same]

/-- Merging is the join of the pointwise order. -/
theorem merge_count (a b : VectorClock) : (a.merge b).count = a.count ⊔ b.count := by
  funext node
  exact foldl_raise_count b.counters.nodupKeys a node

theorem bump_count {node : NodeId} (room : a.count node < UInt64.size - 1) :
    (a.bump node).count = Function.update a.count node (a.count node + 1) := by
  funext other
  rw [Function.update_apply, count, get, bump, AList.lookup_insert_ite]
  by_cases same : other = node
  · subst same
    rw [if_pos rfl, if_pos rfl, Option.getD_some, UInt64.toNat_add]
    have : (1 : UInt64).toNat = 1 := rfl
    have : UInt64.size = 2 ^ 64 := rfl
    rw [count] at room ⊢
    exact Nat.mod_eq_of_lt (by omega)
  · rw [if_neg same, if_neg same, count, get]

/-- The answers of `compare` in terms of the counters, from both sides. -/
structure ComparesPointwise (a b : VectorClock) : Prop where
  equal : a.compare b = .equal ↔ ∀ node, a.count node = b.count node
  ahead : a.compare b = .ahead ↔
    (∀ node, b.count node ≤ a.count node) ∧ ¬ ∀ node, a.count node = b.count node
  behind : a.compare b = .behind ↔
    (∀ node, a.count node ≤ b.count node) ∧ ¬ ∀ node, a.count node = b.count node
  conflict : a.compare b = .conflict ↔
    (∃ node, b.count node < a.count node) ∧ ∃ node, a.count node < b.count node
  mirrored : b.compare a = (a.compare b).mirror

/-- The clock is the least one that covers both others. -/
structure IsJoin (a b join : VectorClock) : Prop where
  left : join.Covers a
  right : join.Covers b
  least : ∀ upper : VectorClock, upper.Covers a → upper.Covers b →
    join.compare upper = .behind ∨ join.compare upper = .equal

theorem comparesPointwise (a b : VectorClock) : ComparesPointwise a b := by
  refine ⟨?_, ?_, ?_, ?_, compare_mirror a b⟩
  · rw [compare_iff, Means, funext_iff]
  · rw [compare_iff, Means, Pi.le_def, Ne, funext_iff]
  · rw [compare_iff, Means, Pi.le_def, Ne, funext_iff]
  · simp only [compare_iff, Means, Pi.le_def, not_forall, Nat.not_le]

theorem merge_isJoin (a b : VectorClock) : IsJoin a b (a.merge b) := by
  refine ⟨?_, ?_, fun upper first second => ?_⟩
  · rw [covers_iff, merge_count]
    exact le_sup_left
  · rw [covers_iff, merge_count]
    exact le_sup_right
  · have covered : upper.Covers (a.merge b) := by
      rw [covers_iff] at first second ⊢
      rw [merge_count]
      exact sup_le first second
    rw [compare_mirror upper]
    rcases covered with ahead | equal
    · exact .inl (by rw [ahead]; rfl)
    · exact .inr (by rw [equal]; rfl)

theorem bump_ahead {node : NodeId} (room : a.count node < UInt64.size - 1) :
    (a.bump node).compare a = .ahead := by
  rw [compare_iff, bump_count room]
  refine ⟨fun other => ?_, fun same => ?_⟩
  · rw [Function.update_apply]
    split
    case isTrue here => exact here ▸ Nat.le_succ _
    case isFalse => exact Nat.le_refl _
  · have more := congrFun same node
    rw [Function.update_self] at more
    omega

theorem clock_laws (a b c : VectorClock) :
    ComparesPointwise a b ∧ IsJoin a b (a.merge b) ∧
      (∀ node, (a.merge b).count node = (b.merge a).count node) ∧
      (∀ node, ((a.merge b).merge c).count node = (a.merge (b.merge c)).count node) ∧
      (∀ node, (a.merge a).count node = a.count node) ∧
      ∀ node, a.count node < UInt64.size - 1 → (a.bump node).compare a = .ahead := by
  refine ⟨comparesPointwise a b, merge_isJoin a b, ?_, ?_, ?_, fun node room => bump_ahead room⟩
  · intro node
    rw [merge_count, merge_count, sup_comm]
  · intro node
    simp only [merge_count, sup_assoc]
  · intro node
    rw [merge_count, sup_idem]

end VectorClock

end Qubox.Sync
