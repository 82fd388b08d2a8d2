import Mathlib.Data.List.Dedup
import Mathlib.Data.List.Perm.Subperm
import Mathlib.Order.Lattice

/-!
# Tables in the order of time

A table keeps one value under each time, in ascending order. With a bound on its
length, the entries with the lowest times are dropped. What is in the table after
many values have been put in is told by `Represents`: values that were put in, at
most as many as the bound, and each time that is missing is lower than all that
are there, of which there are as many as the bound.
-/

universe u v

@[ext] structure Timeline (α : Type u) (β : Type v) [LinearOrder α] where
  entries : List (α × β)
  ascending : entries.Pairwise fun a b => a.1 < b.1

namespace Timeline

variable {α : Type u} {β : Type v} [LinearOrder α]

def empty : Timeline α β := ⟨[], .nil⟩

/-- The entry in its place; another one at the same time is replaced. -/
def insertEntry (e : α × β) : List (α × β) → List (α × β)
  | [] => [e]
  | first :: rest =>
      if e.1 < first.1 then e :: first :: rest
      else if e.1 = first.1 then e :: rest
      else first :: insertEntry e rest

theorem mem_insertEntry {e other : α × β} {entries : List (α × β)}
    (ascending : entries.Pairwise fun a b => a.1 < b.1) :
    other ∈ insertEntry e entries ↔ other = e ∨ other ∈ entries ∧ other.1 ≠ e.1 := by
  induction entries with
  | nil => simp [insertEntry]
  | cons first rest ih =>
      obtain ⟨least, later⟩ := List.pairwise_cons.mp ascending
      rw [insertEntry]
      split
      case isTrue before =>
        have apart : ∀ a ∈ first :: rest, a.1 ≠ e.1 := by
          intro a member
          rcases List.mem_cons.mp member with rfl | member
          · exact before.ne'
          · exact (before.trans (least a member)).ne'
        rw [List.mem_cons]
        exact or_congr_right (iff_self_and.mpr (apart other))
      case isFalse =>
        split
        case isTrue same =>
          have apart : ∀ a ∈ rest, a.1 ≠ e.1 := fun a member => same ▸ (least a member).ne'
          rw [List.mem_cons, List.mem_cons, or_and_right]
          refine or_congr_right ⟨fun member => .inr ⟨member, apart other member⟩, ?_⟩
          rintro (⟨rfl, ne⟩ | ⟨member, -⟩)
          · exact absurd same.symm ne
          · exact member
        case isFalse notBefore other' =>
          rw [List.mem_cons, ih later, List.mem_cons]
          constructor
          · rintro (rfl | rfl | ⟨member, ne⟩)
            · exact .inr ⟨.inl rfl, fun same => other' same.symm⟩
            · exact .inl rfl
            · exact .inr ⟨.inr member, ne⟩
          · rintro (rfl | ⟨rfl | member, ne⟩)
            · exact .inr (.inl rfl)
            · exact .inl rfl
            · exact .inr (.inr ⟨member, ne⟩)

theorem ascending_insertEntry {e : α × β} {entries : List (α × β)}
    (ascending : entries.Pairwise fun a b => a.1 < b.1) :
    (insertEntry e entries).Pairwise fun a b => a.1 < b.1 := by
  induction entries with
  | nil => exact List.pairwise_singleton _ _
  | cons first rest ih =>
      obtain ⟨least, later⟩ := List.pairwise_cons.mp ascending
      rw [insertEntry]
      split
      case isTrue before =>
        refine List.pairwise_cons.mpr ⟨fun a member => ?_, ascending⟩
        rcases List.mem_cons.mp member with rfl | member
        · exact before
        · exact before.trans (least a member)
      case isFalse notBefore =>
        split
        case isTrue same =>
          exact List.pairwise_cons.mpr ⟨fun a member => same ▸ least a member, later⟩
        case isFalse other =>
          refine List.pairwise_cons.mpr ⟨fun a member => ?_, ih later⟩
          rcases (mem_insertEntry later).mp member with rfl | ⟨member, -⟩
          · exact lt_of_le_of_ne (not_lt.mp notBefore) (Ne.symm other)
          · exact least a member

theorem length_insertEntry_of_mem {e : α × β} {entries : List (α × β)}
    (ascending : entries.Pairwise fun a b => a.1 < b.1) (known : ∃ old ∈ entries, old.1 = e.1) :
    (insertEntry e entries).length = entries.length := by
  induction entries with
  | nil => obtain ⟨_, member, -⟩ := known; cases member
  | cons first rest ih =>
      obtain ⟨least, later⟩ := List.pairwise_cons.mp ascending
      obtain ⟨old, member, same⟩ := known
      rw [insertEntry]
      split
      case isTrue before =>
        rcases List.mem_cons.mp member with rfl | member
        · exact absurd same before.ne'
        · exact absurd same (before.trans (least old member)).ne'
      case isFalse =>
        split
        case isTrue => rfl
        case isFalse other =>
          rcases List.mem_cons.mp member with rfl | member
          · exact absurd same.symm other
          · rw [List.length_cons, ih later ⟨old, member, same⟩, List.length_cons]

theorem length_insertEntry_of_new {e : α × β} {entries : List (α × β)}
    (new : ∀ old ∈ entries, old.1 ≠ e.1) :
    (insertEntry e entries).length = entries.length + 1 := by
  induction entries with
  | nil => rfl
  | cons first rest ih =>
      obtain ⟨other, later⟩ := List.forall_mem_cons.mp new
      rw [insertEntry]
      split
      case isTrue => rfl
      case isFalse =>
        rw [if_neg other.symm, List.length_cons, ih later, List.length_cons]

def insert (t : Timeline α β) (time : α) (value : β) : Timeline α β :=
  ⟨insertEntry (time, value) t.entries, ascending_insertEntry t.ascending⟩

/-- Without the first entries, so that the length is within the bound. -/
def enforceCap (cap : Nat) (t : Timeline α β) : Timeline α β :=
  ⟨t.entries.drop (t.entries.length - cap), t.ascending.sublist (List.drop_sublist _ _)⟩

def list (t : Timeline α β) : List β := t.entries.map Prod.snd

section Records

variable (cap : Nat) (time : β → α)

/-- Put a value in under its time, within the bound. -/
def record (t : Timeline α β) (value : β) : Timeline α β :=
  (t.insert (time value) value).enforceCap cap

/-- What was put in, in this order, and what is in the table. -/
structure Represents (written : List β) (t : Timeline α β) : Prop where
  stored : ∀ e ∈ t.entries, e.2 ∈ written ∧ time e.2 = e.1
  size : t.entries.length ≤ cap
  passed : ∀ value ∈ written, (∃ e ∈ t.entries, e.1 = time value) ∨
    t.entries.length = cap ∧ ∀ e ∈ t.entries, time value < e.1

variable {cap time} {written : List β} {t : Timeline α β}

theorem entries_record (t : Timeline α β) (value : β) :
    (t.record cap time value).entries =
      (t.insert (time value) value).entries.drop
        ((t.insert (time value) value).entries.length - cap) := rfl

theorem represents_empty : Represents cap time [] (empty : Timeline α β) :=
  ⟨nofun, Nat.zero_le _, nofun⟩

theorem mem_insert {value : β} {e : α × β} :
    e ∈ (t.insert (time value) value).entries ↔
      e = (time value, value) ∨ e ∈ t.entries ∧ e.1 ≠ time value :=
  mem_insertEntry t.ascending

/-- With the new entry, and before any is dropped. -/
theorem Represents.insert_stored (h : Represents cap time written t) (value : β) :
    ∀ e ∈ (t.insert (time value) value).entries, e.2 ∈ written ++ [value] ∧ time e.2 = e.1 := by
  intro e member
  rcases mem_insert.mp member with rfl | ⟨old, -⟩
  · exact ⟨List.mem_append_right _ (List.mem_singleton_self _), rfl⟩
  · exact ⟨List.mem_append_left _ (h.stored e old).1, (h.stored e old).2⟩

/-- Without room the table was full, and had nothing at the time. -/
theorem Represents.of_crowded (h : Represents cap time written t) {value : β}
    (crowded : cap < (t.insert (time value) value).entries.length) :
    (t.insert (time value) value).entries.length = cap + 1 ∧ t.entries.length = cap ∧
      ∀ e ∈ t.entries, e.1 ≠ time value := by
  have new : ∀ e ∈ t.entries, e.1 ≠ time value := by
    intro e there same
    have replaced := length_insertEntry_of_mem (e := (time value, value)) t.ascending
      ⟨e, there, same⟩
    exact absurd h.size (Nat.not_le.mpr (replaced ▸ crowded))
  have added : (t.insert (time value) value).entries.length = t.entries.length + 1 :=
    length_insertEntry_of_new new
  have size := h.size
  exact ⟨by omega, by omega, new⟩

/-- There is room: the table has the new entry and all the others. -/
theorem Represents.insert_room (h : Represents cap time written t) {value : β}
    (room : (t.insert (time value) value).entries.length ≤ cap) :
    Represents cap time (written ++ [value]) (t.insert (time value) value) := by
  refine ⟨h.insert_stored value, room, fun old member => ?_⟩
  have new : ((time value, value) : α × β) ∈ (t.insert (time value) value).entries :=
    mem_insert.mpr (.inl rfl)
  rcases List.mem_append.mp member with before | last
  · rcases h.passed old before with ⟨e, there, same⟩ | ⟨full, lower⟩
    · by_cases again : e.1 = time value
      · exact .inl ⟨_, new, again.symm.trans same⟩
      · exact .inl ⟨e, mem_insert.mpr (.inr ⟨there, again⟩), same⟩
    · -- a full table with room for the new entry had one at its time
      obtain ⟨e, there, same⟩ : ∃ e ∈ t.entries, e.1 = time value := by
        by_contra none
        push Not at none
        have added : (t.insert (time value) value).entries.length = t.entries.length + 1 :=
          length_insertEntry_of_new none
        omega
      have replaced : (t.insert (time value) value).entries.length = t.entries.length :=
        length_insertEntry_of_mem t.ascending ⟨e, there, same⟩
      refine .inr ⟨replaced.trans full, fun other inside => ?_⟩
      rcases mem_insert.mp inside with rfl | ⟨inside, -⟩
      · exact same ▸ lower e there
      · exact lower other inside
  · rw [List.mem_singleton.mp last]
    exact .inl ⟨_, new, rfl⟩

/-- A value more keeps the table what it is. -/
theorem Represents.record (h : Represents cap time written t) (value : β) :
    Represents cap time (written ++ [value]) (t.record cap time value) := by
  rcases Nat.lt_or_ge cap (t.insert (time value) value).entries.length with crowded | room
  case inr =>
    have whole : t.record cap time value = t.insert (time value) value := by
      ext1
      rw [entries_record, Nat.sub_eq_zero_of_le room, List.drop_zero]
    rw [whole]
    exact h.insert_room room
  case inl =>
    obtain ⟨length, full, new⟩ := h.of_crowded crowded
    have stored := h.insert_stored value
    have members : ∀ e, e ∈ (t.insert (time value) value).entries ↔ _ := fun e => mem_insert
    have ascending := (t.insert (time value) value).ascending
    obtain ⟨least, rest, shape⟩ := List.exists_cons_of_length_eq_add_one length
    have kept : (t.record cap time value).entries = rest := by
      rw [entries_record, length, Nat.add_sub_cancel_left, shape, List.drop_one, List.tail_cons]
    rw [shape] at stored members ascending length
    have lower := (List.pairwise_cons.mp ascending).1
    refine ⟨?_, ?_, fun old member => ?_⟩
    · rw [kept]
      exact fun e inside => stored e (.tail _ inside)
    · rw [kept]
      exact Nat.le_of_eq (Nat.succ.inj length)
    · rw [kept]
      -- what is stored before the first entry is dropped is that entry, or stays
      have settle {e : α × β} (inside : e ∈ least :: rest) (same : e.1 = time old) :
          (∃ e ∈ rest, e.1 = time old) ∨ rest.length = cap ∧ ∀ e ∈ rest, time old < e.1 := by
        rcases List.mem_cons.mp inside with rfl | inside
        · exact .inr ⟨Nat.succ.inj length, fun other there => same ▸ lower other there⟩
        · exact .inl ⟨e, inside, same⟩
      rcases List.mem_append.mp member with before | last
      · rcases h.passed old before with ⟨e, there, same⟩ | ⟨-, below⟩
        · exact settle ((members e).mpr (.inr ⟨there, new e there⟩)) same
        · refine .inr ⟨Nat.succ.inj length, fun e there => ?_⟩
          rcases (members e).mp (.tail _ there) with rfl | ⟨inside, -⟩
          · -- the dropped entry is one of the old ones
            rcases (members least).mp List.mem_cons_self with rfl | ⟨dropped, -⟩
            · exact absurd (lower _ there) (lt_irrefl _)
            · exact (below least dropped).trans (lower _ there)
          · exact below e inside
      · rw [List.mem_singleton.mp last] at settle ⊢
        exact settle ((members _).mpr (.inl rfl)) rfl

theorem represents_foldl (h : Represents cap time written t) (values : List β) :
    Represents cap time (written ++ values) (values.foldl (Timeline.record cap time) t) := by
  induction values generalizing written t with
  | nil => rwa [List.append_nil]
  | cons value values ih =>
      rw [List.foldl_cons, ← List.singleton_append, ← List.append_assoc]
      exact ih (h.record value)

/-! ## The newest records -/

variable (cap time)

/-- What is listed is the newest of what was written, as much of it as the bound
allows, in the order of time. -/
structure KeepsNewest (written listed : List β) : Prop where
  sorted : listed.Pairwise fun a b => time a ≤ time b
  bounded : listed.length ≤ cap
  count : listed.length = min written.length cap
  newest : ∃ omitted, (listed ++ omitted).Perm written ∧
    ∀ kept ∈ listed, ∀ gone ∈ omitted, time gone ≤ time kept
  together : written.length ≤ cap → listed.Perm written

/-- A time that was written twice has so many later ones behind it that at most one
value with that time is among the newest. -/
def SharedTimesPass (written : List β) : Prop :=
  ∀ shared, 2 ≤ (written.map time).count shared →
    cap ≤ ((written.map time).dedup.filter (shared < ·)).length + 1

variable {cap time}

theorem Represents.times (h : Represents cap time written t) :
    t.list.map time = t.entries.map Prod.fst := by
  rw [list, List.map_map]
  exact List.map_congr_left fun e member => (h.stored e member).2

theorem Represents.ascending_times (h : Represents cap time written t) :
    (t.list.map time).Pairwise (· < ·) := by
  rw [h.times, List.pairwise_map]
  exact t.ascending

theorem Represents.nodup_times (h : Represents cap time written t) : (t.list.map time).Nodup :=
  h.ascending_times.imp fun less => less.ne

theorem Represents.mem_times (h : Represents cap time written t) {moment : α} :
    moment ∈ t.list.map time ↔ ∃ e ∈ t.entries, e.1 = moment := by
  rw [h.times, List.mem_map]

theorem length_list (t : Timeline α β) : t.list.length = t.entries.length := List.length_map _

/-- The listed values and the others make up what was written. -/
theorem Represents.exists_omitted (h : Represents cap time written t) :
    ∃ omitted, (t.list ++ omitted).Perm written := by
  have inside : t.list ⊆ written := by
    intro value member
    obtain ⟨e, there, rfl⟩ := List.mem_map.mp member
    exact (h.stored e there).1
  obtain ⟨listed, same, part⟩ := List.subperm_of_subset h.nodup_times.of_map inside
  obtain ⟨omitted, whole⟩ := part.exists_perm_append
  exact ⟨omitted, (whole.trans (same.append_right _)).symm⟩

/-- Every time after a stored one is stored. -/
theorem Represents.later_stored (h : Represents cap time written t) {stored later : α}
    (there : stored ∈ t.list.map time) (known : later ∈ written.map time) (after : stored < later) :
    later ∈ t.list.map time := by
  obtain ⟨value, member, rfl⟩ := List.mem_map.mp known
  rcases h.passed value member with found | ⟨-, lower⟩
  · exact h.mem_times.mpr found
  · obtain ⟨e, inside, rfl⟩ := h.mem_times.mp there
    exact absurd (lower e inside) (not_lt.mpr after.le)

/-- A stored time with the later ones, and what else is stored before it. -/
theorem Represents.length_le (h : Represents cap time written t) {stored : α}
    (there : stored ∈ t.list.map time) {before : List α}
    (earlier : ∀ moment ∈ before, moment < stored)
    (nodup : before.Nodup) (inside : before ⊆ t.list.map time) :
    before.length + (((written.map time).dedup.filter (stored < ·)).length + 1) ≤
      t.entries.length := by
  have apart : (before ++ stored :: (written.map time).dedup.filter (stored < ·)).Nodup := by
    refine List.nodup_append.mpr ⟨nodup, List.nodup_cons.mpr ⟨?_, ?_⟩, ?_⟩
    · exact fun member => lt_irrefl _ (of_decide_eq_true (List.mem_filter.mp member).2)
    · exact (List.nodup_dedup _).filter _
    · intro a first b second
      rcases List.mem_cons.mp second with rfl | second
      · exact (earlier a first).ne
      · exact ((earlier a first).trans (of_decide_eq_true (List.mem_filter.mp second).2)).ne
  have among : before ++ stored :: (written.map time).dedup.filter (stored < ·) ⊆
      t.list.map time := by
    intro moment member
    rcases List.mem_append.mp member with first | second
    · exact inside first
    · rcases List.mem_cons.mp second with rfl | second
      · exact there
      · obtain ⟨known, after⟩ := List.mem_filter.mp second
        exact h.later_stored there (List.mem_dedup.mp known) (of_decide_eq_true after)
  have length := (List.subperm_of_subset apart among).length_le
  rwa [List.length_append, List.length_cons, List.length_map, length_list] at length

/-- A time at which a value is listed and another is not was written twice. -/
theorem shared_of_omitted {listed omitted : List β} (whole : (listed ++ omitted).Perm written)
    {gone : β} (out : gone ∈ omitted) (listedToo : time gone ∈ listed.map time) :
    2 ≤ (written.map time).count (time gone) := by
  rw [← (whole.map time).count_eq, List.map_append, List.count_append]
  exact Nat.add_le_add (List.count_pos_iff.mpr listedToo)
    (List.count_pos_iff.mpr (List.mem_map_of_mem out))

/-- The newest are kept exactly if shared times have passed out of reach. -/
theorem Represents.keepsNewest_iff (h : Represents cap time written t) :
    KeepsNewest cap time written t.list ↔ SharedTimesPass cap time written := by
  constructor
  · intro keeps shared twice
    by_contra few
    rw [Nat.not_le] at few
    obtain ⟨omitted, whole, newest⟩ := keeps.newest
    have once := List.nodup_iff_count_le_one.mp h.nodup_times shared
    rw [← (whole.map time).count_eq, List.map_append, List.count_append] at twice
    obtain ⟨gone, out, rfl⟩ := List.mem_map.mp
      (List.count_pos_iff.mp (show 0 < (omitted.map time).count shared by omega))
    -- everything listed has the shared time or a later one
    have among : t.list.map time ⊆
        time gone :: (written.map time).dedup.filter (time gone < ·) := by
      intro moment member
      obtain ⟨kept, listed, rfl⟩ := List.mem_map.mp member
      rcases (newest kept listed gone out).eq_or_lt with same | less
      · exact same ▸ List.mem_cons_self
      · refine .tail _ (List.mem_filter.mpr ⟨List.mem_dedup.mpr ?_, decide_eq_true less⟩)
        exact List.mem_map_of_mem (whole.subset (List.mem_append_left _ listed))
    have short := (List.subperm_of_subset h.nodup_times among).length_le
    rw [List.length_map, List.length_cons] at short
    have total := whole.length_eq
    rw [List.length_append] at total
    have some := List.length_pos_of_mem out
    have count := keeps.count
    omega
  · intro pass
    obtain ⟨omitted, whole⟩ := h.exists_omitted
    have total := whole.length_eq
    rw [List.length_append] at total
    have size := h.size
    rw [← length_list] at size
    have newest : ∀ kept ∈ t.list, ∀ gone ∈ omitted, time gone ≤ time kept := by
      intro kept listed gone out
      by_contra less
      rw [not_le] at less
      have known : gone ∈ written := whole.subset (List.mem_append_right _ out)
      have keptTime : time kept ∈ t.list.map time := List.mem_map_of_mem listed
      have there : time gone ∈ t.list.map time :=
        h.later_stored keptTime (List.mem_map_of_mem known) less
      have reach := pass _ (shared_of_omitted whole out there)
      have fits := h.length_le there (List.forall_mem_singleton.mpr less)
        (List.nodup_singleton _) (List.cons_subset.mpr ⟨keptTime, List.nil_subset _⟩)
      rw [← length_list, List.length_singleton] at fits
      omega
    have count : t.list.length = min written.length cap := by
      rcases Nat.lt_or_ge t.list.length cap with room | full
      case inr => omega
      case inl =>
        suffices none : omitted = [] by
          rw [none, List.length_nil] at total
          omega
        refine List.eq_nil_iff_forall_not_mem.mpr fun gone out => ?_
        have known : gone ∈ written := whole.subset (List.mem_append_right _ out)
        rcases h.passed gone known with found | ⟨full, -⟩
        · have there := h.mem_times.mpr found
          have reach := pass _ (shared_of_omitted whole out there)
          have fits := h.length_le there (List.forall_mem_nil _) .nil (List.nil_subset _)
          rw [← length_list, List.length_nil] at fits
          omega
        · rw [length_list] at room
          omega
    refine ⟨h.ascending_times.of_map _ fun _ _ less => less.le, size, count,
      ⟨omitted, whole, newest⟩, fun fits => ?_⟩
    have none : omitted = [] := List.length_eq_zero_iff.mp (by omega)
    rwa [none, List.append_nil] at whole

end Records

end Timeline
