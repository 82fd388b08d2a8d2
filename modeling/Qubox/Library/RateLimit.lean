import Qubox.Library.SlidingWindow

/-!
# A sliding window with blocks

Events come at times in ascending order, and each is admitted or turned away. An event
counts unless a block stands. When more events than the threshold count in the window that
ends with one of them, that one is turned away and begins a block. What comes during a block
is turned away and does not count.
-/

namespace RateLimit

open SlidingWindow

structure Limit where
  window : Nat
  threshold : Nat
  block : Nat

/-- The events that count, as far as they are kept, and when the last block ends. -/
structure Gauge where
  kept : List Nat
  release : Option Nat

structure Ruling where
  time : Nat
  admitted : Bool
  deriving DecidableEq

namespace Gauge

def fresh : Gauge := ⟨[], none⟩

def Blocked (g : Gauge) (now : Nat) : Prop := ∃ release ∈ g.release, now < release

instance (g : Gauge) (now : Nat) : Decidable (g.Blocked now) :=
  inferInstanceAs (Decidable (∃ release ∈ g.release, now < release))

end Gauge

namespace Limit

variable (limit : Limit)

/-- The events that count in the window that ends now, with the one that comes. -/
def counted (g : Gauge) (now : Nat) : List Nat := prune limit.window now (g.kept ++ [now])

def next (g : Gauge) (now : Nat) : Gauge :=
  if g.Blocked now then g
  else
    { kept := limit.counted g now
      release := if limit.threshold < (limit.counted g now).length then some (now + limit.block)
        else g.release }

def Admits (g : Gauge) (now : Nat) : Prop :=
  ¬ g.Blocked now ∧ (limit.counted g now).length ≤ limit.threshold

instance (g : Gauge) (now : Nat) : Decidable (limit.Admits g now) :=
  inferInstanceAs (Decidable (¬ _ ∧ _))

def rulings (g : Gauge) : List Nat → List Ruling
  | [] => []
  | now :: later => ⟨now, limit.Admits g now⟩ :: rulings (limit.next g now) later

/-! ## What a limit owes -/

/-- More events than the threshold fall in the window that ends with this one. -/
def Exceeds (before : List Ruling) (ruling : Ruling) : Prop :=
  limit.threshold <
    (recent limit.window ruling.time ((before ++ [ruling]).map Ruling.time)).length

/-- Nothing has exceeded the threshold so far. -/
def Calm (log : List Ruling) : Prop :=
  ∀ before ruling after, log = before ++ ruling :: after → ¬ limit.Exceeds before ruling

/-- An event was turned away, and so were all that came before its block ended. -/
def Shuts (ruling : Ruling) (after : List Ruling) : Prop :=
  ruling.admitted = false ∧
    ∀ later ∈ after, later.time < ruling.time + limit.block → later.admitted = false

/-- A turned away event falls in the block that another, or it itself, began by exceeding the
threshold. -/
structure Covers (before : List Ruling) (ruling : Ruling) (after : List Ruling)
    (earlier : List Ruling) (opening : Ruling) (since : List Ruling) : Prop where
  split : before ++ [ruling] = earlier ++ opening :: since
  exceeds : limit.Exceeds earlier opening
  shuts : limit.Shuts opening (since ++ after)
  within : since = [] ∨ ruling.time < opening.time + limit.block

structure Lawful (log : List Ruling) : Prop where
  /-- No window has more admitted events than the threshold. -/
  sparse : ¬ Crowded limit.threshold limit.window ((log.filter Ruling.admitted).map Ruling.time)
  /-- The first event to exceed the threshold begins a block. -/
  first : ∀ before ruling after, log = before ++ ruling :: after → limit.Calm before →
    limit.Exceeds before ruling → limit.Shuts ruling after
  /-- Nothing is turned away without a block. -/
  justified : ∀ before ruling after, log = before ++ ruling :: after →
    ruling.admitted = false → ∃ earlier opening since,
      limit.Covers before ruling after earlier opening since

/-! ## Logs that grow at their end -/

theorem split_concat {log : List Ruling} {new : Ruling} {before after : List Ruling}
    {ruling : Ruling} (split : log ++ [new] = before ++ ruling :: after) :
    (∃ since, after = since ++ [new] ∧ log = before ++ ruling :: since) ∨
      (after = [] ∧ before = log ∧ ruling = new) := by
  obtain rfl | ⟨since, last, rfl⟩ := List.eq_nil_or_concat after
  · obtain ⟨same, last⟩ := List.append_inj' split rfl
    exact .inr ⟨rfl, same.symm, (List.singleton_inj.mp last).symm⟩
  · rw [List.concat_eq_append, ← List.cons_append, ← List.append_assoc] at split
    obtain ⟨same, end'⟩ := List.append_inj' split rfl
    rw [List.singleton_inj.mp end']
    exact .inl ⟨since, List.concat_eq_append, same⟩

variable {limit : Limit} {log before after : List Ruling} {ruling new : Ruling} {g : Gauge}
  {counted : List Nat} {now : Nat}

theorem Calm.last (calm : limit.Calm (log ++ [new])) : ¬ limit.Exceeds log new :=
  calm log new [] rfl

theorem Shuts.concat (shuts : limit.Shuts ruling after)
    (turned : new.time < ruling.time + limit.block → new.admitted = false) :
    limit.Shuts ruling (after ++ [new]) := by
  refine ⟨shuts.1, fun later member => ?_⟩
  obtain old | last := List.mem_append.mp member
  · exact shuts.2 later old
  · rw [List.mem_singleton.mp last]
    exact turned

/-! ## The invariant -/

/-- Which of the events so far count, and that those a gauge has lost are too old for any
window to come. -/
structure Counts (limit : Limit) (log : List Ruling) (g : Gauge) (counted : List Nat) :
    Prop where
  ordered : counted.Pairwise (· ≤ ·)
  among : counted.Sublist (log.map Ruling.time)
  kept : g.kept.Sublist counted
  history : ∀ now, (∀ time ∈ counted, time ≤ now) →
    recent limit.window now g.kept = recent limit.window now counted

/-- A block that stands was begun by an event that exceeded the threshold, and nothing else
turns an event away. -/
structure Gauges (limit : Limit) (log : List Ruling) (g : Gauge) (counted : List Nat) : Prop
    extends Counts limit log g counted where
  admitted : ((log.filter Ruling.admitted).map Ruling.time).Sublist counted
  sparse : ¬ Crowded limit.threshold limit.window ((log.filter Ruling.admitted).map Ruling.time)
  complete : g.release = none → counted = log.map Ruling.time ∧ limit.Calm log
  opened : ∀ release ∈ g.release, ∃ earlier opening since, log = earlier ++ opening :: since ∧
    limit.Exceeds earlier opening ∧ limit.Shuts opening since ∧
    release = opening.time + limit.block
  closed : ∀ before ruling after, log = before ++ ruling :: after → limit.Calm before →
    limit.Exceeds before ruling → limit.Shuts ruling after ∧
      ∃ release ∈ g.release, ruling.time + limit.block ≤ release
  covered : ∀ before ruling after, log = before ++ ruling :: after → ruling.admitted = false →
    ∃ earlier opening since, limit.Covers before ruling after earlier opening since ∧
      ∃ release ∈ g.release, opening.time + limit.block ≤ release

theorem gauges_fresh : limit.Gauges [] .fresh [] where
  ordered := .nil
  among := .slnil
  kept := .slnil
  history _ _ := rfl
  admitted := .slnil
  sparse := not_crowded_nil
  complete _ := ⟨rfl, fun before ruling after split => by simp at split⟩
  opened release standing := by simp [Gauge.fresh] at standing
  closed before ruling after split := by simp at split
  covered before ruling after split := by simp at split

theorem Counts.counted_eq (counts : Counts limit log g counted)
    (past : ∀ time ∈ counted, time ≤ now) :
    limit.counted g now = recent limit.window now (counted ++ [now]) := by
  have sorted : (g.kept ++ [now]).Pairwise (· ≤ ·) := by
    refine List.pairwise_append.mpr
      ⟨counts.ordered.sublist counts.kept, List.pairwise_singleton _ _, ?_⟩
    intro time member last same
    rw [List.mem_singleton.mp same]
    exact past time (counts.kept.subset member)
  rw [Limit.counted, prune_eq_recent sorted, recent_append_self, recent_append_self,
    counts.history now past]

theorem Counts.next (counts : Counts limit log g counted)
    (past : ∀ time ∈ counted, time ≤ new.time) (release : Option Nat) :
    Counts limit (log ++ [new]) ⟨limit.counted g new.time, release⟩ (counted ++ [new.time]) := by
  refine ⟨?_, ?_, ?_, fun later past' => ?_⟩
  · refine List.pairwise_append.mpr ⟨counts.ordered, List.pairwise_singleton _ _, ?_⟩
    intro time member last same
    rw [List.mem_singleton.mp same]
    exact past time member
  · rw [List.map_append]
    exact counts.among.append (List.Sublist.refl _)
  · rw [counts.counted_eq past]
    exact List.filter_sublist
  · rw [counts.counted_eq past]
    exact recent_recent (past' _ (List.mem_append_right _ (List.mem_singleton.mpr rfl)))

theorem Gauges.exceeds (gauges : limit.Gauges log g counted)
    (past : ∀ time ∈ counted, time ≤ new.time)
    (many : limit.threshold < (limit.counted g new.time).length) : limit.Exceeds log new := by
  rw [gauges.toCounts.counted_eq past] at many
  refine Nat.lt_of_lt_of_le many (List.Sublist.length_le (List.Sublist.filter _ ?_))
  rw [List.map_append]
  exact gauges.among.append (List.Sublist.refl _)

/-- As long as nothing has exceeded the threshold, everything counts. -/
theorem Gauges.exceeds_iff (gauges : limit.Gauges log g counted)
    (past : ∀ time ∈ counted, time ≤ new.time) (calm : limit.Calm log) :
    limit.Exceeds log new ↔ limit.threshold < (limit.counted g new.time).length := by
  have open' : g.release = none := by
    rw [Option.eq_none_iff_forall_not_mem]
    intro release standing
    obtain ⟨earlier, opening, since, split, exceeds, -⟩ := gauges.opened release standing
    exact calm earlier opening since split exceeds
  rw [gauges.toCounts.counted_eq past, (gauges.complete open').1, Exceeds, List.map_append]
  rfl

/-- What one more event, ruled this way, does to the blocks of a gauge. -/
structure Follows (g g' : Gauge) (new : Ruling) : Prop where
  turned : ∀ release ∈ g.release, new.time < release → new.admitted = false
  later : ∀ release ∈ g.release, ∃ release' ∈ g'.release, release ≤ release'

variable {g' : Gauge} {counted' : List Nat}

theorem Follows.turned_of_le (follows : Follows g g' new) {bound : Nat}
    (standing : ∃ release ∈ g.release, bound ≤ release) :
    (new.time < bound → new.admitted = false) ∧ ∃ release ∈ g'.release, bound ≤ release := by
  obtain ⟨release, standing, order⟩ := standing
  refine ⟨fun early => follows.turned release standing (Nat.lt_of_lt_of_le early order), ?_⟩
  obtain ⟨release', standing', longer⟩ := follows.later release standing
  exact ⟨release', standing', Nat.le_trans order longer⟩

theorem Gauges.closed_concat (gauges : limit.Gauges log g counted) (follows : Follows g g' new)
    (opens : limit.Calm log → limit.Exceeds log new → new.admitted = false ∧
      ∃ release ∈ g'.release, new.time + limit.block ≤ release)
    (grown : log ++ [new] = before ++ ruling :: after) (calm : limit.Calm before)
    (exceeds : limit.Exceeds before ruling) :
    limit.Shuts ruling after ∧ ∃ release ∈ g'.release, ruling.time + limit.block ≤ release := by
  obtain ⟨since, rfl, split⟩ | ⟨rfl, rfl, rfl⟩ := split_concat grown
  · obtain ⟨shuts, standing⟩ := gauges.closed before ruling since split calm exceeds
    obtain ⟨turned, standing'⟩ := follows.turned_of_le standing
    exact ⟨shuts.concat turned, standing'⟩
  · obtain ⟨turned, standing⟩ := opens calm exceeds
    exact ⟨⟨turned, fun later member => absurd member List.not_mem_nil⟩, standing⟩

theorem Gauges.covered_concat (gauges : limit.Gauges log g counted) (follows : Follows g g' new)
    (opens : new.admitted = false → ∃ earlier opening since,
      limit.Covers log new [] earlier opening since ∧
        ∃ release ∈ g'.release, opening.time + limit.block ≤ release)
    (grown : log ++ [new] = before ++ ruling :: after) (turned : ruling.admitted = false) :
    ∃ earlier opening since, limit.Covers before ruling after earlier opening since ∧
      ∃ release ∈ g'.release, opening.time + limit.block ≤ release := by
  obtain ⟨since, rfl, split⟩ | ⟨rfl, rfl, rfl⟩ := split_concat grown
  · obtain ⟨earlier, opening, between, covers, standing⟩ :=
      gauges.covered before ruling since split turned
    obtain ⟨turned', standing'⟩ := follows.turned_of_le standing
    refine ⟨earlier, opening, between, { covers with shuts := ?_ }, standing'⟩
    rw [← List.append_assoc]
    exact covers.shuts.concat turned'
  · exact opens turned

theorem Gauges.opened_concat (gauges : limit.Gauges log g counted) (follows : Follows g g' new)
    {release : Nat} (standing : release ∈ g.release) :
    ∃ earlier opening since, log ++ [new] = earlier ++ opening :: since ∧
      limit.Exceeds earlier opening ∧ limit.Shuts opening since ∧
      release = opening.time + limit.block := by
  obtain ⟨earlier, opening, since, split, exceeds, shuts, rfl⟩ := gauges.opened release standing
  refine ⟨earlier, opening, since ++ [new], ?_, exceeds, ?_, rfl⟩
  · rw [split, List.append_assoc, List.cons_append]
  · exact shuts.concat fun early => follows.turned _ standing early

theorem filter_turned :
    (log ++ [Ruling.mk now false]).filter Ruling.admitted = log.filter Ruling.admitted := by
  rw [List.filter_append, List.filter_cons_of_neg (by simp), List.filter_nil, List.append_nil]

/-- An event in a block is turned away, and the gauge does not change. -/
theorem Gauges.blocked (gauges : limit.Gauges log g counted) (standing : g.Blocked now) :
    limit.Gauges (log ++ [⟨now, false⟩]) g counted := by
  obtain ⟨release, standing, early⟩ := standing
  obtain ⟨earlier, opening, since, split, exceeds, shuts, ends⟩ := gauges.opened release standing
  have follows : Follows g g ⟨now, false⟩ :=
    ⟨fun _ _ _ => rfl, fun release standing => ⟨release, standing, Nat.le_refl _⟩⟩
  have covers : limit.Covers log ⟨now, false⟩ [] earlier opening (since ++ [⟨now, false⟩]) := by
    refine ⟨?_, exceeds, ?_, .inr (ends ▸ early)⟩
    · rw [split, List.append_assoc, List.cons_append]
    · rw [List.append_nil]
      exact shuts.concat fun _ => rfl
  refine
    { gauges with
      among := ?_
      admitted := ?_
      sparse := ?_
      complete := fun none => ?_
      opened := fun release standing => gauges.opened_concat follows standing
      closed := fun before ruling after => gauges.closed_concat follows fun calm _ => ?_
      covered := fun before ruling after => gauges.covered_concat follows fun _ => ?_ }
  · rw [List.map_append]
    exact gauges.among.trans (List.sublist_append_left _ _)
  · rw [filter_turned]
    exact gauges.admitted
  · rw [filter_turned]
    exact gauges.sparse
  · rw [none] at standing
    cases standing
  · exact absurd exceeds (calm earlier opening since split)
  · exact ⟨earlier, opening, _, covers, release, standing, Nat.le_of_eq ends.symm⟩

/-- An event over the threshold counts, is turned away and begins a block. -/
theorem Gauges.opens (gauges : limit.Gauges log g counted)
    (past : ∀ time ∈ counted, time ≤ now) (free : ¬ g.Blocked now)
    (many : limit.threshold < (limit.counted g now).length) :
    limit.Gauges (log ++ [⟨now, false⟩]) ⟨limit.counted g now, some (now + limit.block)⟩
      (counted ++ [now]) := by
  have exceeds : limit.Exceeds log ⟨now, false⟩ := gauges.exceeds past many
  have shuts : limit.Shuts ⟨now, false⟩ [] := ⟨rfl, fun _ member => absurd member List.not_mem_nil⟩
  have follows : Follows g ⟨limit.counted g now, some (now + limit.block)⟩ ⟨now, false⟩ := by
    refine ⟨fun _ _ _ => rfl, fun release standing => ⟨now + limit.block, rfl, ?_⟩⟩
    have ended : ¬ now < release := fun early => free ⟨release, standing, early⟩
    omega
  have own : ∃ release ∈ some (now + limit.block), now + limit.block ≤ release :=
    ⟨now + limit.block, rfl, Nat.le_refl _⟩
  have counts : Counts limit (log ++ [⟨now, false⟩])
      ⟨limit.counted g now, some (now + limit.block)⟩ (counted ++ [now]) :=
    gauges.toCounts.next past _
  refine
    { counts with
      admitted := ?_
      sparse := ?_
      complete := fun none => by cases none
      opened := fun release standing => ?_
      closed := fun before ruling after => gauges.closed_concat follows fun _ _ => ⟨rfl, own⟩
      covered := fun before ruling after => gauges.covered_concat follows fun _ =>
        ⟨log, _, [], ⟨rfl, exceeds, shuts, .inl rfl⟩, own⟩ }
  · rw [filter_turned]
    exact gauges.admitted.trans (List.sublist_append_left _ _)
  · rw [filter_turned]
    exact gauges.sparse
  · obtain rfl := Option.mem_some_iff.mp standing
    exact ⟨log, _, [], rfl, exceeds, shuts, rfl⟩

/-- An event outside of any block and within the threshold is admitted. -/
theorem Gauges.admits (gauges : limit.Gauges log g counted)
    (past : ∀ time ∈ counted, time ≤ now) (admits : limit.Admits g now) :
    limit.Gauges (log ++ [⟨now, true⟩]) ⟨limit.counted g now, g.release⟩ (counted ++ [now]) := by
  have follows : Follows g ⟨limit.counted g now, g.release⟩ ⟨now, true⟩ := by
    refine ⟨fun release standing early => ?_, fun release standing =>
      ⟨release, standing, Nat.le_refl _⟩⟩
    exact absurd ⟨release, standing, early⟩ admits.1
  have within : limit.Calm log → ¬ limit.Exceeds log ⟨now, true⟩ := by
    intro calm exceeds
    exact absurd ((gauges.exceeds_iff past calm).mp exceeds) (Nat.not_lt.mpr admits.2)
  have times : ((log ++ [Ruling.mk now true]).filter Ruling.admitted).map Ruling.time =
      (log.filter Ruling.admitted).map Ruling.time ++ [now] := by
    rw [List.filter_append, List.filter_cons_of_pos rfl, List.filter_nil, List.map_append]
    rfl
  have counts : Counts limit (log ++ [⟨now, true⟩]) ⟨limit.counted g now, g.release⟩
      (counted ++ [now]) :=
    gauges.toCounts.next past _
  refine
    { counts with
      admitted := ?_
      sparse := ?_
      complete := fun none => ?_
      opened := fun release standing => gauges.opened_concat follows standing
      closed := fun before ruling after => gauges.closed_concat follows fun calm exceeds =>
        absurd exceeds (within calm)
      covered := fun before ruling after => gauges.covered_concat follows fun turned => by
        cases turned }
  · rw [times]
    exact gauges.admitted.append (List.Sublist.refl _)
  · rw [times, crowded_append fun time member => past time (gauges.admitted.subset member)]
    refine not_or.mpr ⟨gauges.sparse, Nat.not_lt.mpr (Nat.le_trans ?_ admits.2)⟩
    rw [gauges.toCounts.counted_eq past]
    exact List.Sublist.length_le (.filter _ (gauges.admitted.append (List.Sublist.refl _)))
  · obtain ⟨all, calm⟩ := gauges.complete none
    refine ⟨by rw [all, List.map_append]; rfl, fun before ruling after grown => ?_⟩
    obtain ⟨since, -, split⟩ | ⟨-, rfl, rfl⟩ := split_concat grown
    · exact calm before ruling since split
    · exact within calm

theorem Gauges.next (gauges : limit.Gauges log g counted)
    (past : ∀ ruling ∈ log, ruling.time ≤ now) :
    ∃ counted', limit.Gauges (log ++ [⟨now, limit.Admits g now⟩]) (limit.next g now) counted' := by
  have past' : ∀ time ∈ counted, time ≤ now := by
    intro time member
    obtain ⟨ruling, came, rfl⟩ := List.mem_map.mp (gauges.among.subset member)
    exact past ruling came
  by_cases standing : g.Blocked now
  · have turned : decide (limit.Admits g now) = false := by
      rw [decide_eq_false_iff_not]
      exact fun admits => admits.1 standing
    rw [turned, Limit.next, if_pos standing]
    exact ⟨counted, gauges.blocked standing⟩
  · rw [Limit.next, if_neg standing]
    by_cases many : limit.threshold < (limit.counted g now).length
    · have turned : decide (limit.Admits g now) = false := by
        rw [decide_eq_false_iff_not]
        exact fun admits => Nat.not_lt.mpr admits.2 many
      rw [turned, if_pos many]
      exact ⟨_, gauges.opens past' standing many⟩
    · have admits : limit.Admits g now := ⟨standing, Nat.not_lt.mp many⟩
      rw [decide_eq_true admits, if_neg many]
      exact ⟨_, gauges.admits past' admits⟩

/-! ## Whole runs -/

theorem Gauges.run {times : List Nat} (gauges : limit.Gauges log g counted)
    (past : ∀ ruling ∈ log, ∀ time ∈ times, ruling.time ≤ time)
    (ordered : times.Pairwise (· ≤ ·)) :
    ∃ g' counted', limit.Gauges (log ++ limit.rulings g times) g' counted' := by
  induction times generalizing log g counted with
  | nil =>
      rw [rulings, List.append_nil]
      exact ⟨g, counted, gauges⟩
  | cons now later ih =>
      have tail := List.pairwise_cons.mp ordered
      obtain ⟨counted', gauges'⟩ :=
        gauges.next fun ruling member => past ruling member now List.mem_cons_self
      rw [rulings, List.append_cons]
      refine ih gauges' (fun ruling member time after => ?_) tail.2
      obtain old | new := List.mem_append.mp member
      · exact past ruling old time (List.mem_cons_of_mem _ after)
      · rw [List.mem_singleton.mp new]
        exact tail.1 time after

/-- The rulings of every run obey the law of the limit. -/
theorem lawful_rulings {times : List Nat} (ordered : times.Pairwise (· ≤ ·)) :
    limit.Lawful (limit.rulings .fresh times) := by
  have empty : ∀ ruling ∈ ([] : List Ruling), ∀ time ∈ times, ruling.time ≤ time :=
    fun ruling member => absurd member List.not_mem_nil
  obtain ⟨g, counted, gauges⟩ := gauges_fresh.run empty ordered
  rw [List.nil_append] at gauges
  refine ⟨gauges.sparse, fun before ruling after split calm exceeds => ?_,
    fun before ruling after split turned => ?_⟩
  · exact (gauges.closed before ruling after split calm exceeds).1
  · obtain ⟨earlier, opening, since, covers, -⟩ :=
      gauges.covered before ruling after split turned
    exact ⟨earlier, opening, since, covers⟩

end Limit

end RateLimit
