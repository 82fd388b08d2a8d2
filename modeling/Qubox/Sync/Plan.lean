import Qubox.Sync.VectorClock

/-!
# Transfer plans

Each peer compares the manifest of the other with its own. What it plans for a
file depends on the two entries of the file only, so the two plans are compared
file by file.
-/

namespace Qubox.Sync

abbrev FileId := String

structure ManifestEntry where
  fileId : FileId
  clock : VectorClock
  hash : String
  size : UInt64

abbrev Manifest := AList (fun _ : FileId => ManifestEntry)

inductive TransferAction where
  | pull (id : FileId)
  | push (id : FileId)
  | conflict (id : FileId)
  | skip (id : FileId)
  deriving DecidableEq, Repr

namespace TransferAction

def fileId : TransferAction → FileId
  | pull id => id
  | push id => id
  | conflict id => id
  | skip id => id

/-- The same transfer as the other side sees it. -/
def mirror : TransferAction → TransferAction
  | pull id => .push id
  | push id => .pull id
  | conflict id => .conflict id
  | skip id => .skip id

end TransferAction

/-- The action for a file that both sides have. -/
def planCommon (id : FileId) (loc rem : ManifestEntry) : TransferAction :=
  match loc.clock.compare rem.clock with
  | .equal => if loc.hash ≠ rem.hash then .conflict id else .skip id
  | .behind => .pull id
  | .ahead => .push id
  | .conflict => .conflict id

/-- The files of the other side come first, in the order of its table, and then
those that were not seen among them. -/
def planTransfers (localFiles remoteFiles : Manifest) : List TransferAction :=
  let actions := remoteFiles.entries.map fun e =>
    match localFiles.lookup e.1 with
    | none => TransferAction.pull e.1
    | some loc => planCommon e.1 loc e.2
  let seen := remoteFiles.keys
  actions ++ (localFiles.keys.filter fun id => decide (id ∉ seen)).map .push

/-! ## The plan for one file -/

/-- What is planned for a file, from its entries on both sides. -/
def planFor (id : FileId) : Option ManifestEntry → Option ManifestEntry → Option TransferAction
  | none, none => none
  | none, some _ => some (.pull id)
  | some _, none => some (.push id)
  | some loc, some rem => some (planCommon id loc rem)

@[simp] theorem planCommon_fileId (id : FileId) (loc rem : ManifestEntry) :
    (planCommon id loc rem).fileId = id := by
  rw [planCommon]
  split
  · split <;> rfl
  all_goals rfl

theorem planCommon_mirror (id : FileId) (loc rem : ManifestEntry) :
    planCommon id rem loc = (planCommon id loc rem).mirror := by
  rw [planCommon, planCommon, VectorClock.compare_mirror loc.clock rem.clock]
  cases loc.clock.compare rem.clock with
  | ahead | behind | conflict => rfl
  | equal =>
      by_cases same : loc.hash = rem.hash
      · simp [ClockRelation.mirror, same, TransferAction.mirror]
      · simp [ClockRelation.mirror, same, Ne.symm same, TransferAction.mirror]

theorem planFor_mirror (id : FileId) (loc rem : Option ManifestEntry) :
    planFor id rem loc = (planFor id loc rem).map TransferAction.mirror := by
  cases loc with
  | none => cases rem <;> rfl
  | some loc =>
      cases rem with
      | none => rfl
      | some rem => exact congrArg some (planCommon_mirror id loc rem)

/-- The actions of a plan that are about one file. -/
def actionsFor (id : FileId) (plan : List TransferAction) : List TransferAction :=
  plan.filter fun action => decide (action.fileId = id)

theorem mem_actionsFor {id : FileId} {plan : List TransferAction} {action : TransferAction} :
    action ∈ actionsFor id plan ↔ action ∈ plan ∧ action.fileId = id := by
  rw [actionsFor, List.mem_filter, decide_eq_true_iff]

/-- The first loop of `plan_transfers`, for one file. -/
theorem actionsFor_remote (id : FileId) (localFiles remoteFiles : Manifest) :
    actionsFor id (remoteFiles.entries.map fun e =>
      match localFiles.lookup e.1 with
      | none => TransferAction.pull e.1
      | some loc => planCommon e.1 loc e.2) =
    ((remoteFiles.lookup id).map fun rem =>
      match localFiles.lookup id with
      | none => TransferAction.pull id
      | some loc => planCommon id loc rem).toList := by
  have about (e : Sigma fun _ : FileId => ManifestEntry) :
      (match localFiles.lookup e.1 with
        | none => TransferAction.pull e.1
        | some loc => planCommon e.1 loc e.2).fileId = e.1 := by
    split
    · rfl
    · exact planCommon_fileId _ _ _
  rw [actionsFor, List.filter_map]
  simp only [Function.comp_def, about]
  rw [AList.filter_entries, List.map_map, Option.toList_map]
  rfl

/-- The second loop, for one file. -/
theorem actionsFor_local (id : FileId) (localFiles : Manifest) (seen : List FileId) :
    actionsFor id ((localFiles.keys.filter fun id => decide (id ∉ seen)).map .push) =
      if id ∈ seen then [] else ((localFiles.lookup id).map fun _ => .push id).toList := by
  have about (other : FileId) : (TransferAction.push other).fileId = other := rfl
  rw [actionsFor, List.filter_map, List.filter_comm]
  simp only [Function.comp_def, about]
  rw [AList.filter_keys]
  cases localFiles.lookup id with
  | none => simp
  | some loc => by_cases known : id ∈ seen <;> simp [known]

theorem actionsFor_planTransfers (id : FileId) (localFiles remoteFiles : Manifest) :
    actionsFor id (planTransfers localFiles remoteFiles) =
      (planFor id (localFiles.lookup id) (remoteFiles.lookup id)).toList := by
  have split : actionsFor id (planTransfers localFiles remoteFiles) =
      actionsFor id (remoteFiles.entries.map _) ++ actionsFor id (List.map _ _) :=
    List.filter_append _ _
  rw [split, actionsFor_remote, actionsFor_local]
  cases found : remoteFiles.lookup id with
  | none =>
      have absent : id ∉ remoteFiles.keys := AList.lookup_eq_none.mp found
      rw [if_neg absent]
      cases localFiles.lookup id <;> rfl
  | some rem =>
      have present : id ∈ remoteFiles.keys := by
        rw [← AList.mem_keys, ← AList.lookup_isSome, found]
        rfl
      rw [if_pos present]
      cases localFiles.lookup id <;> rfl

theorem mem_planTransfers_iff {id : FileId} {localFiles remoteFiles : Manifest}
    {action : TransferAction} (about : action.fileId = id) :
    action ∈ planTransfers localFiles remoteFiles ↔
      planFor id (localFiles.lookup id) (remoteFiles.lookup id) = some action := by
  rw [← Option.mem_toList, ← actionsFor_planTransfers, mem_actionsFor]
  exact ⟨fun member => ⟨member, about⟩, fun member => member.1⟩

/-! ## The plans of two peers -/

/-- One action for each file that somebody has, and for no other; and the peer
plans the same transfers. -/
structure PlansAgree (localFiles remoteFiles : Manifest) : Prop where
  one : ∀ id, id ∈ localFiles ∨ id ∈ remoteFiles →
    ∃ action, actionsFor id (planTransfers localFiles remoteFiles) = [action]
  none : ∀ id, id ∉ localFiles → id ∉ remoteFiles →
    actionsFor id (planTransfers localFiles remoteFiles) = []
  mirrored : ∀ id, actionsFor id (planTransfers remoteFiles localFiles) =
    (actionsFor id (planTransfers localFiles remoteFiles)).map TransferAction.mirror

/-- A file with different entries is pushed by exactly one side. -/
def OnePushes (localFiles remoteFiles : Manifest) : Prop :=
  ∀ id, localFiles.lookup id ≠ remoteFiles.lookup id →
    ¬ (.push id ∈ planTransfers localFiles remoteFiles ∧
      .push id ∈ planTransfers remoteFiles localFiles) ∧
    ¬ (.push id ∉ planTransfers localFiles remoteFiles ∧
      .push id ∉ planTransfers remoteFiles localFiles)

/-- Both sides plan a conflict: they have the file with clocks in conflict, or with
equal clocks and different contents. -/
def BothConflict (id : FileId) (localFiles remoteFiles : Manifest) : Prop :=
  .conflict id ∈ planTransfers localFiles remoteFiles ∧
    .conflict id ∈ planTransfers remoteFiles localFiles ∧
    ∃ loc rem, localFiles.lookup id = some loc ∧ remoteFiles.lookup id = some rem ∧
      (loc.clock.compare rem.clock = .conflict ∨
        loc.clock.compare rem.clock = .equal ∧ loc.hash ≠ rem.hash)

/-- Both sides skip the file: they have it with equal clocks and the same contents. -/
def BothSkip (id : FileId) (localFiles remoteFiles : Manifest) : Prop :=
  .skip id ∈ planTransfers localFiles remoteFiles ∧
    .skip id ∈ planTransfers remoteFiles localFiles ∧
    ∃ loc rem, localFiles.lookup id = some loc ∧ remoteFiles.lookup id = some rem ∧
      loc.clock.compare rem.clock = .equal ∧ loc.hash = rem.hash

/-- No file is pushed by both sides, and a file of a side that is pushed by neither
is a conflict on both sides or skipped on both. -/
def PushesApart (localFiles remoteFiles : Manifest) : Prop :=
  ∀ id, ¬ (.push id ∈ planTransfers localFiles remoteFiles ∧
      .push id ∈ planTransfers remoteFiles localFiles) ∧
    (id ∈ localFiles ∨ id ∈ remoteFiles →
      .push id ∉ planTransfers localFiles remoteFiles →
      .push id ∉ planTransfers remoteFiles localFiles →
      BothConflict id localFiles remoteFiles ∨ BothSkip id localFiles remoteFiles)

theorem plansAgree (localFiles remoteFiles : Manifest) : PlansAgree localFiles remoteFiles := by
  refine ⟨fun id known => ?_, fun id first second => ?_, fun id => ?_⟩
  · rw [actionsFor_planTransfers]
    rcases known with known | known
    · obtain ⟨loc, found⟩ := Option.isSome_iff_exists.mp (AList.lookup_isSome.mpr known)
      rw [found]
      cases remoteFiles.lookup id with
      | none | some rem => exact ⟨_, rfl⟩
    · obtain ⟨rem, found⟩ := Option.isSome_iff_exists.mp (AList.lookup_isSome.mpr known)
      rw [found]
      cases localFiles.lookup id with
      | none | some loc => exact ⟨_, rfl⟩
  · rw [actionsFor_planTransfers, AList.lookup_eq_none.mpr first,
      AList.lookup_eq_none.mpr second]
    rfl
  · rw [actionsFor_planTransfers, actionsFor_planTransfers, planFor_mirror, Option.toList_map]

theorem push_mem_iff {id : FileId} {localFiles remoteFiles : Manifest} :
    .push id ∈ planTransfers localFiles remoteFiles ↔
      planFor id (localFiles.lookup id) (remoteFiles.lookup id) = some (.push id) :=
  mem_planTransfers_iff rfl

/-- An action that looks the same from both sides is in both plans. -/
theorem mem_both {id : FileId} {localFiles remoteFiles : Manifest} {loc rem : ManifestEntry}
    {action : TransferAction} (first : localFiles.lookup id = some loc)
    (second : remoteFiles.lookup id = some rem) (planned : planCommon id loc rem = action)
    (same : action.mirror = action) :
    action ∈ planTransfers localFiles remoteFiles ∧
      action ∈ planTransfers remoteFiles localFiles := by
  have about : action.fileId = id := planned ▸ planCommon_fileId id loc rem
  constructor
  · apply (mem_planTransfers_iff about).mpr
    rw [first, second]
    exact congrArg some planned
  · apply (mem_planTransfers_iff about).mpr
    rw [first, second, planFor, planCommon_mirror, planned, same]

/-- The plan for a file that both sides have, when no side pushes it. -/
theorem planCommon_of_silent {id : FileId} {loc rem : ManifestEntry}
    (silent : planCommon id loc rem ≠ .push id)
    (silentToo : (planCommon id loc rem).mirror ≠ .push id) :
    planCommon id loc rem = .conflict id ∧
        (loc.clock.compare rem.clock = .conflict ∨
          loc.clock.compare rem.clock = .equal ∧ loc.hash ≠ rem.hash) ∨
      planCommon id loc rem = .skip id ∧
        loc.clock.compare rem.clock = .equal ∧ loc.hash = rem.hash := by
  unfold planCommon at silent silentToo ⊢
  cases compared : loc.clock.compare rem.clock with
  | ahead =>
      rw [compared] at silent
      exact absurd rfl silent
  | behind =>
      rw [compared] at silentToo
      exact absurd rfl silentToo
  | conflict => exact .inl ⟨rfl, .inl rfl⟩
  | equal =>
      by_cases same : loc.hash = rem.hash
      · exact .inr ⟨if_neg (not_not_intro same), rfl, same⟩
      · exact .inl ⟨if_pos same, .inr ⟨rfl, same⟩⟩

theorem pushesApart (localFiles remoteFiles : Manifest) :
    PushesApart localFiles remoteFiles := by
  intro id
  rw [push_mem_iff, push_mem_iff, planFor_mirror id (localFiles.lookup id)]
  constructor
  · rintro ⟨pushed, mirrored⟩
    rw [pushed] at mirrored
    cases mirrored
  · intro known silent silentToo
    cases first : localFiles.lookup id with
    | none =>
        cases second : remoteFiles.lookup id with
        | none =>
            have unknown : ¬ (id ∈ localFiles ∨ id ∈ remoteFiles) :=
              not_or.mpr ⟨AList.lookup_eq_none.mp first, AList.lookup_eq_none.mp second⟩
            exact absurd known unknown
        | some rem =>
            rw [first, second] at silentToo
            exact absurd rfl silentToo
    | some loc =>
        cases second : remoteFiles.lookup id with
        | none =>
            rw [first, second] at silent
            exact absurd rfl silent
        | some rem =>
            rw [first, second] at silent silentToo
            have quiet : planCommon id loc rem ≠ .push id := fun pushed =>
              silent (congrArg some pushed)
            have quietToo : (planCommon id loc rem).mirror ≠ .push id := fun pushed =>
              silentToo (congrArg some pushed)
            rcases planCommon_of_silent quiet quietToo with
              ⟨planned, why⟩ | ⟨planned, compared, same⟩
            · obtain ⟨here, there⟩ := mem_both first second planned rfl
              exact .inl ⟨here, there, loc, rem, first, second, why⟩
            · obtain ⟨here, there⟩ := mem_both first second planned rfl
              exact .inr ⟨here, there, loc, rem, first, second, compared, same⟩

theorem plans_match (localFiles remoteFiles : Manifest) :
    PlansAgree localFiles remoteFiles ∧ PushesApart localFiles remoteFiles :=
  ⟨plansAgree localFiles remoteFiles, pushesApart localFiles remoteFiles⟩

namespace Sample

/-- A manifest of one file, last changed by this node. -/
def changedBy (node hash : String) (size : UInt64) : Manifest :=
  AList.singleton "f" ⟨"f", VectorClock.empty.bump node, hash, size⟩

end Sample

/-- Both sides changed the file, and neither pushes it. And entries that differ in
their sizes only are skipped on both sides. -/
theorem concurrentChange_not_onePushes :
    (¬ ∀ localFiles remoteFiles : Manifest,
      PlansAgree localFiles remoteFiles ∧ OnePushes localFiles remoteFiles) ∧
    (Sample.changedBy "a" "h" 1).lookup "f" ≠ (Sample.changedBy "a" "h" 2).lookup "f" ∧
    planTransfers (Sample.changedBy "a" "h" 1) (Sample.changedBy "a" "h" 2) = [.skip "f"] ∧
    planTransfers (Sample.changedBy "a" "h" 2) (Sample.changedBy "a" "h" 1) = [.skip "f"] := by
  refine ⟨fun always => ?_, fun same => ?_, by decide, by decide⟩
  · have pushes := (always (Sample.changedBy "a" "h1" 1) (Sample.changedBy "b" "h2" 1)).2
    have differ : (Sample.changedBy "a" "h1" 1).lookup "f" ≠
        (Sample.changedBy "b" "h2" 1).lookup "f" := by
      intro same
      have hashes := congrArg (Option.map ManifestEntry.hash) same
      revert hashes
      decide
    have here : planTransfers (Sample.changedBy "a" "h1" 1) (Sample.changedBy "b" "h2" 1) =
        [.conflict "f"] := by decide
    have there : planTransfers (Sample.changedBy "b" "h2" 1) (Sample.changedBy "a" "h1" 1) =
        [.conflict "f"] := by decide
    obtain ⟨-, one⟩ := pushes "f" differ
    rw [here, there] at one
    exact one (by decide)
  · have sizes := congrArg (Option.map ManifestEntry.size) same
    revert sizes
    decide

end Qubox.Sync
