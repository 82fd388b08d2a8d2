import Qubox.Sync.Sensors

/-!
# Which files a rule selects

`evaluate_watch_event` decides for one rule whether a changed file is to be sent,
and the watch loop decides for all rules at once which of them a change is
reported for. The first takes a root for a text that the path begins with, so it
also selects files beside the root; the second puts the ignores of all rules
together, so that one rule can suppress the files of another.
-/

namespace Qubox.Sync.Sensors

open Interaction

inductive WatchAction where
  | enqueue
  | ignored
  | lockedByProcess
  | outsideRule
  deriving DecidableEq, Repr

/-- Whether the path begins with a root, as a text or by its components. -/
def underRule (path : String) (rule : SyncRule) : Bool :=
  rule.paths.any fun root =>
    root.toList.isPrefixOf path.toList || UnixPath.startsWith path root

def evaluateWatchEvent (path : String) (rule : SyncRule) (runningProcesses : List String)
    (globalIgnores : List String) : WatchAction :=
  if !rule.enabled then .outsideRule
  else if !underRule path rule then .outsideRule
  else if shouldIgnorePath path (globalIgnores ++ rule.ignoreGlobs) then .ignored
  else if processMatches runningProcesses rule.processNames then .lockedByProcess
  else .enqueue

/-- The rule for which the watch loop reports a change, as far as roots and ignores
are concerned. -/
def decision (rules : List SyncRule) (globalIgnores : List String) (path : String) :
    Option SyncRule :=
  if shouldIgnorePath path (globalIgnores ++ rules.flatMap SyncRule.ignoreGlobs) then none
  else (matchingRule rules path).map Prod.fst

/-- What the loop does once it has decided for a rule. -/
def reportFor (rule : SyncRule) (nodeId : NodeId) (path : String) :
    Program signature Empty Unit := do
  if !(← perform (.isFile path)) then
    return
  else
    let targetPeer := rule.peerIds.head?.getD ""
    if targetPeer = "" then
      return
    else
      match ← perform .connect with
      | .error _ => return
      | .ok () => notify (.syncFileChanged path (some rule.ruleId) nodeId targetPeer)

/-! ## What they are for -/

/-- The path lies in a root of the rule, component by component. -/
def Inside (path : String) (rule : SyncRule) : Prop :=
  rule.paths.any (UnixPath.startsWith path) = true

/-- An enabled rule selects the files in its roots that are not ignored, while none of
its programs runs. -/
def SelectsBelow (path : String) (rule : SyncRule) (processes globalIgnores : List String) :
    Prop :=
  rule.enabled = true →
    (evaluateWatchEvent path rule processes globalIgnores = .enqueue ↔
      Inside path rule ∧ shouldIgnorePath path (globalIgnores ++ rule.ignoreGlobs) = false ∧
        processMatches processes rule.processNames = false)

/-- The loop reports for a rule that selects the file, and skips a file that no rule
selects. -/
structure AgreesWithLoop (path : String) (rules : List SyncRule) (globalIgnores : List String) :
    Prop where
  reports : ∀ rule, decision rules globalIgnores path = some rule →
    evaluateWatchEvent path rule [] globalIgnores = .enqueue
  skips : decision rules globalIgnores path = none →
    ∀ rule ∈ rules, evaluateWatchEvent path rule [] globalIgnores ≠ .enqueue

/-- The path begins with a root as a text, lies in none, and nothing else speaks against
it. -/
def Stray (path : String) (rule : SyncRule) (processes globalIgnores : List String) : Prop :=
  rule.enabled = true ∧ underRule path rule = true ∧ ¬ Inside path rule ∧
    shouldIgnorePath path (globalIgnores ++ rule.ignoreGlobs) = false ∧
      processMatches processes rule.processNames = false

/-- Whether a glob of the rule hits the path. -/
def ruleHits (path : String) (rule : SyncRule) : Bool :=
  rule.ignoreGlobs.any fun glob =>
    globHits path ((UnixPath.fileName path).getD "").toLower glob.toLower

/-- A path that some rule covers and does not ignore lies in a root of an enabled rule,
and no rule ignores it. -/
def Undisputed (path : String) (rules : List SyncRule) (globalIgnores : List String) : Prop :=
  ∀ rule ∈ rules, rule.enabled = true → underRule path rule = true →
    shouldIgnorePath path (globalIgnores ++ rule.ignoreGlobs) = false →
      (∃ other ∈ rules, other.enabled = true ∧ Inside path other) ∧
        ∀ other ∈ rules, ruleHits path other = false

section Laws

variable {path : String} {rule : SyncRule} {rules : List SyncRule}
  {processes globalIgnores : List String}

theorem evaluate_eq_enqueue :
    evaluateWatchEvent path rule processes globalIgnores = .enqueue ↔
      rule.enabled = true ∧ underRule path rule = true ∧
        shouldIgnorePath path (globalIgnores ++ rule.ignoreGlobs) = false ∧
          processMatches processes rule.processNames = false := by
  rw [evaluateWatchEvent]
  cases rule.enabled <;> cases underRule path rule <;>
    cases shouldIgnorePath path (globalIgnores ++ rule.ignoreGlobs) <;>
      cases processMatches processes rule.processNames <;> simp

theorem underRule_of_inside (inside : Inside path rule) : underRule path rule = true := by
  obtain ⟨root, listed, starts⟩ := List.any_eq_true.mp inside
  exact List.any_eq_true.mpr ⟨root, listed, by rw [starts, Bool.or_true]⟩

theorem shouldIgnorePath_append (first second : List String) :
    shouldIgnorePath path (first ++ second) =
      (shouldIgnorePath path first || second.any fun glob =>
        globHits path ((UnixPath.fileName path).getD "").toLower glob.toLower) := by
  simp only [shouldIgnorePath, List.any_append, Bool.or_assoc]

/-- No process runs, so none matches. -/
theorem processMatches_nil (matchers : List String) : processMatches [] matchers = false := by
  simp [processMatches]

/-- The pooled ignores hit a path if the global ones do or those of a rule. -/
theorem pooled_eq_false :
    shouldIgnorePath path (globalIgnores ++ rules.flatMap SyncRule.ignoreGlobs) = false ↔
      shouldIgnorePath path globalIgnores = false ∧ ∀ rule ∈ rules, ruleHits path rule = false := by
  rw [shouldIgnorePath_append, Bool.or_eq_false_iff, List.any_flatMap, List.any_eq_false]
  simp only [ruleHits, Bool.not_eq_true]

theorem own_eq_false :
    shouldIgnorePath path (globalIgnores ++ rule.ignoreGlobs) = false ↔
      shouldIgnorePath path globalIgnores = false ∧ ruleHits path rule = false := by
  rw [shouldIgnorePath_append, Bool.or_eq_false_iff]
  rfl

/-- The rule decided for is the first enabled one with the path in a root. -/
theorem decision_eq_some (found : decision rules globalIgnores path = some rule) :
    rule ∈ rules ∧ rule.enabled = true ∧ Inside path rule ∧
      shouldIgnorePath path (globalIgnores ++ rule.ignoreGlobs) = false := by
  rw [decision] at found
  split at found
  case isTrue => cases found
  case isFalse pooled =>
    rw [Bool.not_eq_true, pooled_eq_false] at pooled
    obtain ⟨⟨chosen, peer⟩, matched, rfl⟩ := Option.map_eq_some_iff.mp found
    obtain ⟨first, search, same⟩ := Option.map_eq_some_iff.mp matched
    cases same
    obtain ⟨listed, enabled⟩ := List.mem_filter.mp (List.mem_of_find?_eq_some search)
    have inside : Inside path chosen :=
      List.find?_some (p := fun rule : SyncRule => rule.paths.any (UnixPath.startsWith path)) search
    exact ⟨listed, enabled, inside, own_eq_false.mpr ⟨pooled.1, pooled.2 _ listed⟩⟩

theorem decision_eq_none : decision rules globalIgnores path = none ↔
    shouldIgnorePath path (globalIgnores ++ rules.flatMap SyncRule.ignoreGlobs) = true ∨
      ∀ rule ∈ rules, rule.enabled = true → ¬ Inside path rule := by
  rw [decision]
  split
  case isTrue pooled => exact iff_of_true rfl (.inl pooled)
  case isFalse pooled =>
    rw [Option.map_eq_none_iff, matchingRule, Option.map_eq_none_iff, List.find?_eq_none,
      or_iff_right pooled]
    simp only [List.mem_filter, and_imp, Inside]

/-- A change is reported for the rule decided for. -/
theorem reportChange_of_some (nodeId : NodeId)
    (decided : decision rules globalIgnores path = some rule) :
    reportChange rules nodeId globalIgnores path = reportFor rule nodeId path := by
  rw [decision] at decided
  split at decided
  case isTrue => cases decided
  case isFalse pooled =>
    obtain ⟨⟨chosen, targetPeer⟩, matched, rfl⟩ := Option.map_eq_some_iff.mp decided
    obtain ⟨first, -, same⟩ := Option.map_eq_some_iff.mp matched
    cases same
    rw [reportChange, matched, if_neg pooled]
    rfl

/-- Without a decision nothing is reported. -/
theorem reportChange_of_none (nodeId : NodeId)
    (decided : decision rules globalIgnores path = none) :
    (reportChange rules nodeId globalIgnores path).Upholds (fun _ _ => True)
      (fun a : Action => ∀ request, a ≠ .send request) (fun _ => True) := by
  rw [decision] at decided
  rw [reportChange]
  split at decided
  case isTrue pooled =>
    rw [if_pos pooled]
    trivial
  case isFalse pooled =>
    rw [if_neg pooled, Option.map_eq_none_iff.mp decided]
    refine ⟨?_, fun isFile _ => ?_⟩
    · intro request same
      cases same
    · cases isFile <;> trivial

theorem selectsBelow_iff :
    SelectsBelow path rule processes globalIgnores ↔
      ¬ Stray path rule processes globalIgnores := by
  rw [SelectsBelow, evaluate_eq_enqueue, Stray]
  have under : Inside path rule → underRule path rule = true := underRule_of_inside
  tauto

theorem agreesWithLoop_iff :
    AgreesWithLoop path rules globalIgnores ↔ Undisputed path rules globalIgnores := by
  constructor
  · intro agrees rule listed enabled under kept
    have selected : evaluateWatchEvent path rule [] globalIgnores = .enqueue :=
      evaluate_eq_enqueue.mpr ⟨enabled, under, kept, processMatches_nil _⟩
    cases decided : decision rules globalIgnores path with
    | none => exact absurd selected (agrees.skips decided rule listed)
    | some chosen =>
        obtain ⟨among, chosenEnabled, inside, -⟩ := decision_eq_some decided
        refine ⟨⟨chosen, among, chosenEnabled, inside⟩, ?_⟩
        have pooled : shouldIgnorePath path
            (globalIgnores ++ rules.flatMap SyncRule.ignoreGlobs) = false := by
          rw [decision] at decided
          split at decided
          case isTrue => cases decided
          case isFalse pooled => exact Bool.eq_false_iff.mpr pooled
        exact (pooled_eq_false.mp pooled).2
  · intro undisputed
    constructor
    · intro rule decided
      obtain ⟨-, enabled, inside, kept⟩ := decision_eq_some decided
      exact evaluate_eq_enqueue.mpr
        ⟨enabled, underRule_of_inside inside, kept, processMatches_nil _⟩
    · intro decided rule listed selected
      obtain ⟨enabled, under, kept, -⟩ := evaluate_eq_enqueue.mp selected
      obtain ⟨⟨other, among, otherEnabled, inside⟩, free⟩ :=
        undisputed rule listed enabled under kept
      rcases decision_eq_none.mp decided with pooled | none
      · have fine := pooled_eq_false.mpr ⟨(own_eq_false.mp kept).1, free⟩
        exact Bool.false_ne_true (fine.symm.trans pooled)
      · exact none other among otherEnabled inside

end Laws

/-- A rule selects exactly the files below its roots unless the path strays, and the
loop agrees exactly if the rules do not dispute the path. -/
theorem selection_iff (path : String) (rule : SyncRule) (rules : List SyncRule)
    (processes globalIgnores : List String) :
    (SelectsBelow path rule processes globalIgnores ↔
      ¬ Stray path rule processes globalIgnores) ∧
    (AgreesWithLoop path rules globalIgnores ↔ Undisputed path rules globalIgnores) :=
  ⟨selectsBelow_iff, agreesWithLoop_iff⟩

namespace Sample

def savesIn (root : String) (ignoreGlobs : List String) : SyncRule where
  ruleId := root
  paths := [root]
  processNames := []
  peerIds := ["deck"]
  enabled := true
  maxFileBytes := 1048576
  ignoreGlobs := ignoreGlobs

/-- A file beside the root is selected, and a file in one root is suppressed by the
ignores of the rule for another. -/
theorem saves_not_selected :
    ¬ SelectsBelow "/tmp/saves2/x" (savesIn "/tmp/saves" []) [] [] ∧
      ¬ AgreesWithLoop "/tmp/saves/game.sav"
        [savesIn "/tmp/saves" [], savesIn "/tmp/photos" ["*.sav"]] [] := by
  constructor
  · intro selects
    have enqueued : evaluateWatchEvent "/tmp/saves2/x" (savesIn "/tmp/saves" []) [] [] =
        .enqueue := by
      decide +kernel
    have outside : ¬ Inside "/tmp/saves2/x" (savesIn "/tmp/saves" []) := by
      rw [Inside]
      decide
    exact outside ((selects rfl).mp enqueued).1
  · intro agrees
    have skipped : decision [savesIn "/tmp/saves" [], savesIn "/tmp/photos" ["*.sav"]] []
        "/tmp/saves/game.sav" = none := by
      have pooled : shouldIgnorePath "/tmp/saves/game.sav" ([] ++
          [savesIn "/tmp/saves" [], savesIn "/tmp/photos" ["*.sav"]].flatMap
            SyncRule.ignoreGlobs) = true := by decide +kernel
      exact decision_eq_none.mpr (.inl pooled)
    exact agrees.skips skipped _ List.mem_cons_self (by decide +kernel)

end Sample

end Qubox.Sync.Sensors
