import Mathlib.Data.List.TakeWhile
import Qubox.FileSync.Header
import Qubox.Library.Checked
import Qubox.Library.Disk
import Qubox.Library.Numeral
import Qubox.Library.UnixPath
import Qubox.Signaling.IceFilter

/-!
# The PID file

Before the daemon writes its PID file it looks whether the process of an old one
is alive. It looks by sending signals that terminate: a process that is found is
killed, and the number is read as unsigned but addressed as signed, so that zero
and the upper half of its range address groups of processes.

Looking is harmless exactly if the number is no process and addresses none.
-/

namespace Qubox.Daemon

open Checked (asI32 asI32_small asI32_large)
open FileSync (fromUtf8 utf8 fromUtf8_utf8)

inductive Signal where
  | sigterm
  | sigkill
  deriving DecidableEq, Repr

structure Process where
  pid : Nat
  group : Nat
  /-- The daemon has permission to signal it. -/
  permitted : Bool
  deriving DecidableEq, Repr

/-- The live processes, the daemon among them. -/
structure ProcessTable where
  processes : List Process
  caller : Process
  pids : ∀ p ∈ processes, 0 < p.pid ∧ p.pid < 2 ^ 31
  distinct : (processes.map Process.pid).Nodup
  running : caller ∈ processes
  self : caller.permitted = true

inductive Event where
  | delivered (pid : Nat) (signal : Signal)
  | unlinked (path : String)
  deriving DecidableEq, Repr

namespace ProcessTable

variable (table : ProcessTable)

/-- The process is one of those that a pid argument of `kill` stands for. -/
def addresses (pid : Int) (p : Process) : Bool :=
  if 0 < pid then p.pid = pid
  else if pid = 0 then p.group = table.caller.group
  else if pid = -1 then true
  else p.group = -pid

/-- Whether `kill` succeeds, and what it delivers. It fails if there is no process to
signal or no permission for any. -/
def kill (pid : Int) (signal : Signal) : Bool × List Event :=
  let reached := table.processes.filter fun p => table.addresses pid p && p.permitted
  (!reached.isEmpty, reached.map fun p => .delivered p.pid signal)

def isPidAlive (pid : Nat) : Bool × List Event :=
  let (terminated, requested) := table.kill (asI32 pid) .sigterm
  if terminated then (true, requested)
  else
    let (killed, forced) := table.kill (asI32 pid) .sigkill
    (killed, requested ++ forced)

end ProcessTable

inductive IoErrorKind where
  | invalidData
  | other
  deriving DecidableEq, Repr

structure IoError where
  kind : IoErrorKind
  message : String
  deriving DecidableEq, Repr

/-- The number in a PID file. -/
def readPid (content : Bytes) : Except IoError Nat :=
  match fromUtf8 content with
  | .error _ => .error ⟨.invalidData, "stream did not contain valid UTF-8"⟩
  | .ok text =>
    match Numeral.parse 32 (trim text.toList) with
    | .error e => .error ⟨.invalidData, "bad PID: " ++ e.text⟩
    | .ok pid => .ok pid

/-- How a call ends, the disk it leaves, and the signals and removals on the way. -/
structure Outcome where
  result : Except IoError Unit
  disk : Disk String
  events : List Event

def removePidfile (disk : Disk String) (path : String) : Disk String × List Event :=
  (disk.remove path, [.unlinked path])

def cleanupStalePidfile (table : ProcessTable) (disk : Disk String) (path : String) : Outcome :=
  match disk.content? path with
  | none => ⟨.ok (), disk, []⟩
  | some content =>
    match readPid content with
    | .error e => ⟨.error e, disk, []⟩
    | .ok pid =>
      let (alive, signals) := table.isPidAlive pid
      if alive then ⟨.ok (), disk, signals⟩
      else
        let (disk, removals) := removePidfile disk path
        ⟨.ok (), disk, signals ++ removals⟩

/-- A step of writing the file. -/
inductive WriteStep where
  | create
  | writeAll (written : Nat)
  | syncAll
  | rename

def tmpPath (path : String) : String :=
  UnixPath.join ((UnixPath.parent path).getD ".")
    ("." ++ (UnixPath.fileName path).getD "pid" ++ ".tmp")

/-- Writes the file, unless one of the steps fails. An error of the cleanup is dropped. -/
def writePidfile (table : ProcessTable) (disk : Disk String) (path : String)
    (fault : Option (WriteStep × IoError)) : Outcome :=
  let cleaned := cleanupStalePidfile table disk path
  let content := utf8 (table.caller.pid.repr ++ "\n")
  let (tmp, created) := cleaned.disk.create (tmpPath path)
  let written := created.write tmp 0 content
  match fault with
  | some (.create, e) => ⟨.error e, cleaned.disk, cleaned.events⟩
  | some (.writeAll n, e) => ⟨.error e, created.write tmp 0 (content.take n), cleaned.events⟩
  | some (.syncAll, e) => ⟨.error e, written, cleaned.events⟩
  | some (.rename, e) => ⟨.error e, written, cleaned.events⟩
  | none => ⟨.ok (), written.rename (tmpPath path) path, cleaned.events⟩

/-- The PID file at a path holds a number. -/
def HoldsPid (disk : Disk String) (path : String) (pid : Nat) : Prop :=
  ∃ content, disk.content? path = some content ∧ readPid content = .ok pid

namespace ProcessTable

def Live (table : ProcessTable) (pid : Nat) : Prop := ∃ p ∈ table.processes, p.pid = pid

/-- No process gets a signal, and the file is removed exactly if it held the number
of no live process. -/
structure Harmless (table : ProcessTable) (disk : Disk String) (path : String)
    (events : List Event) : Prop where
  unharmed : ∀ pid signal, .delivered pid signal ∉ events
  removed : .unlinked path ∈ events ↔ ∃ pid, HoldsPid disk path pid ∧ ¬ table.Live pid

/-- The number is no process, and stands for no group with a process that the daemon
may signal. -/
structure Unaddressed (table : ProcessTable) (pid : Nat) : Prop where
  dead : ¬ table.Live pid
  not_own_group : pid ≠ 0
  not_all : pid ≠ 2 ^ 32 - 1
  not_group : 2 ^ 31 ≤ pid → ∀ p ∈ table.processes, p.permitted = true → p.group ≠ 2 ^ 32 - pid

/-! ## Which processes a number reaches -/

/-- A process gets a signal when the number is looked up. -/
def Reached (table : ProcessTable) (pid : Nat) (p : Process) : Prop :=
  p ∈ table.processes ∧ table.addresses (asI32 pid) p = true ∧ p.permitted = true

variable {table : ProcessTable} {pid : Nat}

/-- The second signal is only tried where the first reached nothing. -/
theorem isPidAlive_eq (table : ProcessTable) (pid : Nat) :
    table.isPidAlive pid = table.kill (asI32 pid) .sigterm := by
  rw [isPidAlive, kill, kill]
  cases table.processes.filter fun p => table.addresses (asI32 pid) p && p.permitted with
  | nil | cons p rest => rfl

theorem isPidAlive_eq_true : (table.isPidAlive pid).1 = true ↔ ∃ p, table.Reached pid p := by
  rw [isPidAlive_eq]
  simp [kill, Reached]

theorem mem_isPidAlive {event : Event} :
    event ∈ (table.isPidAlive pid).2 ↔
      ∃ p, table.Reached pid p ∧ .delivered p.pid .sigterm = event := by
  rw [isPidAlive_eq]
  simp [kill, Reached, and_assoc]

theorem reached_caller (own : table.addresses (asI32 pid) table.caller = true) :
    table.Reached pid table.caller :=
  ⟨table.running, own, table.self⟩

/-- The processes that a number reaches are none, and it is no process, exactly if it
stands for none. -/
theorem unaddressed_iff (word : pid < 2 ^ 32) :
    table.Unaddressed pid ↔ (∀ p, ¬ table.Reached pid p) ∧ ¬ table.Live pid := by
  constructor
  · rintro ⟨dead, not_own_group, not_all, not_group⟩
    refine ⟨?_, dead⟩
    rintro p ⟨running, addressed, permitted⟩
    rw [addresses] at addressed
    by_cases small : pid < 2 ^ 31
    · rw [asI32_small small, if_pos (by omega), decide_eq_true_eq] at addressed
      exact dead ⟨p, running, by omega⟩
    · rw [asI32_large (by omega) word, if_neg (by omega), if_neg (by omega), if_neg (by omega),
        decide_eq_true_eq] at addressed
      exact not_group (by omega) p running permitted (by omega)
  · rintro ⟨nobody, dead⟩
    constructor
    · exact dead
    · rintro rfl
      apply nobody table.caller (reached_caller _)
      rw [addresses, asI32_small (by omega), if_neg (by omega), if_pos (by omega),
        decide_eq_true_eq]
    · intro last
      apply nobody table.caller (reached_caller _)
      rw [addresses, asI32_large (by omega) word, if_neg (by omega), if_neg (by omega),
        if_pos (by omega)]
    · intro large p running permitted group
      apply nobody p
      refine ⟨running, ?_, permitted⟩
      rw [addresses, asI32_large large word, if_neg (by omega), if_neg (by omega)]
      split
      · rfl
      · rw [decide_eq_true_eq]
        omega

end ProcessTable

/-! ## The events of a call -/

variable {table : ProcessTable} {disk : Disk String} {path : String} {pid : Nat}

theorem HoldsPid.lt (holds : HoldsPid disk path pid) : pid < 2 ^ 32 := by
  obtain ⟨content, -, read⟩ := holds
  rw [readPid] at read
  split at read
  · cases read
  · split at read
    · cases read
    · rename_i number
      cases read
      exact Numeral.parse_lt number

theorem HoldsPid.unique {other : Nat} (holds : HoldsPid disk path pid)
    (also : HoldsPid disk path other) : pid = other := by
  obtain ⟨content, found, read⟩ := holds
  obtain ⟨content', found', read'⟩ := also
  obtain rfl := Option.some.inj (found.symm.trans found')
  exact Except.ok.inj (read.symm.trans read')

/-- Without a number there is nothing to look up. -/
theorem events_of_not_holds (holds : ∀ pid, ¬ HoldsPid disk path pid) :
    (cleanupStalePidfile table disk path).events = [] := by
  rw [cleanupStalePidfile]
  split
  · rfl
  · rename_i content found
    split
    · rfl
    · rename_i pid read
      exact absurd ⟨content, found, read⟩ (holds pid)

theorem events_of_holds (holds : HoldsPid disk path pid) :
    (cleanupStalePidfile table disk path).events =
      (table.isPidAlive pid).2 ++
        if (table.isPidAlive pid).1 then [] else [.unlinked path] := by
  obtain ⟨content, found, read⟩ := holds
  rw [cleanupStalePidfile, found]
  simp only [read]
  split
  case isTrue => rw [List.append_nil]
  case isFalse => rfl

theorem events_writePidfile (fault : Option (WriteStep × IoError)) :
    (writePidfile table disk path fault).events =
      (cleanupStalePidfile table disk path).events := by
  rw [writePidfile]
  match fault with
  | none => rfl
  | some (.create, _) => rfl
  | some (.writeAll _, _) => rfl
  | some (.syncAll, _) => rfl
  | some (.rename, _) => rfl

theorem unlinked_mem_iff (holds : HoldsPid disk path pid) :
    .unlinked path ∈ (cleanupStalePidfile table disk path).events ↔
      ∀ p, ¬ table.Reached pid p := by
  rw [events_of_holds holds, List.mem_append, table.mem_isPidAlive, ← not_exists,
    ← ProcessTable.isPidAlive_eq_true]
  cases (table.isPidAlive pid).1 <;> simp

theorem cleanup_harmless_iff :
    table.Harmless disk path (cleanupStalePidfile table disk path).events ↔
      ∀ pid, HoldsPid disk path pid → table.Unaddressed pid := by
  constructor
  · intro harmless pid holds
    have nobody : ∀ p, ¬ table.Reached pid p := by
      intro p reached
      apply harmless.unharmed p.pid .sigterm
      rw [events_of_holds holds]
      exact List.mem_append_left _ (ProcessTable.mem_isPidAlive.mpr ⟨p, reached, rfl⟩)
    obtain ⟨other, also, dead⟩ := harmless.removed.mp ((unlinked_mem_iff holds).mpr nobody)
    obtain rfl := holds.unique also
    exact (ProcessTable.unaddressed_iff holds.lt).mpr ⟨nobody, dead⟩
  · intro unaddressed
    by_cases holds : ∃ pid, HoldsPid disk path pid
    · obtain ⟨pid, holds⟩ := holds
      obtain ⟨nobody, dead⟩ := (ProcessTable.unaddressed_iff holds.lt).mp (unaddressed pid holds)
      constructor
      · intro victim signal delivered
        rw [events_of_holds holds, List.mem_append, ProcessTable.mem_isPidAlive] at delivered
        rcases delivered with ⟨p, reached, -⟩ | unlinked
        · exact nobody p reached
        · split at unlinked
          · exact List.not_mem_nil unlinked
          · exact nomatch List.mem_singleton.mp unlinked
      · exact iff_of_true ((unlinked_mem_iff holds).mpr nobody) ⟨pid, holds, dead⟩
    · have none := not_exists.mp holds
      rw [events_of_not_holds none]
      constructor
      · intro pid signal
        exact List.not_mem_nil
      · refine iff_of_false List.not_mem_nil ?_
        rintro ⟨pid, holds, -⟩
        exact none pid holds

/-- Looking at the PID file and writing it harm nobody exactly if a number in it stands
for no process. -/
theorem pidfile_harmless_iff (table : ProcessTable) (disk : Disk String) (path : String)
    (fault : Option (WriteStep × IoError)) :
    (table.Harmless disk path (cleanupStalePidfile table disk path).events ∧
        table.Harmless disk path (writePidfile table disk path fault).events) ↔
      ∀ pid, HoldsPid disk path pid → table.Unaddressed pid := by
  rw [events_writePidfile, and_self]
  exact cleanup_harmless_iff

/-! ## The file that is written -/

theorem not_isWhitespace_of_isDigit {c : Char} (digit : c.isDigit = true) :
    isWhitespace c = false := by
  have bounds : 48 ≤ c.toNat ∧ c.toNat ≤ 57 := Char.isDigit_iff_toNat.mp digit
  simp only [isWhitespace, Bool.or_eq_false_iff, Bool.and_eq_false_iff, decide_eq_false_iff_not]
  omega

theorem dropWhile_digits {text : List Char} (all : ∀ c ∈ text, c.isDigit = true) :
    text.dropWhile isWhitespace = text := by
  apply List.dropWhile_eq_self_iff.mpr
  intro some blank
  rw [not_isWhitespace_of_isDigit (all _ (List.getElem_mem some))] at blank
  exact Bool.false_ne_true blank

/-- A line of digits is trimmed to the digits. -/
theorem trim_line {digits : List Char} (all : ∀ c ∈ digits, c.isDigit = true) :
    trim (digits ++ ['\n']) = digits := by
  have reversed : ∀ c ∈ digits.reverse, c.isDigit = true := by
    intro c member
    exact all c (List.mem_reverse.mp member)
  cases digits with
  | nil => rfl
  | cons c rest =>
      have front : (c :: rest ++ ['\n']).dropWhile isWhitespace = c :: rest ++ ['\n'] := by
        apply List.dropWhile_cons_of_neg
        rw [not_isWhitespace_of_isDigit (all c List.mem_cons_self)]
        exact Bool.false_ne_true
      rw [trim, front, List.reverse_append, List.reverse_singleton, List.singleton_append,
        List.dropWhile_cons_of_pos (by decide), dropWhile_digits reversed, List.reverse_reverse]

theorem readPid_repr (word : pid < 2 ^ 32) : readPid (utf8 (pid.repr ++ "\n")) = .ok pid := by
  have digits : ∀ c ∈ pid.repr.toList, c.isDigit = true := by
    rw [Nat.toList_repr]
    intro c digit
    exact Nat.isDigit_of_mem_toDigits (by decide) (by decide) digit
  rw [readPid, fromUtf8_utf8]
  simp only [String.toList_append]
  rw [show "\n".toList = ['\n'] from rfl, trim_line digits, Numeral.parse_repr word]

/-- A file that was written holds the daemon's own number. -/
theorem writePidfile_holds (table : ProcessTable) (disk : Disk String) (path : String) :
    HoldsPid (writePidfile table disk path none).disk path table.caller.pid := by
  have word := (table.pids table.caller table.running).2
  have created := Disk.create_holds (cleanupStalePidfile table disk path).disk (tmpPath path)
  have written := created.append (utf8 (table.caller.pid.repr ++ "\n"))
  exact ⟨_, (written.renamed path).content?, readPid_repr (by omega)⟩

namespace Sample

/-- The daemon and another process of its user. -/
def twoProcesses : ProcessTable where
  processes := [⟨4000, 4000, true⟩, ⟨4242, 4242, true⟩]
  caller := ⟨4000, 4000, true⟩
  pids := by decide
  distinct := by decide
  running := by decide
  self := rfl

def pidPath : String := "/run/user/1000/qubox/qubox-daemon.pid"

/-- A disk with one file, as an earlier daemon left it. -/
def oldPidfile (content : String) : Disk String where
  names path := if path = pidPath then some 0 else none
  files _ := utf8 content
  next := 1
  allocated := by
    intro path file named
    split at named
    · exact Option.some.inj named ▸ Nat.zero_lt_one
    · cases named

/-- The number has been given to another process since. -/
theorem recycled_not_harmless :
    ¬ ∀ (table : ProcessTable) (disk : Disk String) (path : String)
      (fault : Option (WriteStep × IoError)),
      table.Harmless disk path (cleanupStalePidfile table disk path).events ∧
        table.Harmless disk path (writePidfile table disk path fault).events := by
  intro harmless
  have held : HoldsPid (oldPidfile "4242\n") pidPath 4242 :=
    ⟨utf8 "4242\n", rfl, by rw [readPid, fromUtf8_utf8]; decide⟩
  apply (harmless twoProcesses (oldPidfile "4242\n") pidPath none).1.unharmed 4242 .sigterm
  rw [events_of_holds held]
  decide

end Sample

end Qubox.Daemon
