import Qubox.Host.Rotation
import Qubox.Host.SignalingLoop

/-!
# Updates of the PIN

The host keeps its PIN policy in memory and in a file next to its identity file. An update that
the cloud pushes has to come with a proof. Without a stored PIN the proofs are not looked at,
memory is replaced before the file is written, and a file that is not a policy is read as a
policy that asks for nothing. Argon2id and the JSON form of the file are parameters.
-/

namespace Qubox.Host.Pin

open FileSync (utf8 fromUtf8 fromUtf8_utf8)
open Identity (keyBytes hexDecode hexDecode_hexEncode)
open Interaction
open RecoveryStore (perform raise orFail placeFile tmpPath directoryOf)
open Update (hexEncode)

def pinHashAlgo : String := "argon2id-v1"
def pinPolicyFileName : String := "host_policy.json"

/-- The crates that the store uses. -/
structure PinCrates where
  /-- `hash_password_into` of Argon2id, from a PIN and a salt to 32 bytes. -/
  argon2 : Bytes → Bytes → Except String (BitVec 256)
  /-- What `hex` says of a text that it does not decode. -/
  hexError : String → String
  /-- `to_string_pretty` of a `HostPolicyFile` -/
  pretty : PinPolicy → String
  /-- `from_str` of a `HostPolicyFile` -/
  parse : String → Option PinPolicy
  parse_pretty : ∀ policy, parse (pretty policy) = some policy
  /-- Nothing is not a JSON value. -/
  parse_empty : parse "" = none

section Pins

variable (crates : PinCrates)

def constantTimeEq (a b : Bytes) : Bool :=
  if a.length ≠ b.length then false
  else (a.zip b).foldl (fun diff pair => diff ||| (pair.1 ^^^ pair.2)) 0 = 0

def decodeHex (what text : String) : Except String Bytes :=
  match hexDecode text with
  | some bytes => .ok bytes
  | none => .error s!"invalid {what} hex: {crates.hexError text}"

def verifyPin (stored : StoredPin) (candidate : String) : Except String Bool := do
  if stored.algo ≠ pinHashAlgo then .error s!"unsupported PIN hash algo {stored.algo.quote}"
  let salt ← decodeHex crates "salt" stored.saltHex
  let expected ← decodeHex crates "hash" stored.hashHex
  if salt.length ≠ 16 then .error s!"PIN salt must be 16 bytes, got {salt.length}"
  if expected.length ≠ 32 then .error s!"PIN hash must be 32 bytes, got {expected.length}"
  let derived ← (crates.argon2 (utf8 candidate) salt).mapError (s!"argon2 derive failed: {·}")
  return constantTimeEq (keyBytes derived) expected

def storedPin (salt : Bytes) (hash : BitVec 256) : StoredPin where
  algo := pinHashAlgo
  saltHex := hexEncode salt
  hashHex := hexEncode (keyBytes hash)

def hashPin (pin : String) : Recovering String StoredPin := do
  let salt ← perform (.fillBytes 16)
  let hash ← raise ((crates.argon2 (utf8 pin) salt.1).mapError (s!"argon2 hash failed: {·}"))
  return storedPin salt.1 hash

/-! ## The store -/

structure PinStore where
  path : PathBuf
  policy : PinPolicy

namespace PinStore

def memory : PinStore := ⟨[], {}⟩

def defaultPolicyPath (identityPath : PathBuf) : PathBuf :=
  PathBuf.withFileName identityPath pinPolicyFileName

/-- A file that is not a policy is read as the default policy. -/
def fromPath (path : PathBuf) : Recovering String PinStore := do
  if ← perform (.exists path) then
    let raw ← orFail s!"read host policy {UnixPath.render path}" (← perform (.readToString path))
    return ⟨path, (crates.parse raw).getD {}⟩
  else return ⟨path, {}⟩

def persist (store : PinStore) : Recovering String Unit :=
  if store.path = [] then return
  else
    placeFile {
      create := fun parent => some s!"create policy dir {UnixPath.render parent}"
      write := some s!"write tmp policy {UnixPath.render (tmpPath store.path)}"
      rename := some s!"rename policy to {UnixPath.render store.path}" }
      store.path (utf8 (crates.pretty store.policy))

/-- The result, and the store afterwards: memory is replaced in any case. -/
def replace {ε : Type} (store : PinStore) (policy : PinPolicy) :
    Recovering ε (Except String Unit × PinStore) := do
  return (← (persist crates { store with policy }).attempt, { store with policy })

end PinStore

/-! ## Updates -/

inductive PinUpdateOutcome where
  | accepted
  | rejected (reason : String)
  deriving DecidableEq

/-- What an update comes with, and what the recovery key is compared with. -/
structure PinUpdate where
  newPin : String
  proofOldPin : Option String
  proofRecoveryKey : Option Bytes
  physicalAck : Bool
  recoveryMatches : Bytes → Bool

variable (update : PinUpdate)

/-- The proofs of an update, where a PIN is stored. -/
def checkProofs (stored : StoredPin) : Except String Bool := do
  let gate ← match update.proofOldPin with
    | none => .ok update.physicalAck
    | some oldPin =>
        match verifyPin crates stored oldPin with
        | .ok true => .ok true
        | .ok false => .error "old PIN does not match stored hash"
        | .error e => .error s!"verify_pin failed: {e}"
  match update.proofRecoveryKey with
  | none => return gate
  | some key =>
      if update.recoveryMatches key then return true else .error "recovery key does not match"

def checkEnrollment : Except String Bool :=
  if update.proofOldPin.isNone && update.proofRecoveryKey.isNone && !update.physicalAck then
    .error "first PIN enrollment requires old PIN, recovery key, or physical ack"
  else .ok update.physicalAck

/-- Whether the gate opens for an update, which may also be turned away at once. -/
def gate (current : PinPolicy) : Except String Bool :=
  match current.hash with
  | some stored => checkProofs crates update stored
  | none => checkEnrollment update

/-- The outcome, and the store afterwards. -/
def applyPinUpdate (store : PinStore) : Recovering Empty (PinUpdateOutcome × PinStore) := do
  match gate crates update store.policy with
  | .error reason => return (.rejected reason, store)
  | .ok false =>
      return (.rejected
        "PIN update gate failed: provide old PIN, recovery key, or physical ack", store)
  | .ok true =>
      match ← (hashPin crates update.newPin).attempt with
      | .error e => return (.rejected s!"hash_pin failed: {e}", store)
      | .ok hashed =>
          match ← store.replace crates { store.policy with hash := some hashed } with
          | (.error e, store) => return (.rejected s!"persist failed: {e}", store)
          | (.ok (), store) => return (.accepted, store)

/-! ## What an update owes -/

/-- The stored hash verifies a PIN. -/
def Verifies (policy : PinPolicy) (pin : String) : Prop :=
  ∃ stored, policy.hash = some stored ∧ verifyPin crates stored pin = .ok true

/-- Some proof is supplied, and every proof that is supplied is valid. -/
structure Proven (policy : PinPolicy) : Prop where
  any : update.proofOldPin.isSome ∨ update.proofRecoveryKey.isSome ∨ update.physicalAck = true
  oldPin : ∀ oldPin ∈ update.proofOldPin, Verifies crates policy oldPin
  recoveryKey : ∀ key ∈ update.proofRecoveryKey, update.recoveryMatches key = true

/-- A policy can be put in its place, if there is one. -/
def Saves (w : RecoveryWorld) (path : PathBuf) : Prop :=
  path = [] ∨ (PathBuf.fileName path).isSome ∧ w.Persists path

section Statement

variable (store : PinStore) (w : RecoveryWorld)

def outcome : PinUpdateOutcome :=
  (RecoveryWorld.machine.eval (applyPinUpdate crates update store) w).1.1

/-- The policy in memory after an update. -/
def policyAfter : PinPolicy :=
  (RecoveryWorld.machine.eval (applyPinUpdate crates update store) w).1.2.policy

def worldAfter : RecoveryWorld :=
  (RecoveryWorld.machine.eval (applyPinUpdate crates update store) w).2

/-- A policy that is loaded from a path. -/
def Loaded (w : RecoveryWorld) (path : PathBuf) (policy : PinPolicy) : Prop :=
  ∃ loaded w', RecoveryWorld.machine.run (PinStore.fromPath crates path) w = (.ok loaded, w') ∧
    loaded.policy = policy

def Gated : Prop :=
  outcome crates update store w = .accepted ↔
    Proven crates update store.policy ∧ Saves w store.path

def Kept : Prop :=
  outcome crates update store w = .accepted →
    (Verifies crates (policyAfter crates update store w) update.newPin ∧
      (policyAfter crates update store w).mode = store.policy.mode) ∧
    ∀ policy, Loaded crates (worldAfter crates update store w) store.path policy →
      Verifies crates policy update.newPin ∧ policy.mode = store.policy.mode

def Untouched : Prop :=
  outcome crates update store w ≠ .accepted →
    policyAfter crates update store w = store.policy ∧
    (worldAfter crates update store w).lookup store.path = w.lookup store.path

/-- A policy that requires a PIN is not read back as one that does not, also where a crash has
left a part of the file only. -/
def Lasting : Prop :=
  (policyAfter crates update store w).requiresPin = true → ∀ content kept policy,
    (worldAfter crates update store w).lookup store.path = some (.file content) →
    kept <+: content →
    Loaded crates ((worldAfter crates update store w).put store.path (some (.file kept)))
      store.path policy →
    policy.requiresPin = true

/-! ## Conditions -/

/-- The salt that a new PIN is hashed with. -/
def Hashes (hash : BitVec 256) : Prop :=
  crates.argon2 (utf8 update.newPin) (w.draw 0 16) = .ok hash

/-- The gate opens and the new PIN is hashed. -/
def Proceeds : Prop :=
  gate crates update store.policy = .ok true ∧ ∃ hash, Hashes crates update w hash

structure GatedWhen : Prop where
  /-- Argon2 takes the new PIN. -/
  hashes : Proven crates update store.policy → Saves w store.path → ∃ hash,
    Hashes crates update w hash
  /-- With the acknowledgement of a first PIN comes neither an old PIN nor a wrong key. -/
  acknowledged : store.policy.hash = none → Saves w store.path →
    (∃ hash, Hashes crates update w hash) → update.physicalAck = true →
      update.proofOldPin = none ∧
        ∀ key ∈ update.proofRecoveryKey, update.recoveryMatches key = true
  /-- No right key comes for a first PIN without the acknowledgement. -/
  unacknowledged : store.policy.hash = none → Saves w store.path → update.physicalAck = false →
    update.proofOldPin = none → ∀ key ∈ update.proofRecoveryKey, update.recoveryMatches key = false

/-- What is accepted has a place in a file, and the file can be found. -/
def KeptWhen : Prop :=
  Proceeds crates update store w → Saves w store.path →
    store.path ≠ [] ∧ w.env.statFault store.path = false

/-- What proceeds can be saved, unless it changes nothing. -/
def UntouchedWhen : Prop :=
  gate crates update store.policy = .ok true → ∀ hash, Hashes crates update w hash →
    ¬ Saves w store.path → store.policy.hash = some (storedPin (w.draw 0 16) hash)

/-- A PIN is required after the update. -/
def Demands : Prop :=
  Proceeds crates update store w ∧ store.policy.mode ≠ .off ∨
    ¬ Proceeds crates update store w ∧ store.policy.requiresPin = true

/-- There is a file after the update. -/
def Filed : Prop :=
  (∃ content, w.lookup store.path = some (.file content)) ∨
    Proceeds crates update store w ∧ Saves w store.path ∧ store.path ≠ []

/-- No PIN is required after the update, or the file is not there to be found, or the attempt to
read it fails. -/
def LastingWhen : Prop :=
  Demands crates update store w → Filed crates update store w →
    w.env.statFault store.path = false ∧ (w.env.readFault store.path).isSome

end Statement

end Pins

variable {crates : PinCrates} {update : PinUpdate} {store : PinStore} {w : RecoveryWorld}

/-! ## Hashes -/

theorem foldl_diff_eq_zero (pairs : List (UInt8 × UInt8)) (diff : UInt8) :
    pairs.foldl (fun diff pair => diff ||| (pair.1 ^^^ pair.2)) diff = 0 ↔
      diff = 0 ∧ ∀ pair ∈ pairs, pair.1 = pair.2 := by
  induction pairs generalizing diff with
  | nil => simp
  | cons pair rest ih =>
      rw [List.foldl_cons, ih, UInt8.or_eq_zero_iff, UInt8.xor_eq_zero_iff, List.forall_mem_cons,
        and_assoc]

/-- The comparison that takes the same time for all bytes is equality. -/
theorem constantTimeEq_iff {a b : Bytes} : constantTimeEq a b = true ↔ a = b := by
  unfold constantTimeEq
  by_cases same : a.length = b.length
  · rw [if_neg (not_not.mpr same), decide_eq_true_eq, foldl_diff_eq_zero, and_iff_right rfl]
    constructor
    · intro pairs
      refine List.ext_getElem same fun i left right => ?_
      exact pairs (a[i], b[i]) (List.mem_iff_getElem.mpr ⟨i, by simpa using ⟨left, right⟩, by simp⟩)
    · rintro rfl pair member
      obtain ⟨i, inside, rfl⟩ := List.mem_iff_getElem.mp member
      simp
  · rw [if_pos same]
    exact iff_of_false Bool.false_ne_true fun equal => same (congrArg List.length equal)

/-- A stored PIN verifies what it was made of. -/
theorem verifyPin_storedPin {pin : String} {salt : Bytes} {hash : BitVec 256}
    (length : salt.length = 16) (derived : crates.argon2 (utf8 pin) salt = .ok hash) :
    verifyPin crates (storedPin salt hash) pin = .ok true := by
  have wide : (keyBytes hash).length = 32 := Bytes.length_ofNatBE 32 _
  simp only [verifyPin, decodeHex, storedPin, hexDecode_hexEncode, bind, Except.bind, length, wide,
    derived, ne_eq, not_true_eq_false, if_false, Except.mapError]
  rw [constantTimeEq_iff.mpr rfl]
  rfl

/-! ## The gate -/

theorem gate_of_stored {stored : StoredPin} (enrolled : store.policy.hash = some stored) :
    gate crates update store.policy = .ok true ↔ Proven crates update store.policy := by
  have verifies (pin : String) :
      Verifies crates store.policy pin ↔ verifyPin crates stored pin = .ok true := by
    simp [Verifies, enrolled]
  have proven : Proven crates update store.policy ↔
      (update.proofOldPin.isSome ∨ update.proofRecoveryKey.isSome ∨ update.physicalAck = true) ∧
      (∀ oldPin ∈ update.proofOldPin, verifyPin crates stored oldPin = .ok true) ∧
      ∀ key ∈ update.proofRecoveryKey, update.recoveryMatches key = true := by
    simp only [← verifies]
    exact ⟨fun proven => ⟨proven.any, proven.oldPin, proven.recoveryKey⟩,
      fun ⟨any, oldPin, recoveryKey⟩ => ⟨any, oldPin, recoveryKey⟩⟩
  rw [proven, gate, enrolled]
  dsimp only
  unfold checkProofs
  cases update.proofOldPin with
  | none =>
      cases update.proofRecoveryKey with
      | none => simp [bind, Except.bind, pure, Except.pure]
      | some key =>
          by_cases matching : update.recoveryMatches key = true <;>
            simp [bind, Except.bind, pure, Except.pure, matching]
  | some oldPin =>
      cases checked : verifyPin crates stored oldPin with
      | error e => simp [bind, Except.bind, checked]
      | ok right =>
          cases right with
          | false => simp [bind, Except.bind, checked]
          | true =>
              cases update.proofRecoveryKey with
              | none => simp [bind, Except.bind, pure, Except.pure, checked]
              | some key =>
                  by_cases matching : update.recoveryMatches key = true <;>
                    simp [bind, Except.bind, pure, Except.pure, checked, matching]

theorem gate_of_none (unenrolled : store.policy.hash = none) :
    gate crates update store.policy = .ok true ↔ update.physicalAck = true := by
  rw [gate, unenrolled, checkEnrollment]
  cases update.physicalAck <;> simp
  split <;> simp

/-! ## Saving -/

theorem exec_env (action : RecoveryAction) : (RecoveryWorld.exec action w).2.env = w.env := by
  cases action with
  | write path body =>
      simp only [RecoveryWorld.exec, RecoveryWorld.write]
      split
      · rfl
      · rfl
      · split <;> rfl
  | rename source target =>
      simp only [RecoveryWorld.exec, RecoveryWorld.rename]
      split
      · rfl
      · rfl
      · split <;> rfl
  | readToString path => rw [exec_readToString_snd]
  | createDirAll path =>
      simp only [RecoveryWorld.exec]
      split <;> rfl
  | «exists» path | fillBytes count | now | hostSeed path => rfl

/-- What fails, fails the same way later. -/
theorem eval_env {α : Type} (p : Recovering Empty α) (w : RecoveryWorld) :
    (RecoveryWorld.machine.eval p w).2.env = w.env := by
  induction p generalizing w with
  | done a => rfl
  | fail e => cases e
  | act action next ih => exact (ih _ _).trans (exec_env action)

/-- The world in which a policy is in its place, if there is one. -/
def saved (crates : PinCrates) (store : PinStore) (w : RecoveryWorld) : RecoveryWorld :=
  if store.path = [] then w else w.placed store.path (utf8 (crates.pretty store.policy))

theorem fileName_cases (path : PathBuf) :
    (∃ dir name, path = dir ++ [.normal name]) ∨ PathBuf.fileName path = none := by
  obtain rfl | ⟨dir, last, rfl⟩ := List.eq_nil_or_concat path
  · exact .inr rfl
  · rw [List.concat_eq_append]
    cases last with
    | normal name => exact .inl ⟨dir, name, rfl⟩
    | rootDir | curDir | parentDir => exact .inr (by rw [PathBuf.fileName, List.getLast?_concat])

/-- No directory is made at a path itself. -/
theorem lookup_withDirs (path : PathBuf) : (w.withDirs path).lookup path = w.lookup path := by
  unfold RecoveryWorld.lookup
  split
  · rfl
  case isFalse filled =>
    rw [RecoveryWorld.withDirs]
    split
    case h_1 parent found =>
      have above : parent = path.dropLast := by
        rw [directoryOf, PathBuf.parent] at found
        split at found <;> simp_all
      have apart : ¬ path.isPrefixOf parent := by
        rw [List.isPrefixOf_iff_prefix]
        intro prefixed
        have short := prefixed.length_le
        have long := List.length_pos_iff.mpr filled
        rw [above, List.length_dropLast] at short
        omega
      exact if_neg apart
    case h_2 => rfl

/-- Nothing is written at a path without a file name. -/
theorem run_placeFile_unnamed (contexts : RecoveryStore.Contexts) {path : PathBuf}
    (unnamed : PathBuf.fileName path = none) (body : Bytes) :
    ∃ e after, RecoveryWorld.machine.run (placeFile contexts path body) w = (.error e, after) ∧
      after.lookup path = w.lookup path := by
  have tmp : tmpPath path = path := by rw [tmpPath, PathBuf.withExtension, unnamed]
  unfold placeFile
  rw [RecoveryWorld.machine.run_bind]
  obtain ⟨created, -⟩ | ⟨e, parent, created, -⟩ := run_createParent (w := w) contexts path
  · rw [created, Machine.resume_ok]
    have refused : (w.withDirs path).write (tmpPath path) body =
        (.error (if path = [] then RecoveryWorld.missing else RecoveryWorld.isADirectory),
          w.withDirs path) := by
      rw [tmp, RecoveryWorld.write, unnamed]
    obtain ⟨e, fails⟩ := underContext_error contexts.write
      (if path = [] then RecoveryWorld.missing else RecoveryWorld.isADirectory)
    change ∃ e after, RecoveryWorld.machine.run
      (RecoveryStore.underContext contexts.write ((w.withDirs path).write (tmpPath path) body).1
        >>= fun _ => perform (.rename (tmpPath path) path) >>=
          RecoveryStore.underContext contexts.rename)
      ((w.withDirs path).write (tmpPath path) body).2 = (.error e, after) ∧ _
    rw [refused, fails]
    exact ⟨e, _, rfl, lookup_withDirs path⟩
  · rw [created, Machine.resume_error]
    exact ⟨e, w, rfl, rfl⟩

/-- A policy is put in its place exactly when it can be, and else its place is as it was. -/
theorem run_persist (crates : PinCrates) (store : PinStore) (w : RecoveryWorld) :
    (Saves w store.path ∧ RecoveryWorld.machine.run (store.persist crates) w =
        (.ok (), saved crates store w)) ∨
      ¬ Saves w store.path ∧ ∃ e after, RecoveryWorld.machine.run (store.persist crates) w =
        (.error e, after) ∧ after.lookup store.path = w.lookup store.path := by
  unfold PinStore.persist saved
  by_cases placeless : store.path = []
  · rw [if_pos placeless, if_pos placeless]
    exact .inl ⟨.inl placeless, rfl⟩
  rw [if_neg placeless, if_neg placeless]
  obtain ⟨dir, name, shape⟩ | unnamed := fileName_cases store.path
  · have named : (PathBuf.fileName store.path).isSome := by
      rw [shape, fileName_concat]
      rfl
    obtain ⟨persists, placed⟩ | ⟨stuck, e, after, failed, kept⟩ := run_placeFile (w := w) _ shape
      (utf8 (crates.pretty store.policy))
    · exact .inl ⟨.inr ⟨named, persists⟩, placed⟩
    · refine .inr ⟨?_, e, after, failed, ?_⟩
      · rintro (placed | ⟨-, persists⟩)
        · exact placeless placed
        · exact stuck persists
      · rw [RecoveryWorld.lookup, RecoveryWorld.lookup, kept]
  · refine .inr ⟨?_, run_placeFile_unnamed _ unnamed _⟩
    rintro (placed | ⟨named, -⟩)
    · exact placeless placed
    · rw [unnamed] at named
      cases named

/-- What is in its place is found there. -/
theorem lookup_saved (filled : store.path ≠ []) :
    (saved crates store w).lookup store.path =
      some (.file (utf8 (crates.pretty store.policy))) := by
  rw [saved, if_neg filled]
  exact lookup_of_entries filled (RecoveryWorld.placed_entries _)

theorem lookup_saved_redrawn (drawn : Nat) :
    (saved crates store { w with drawn }).lookup store.path =
      (saved crates store w).lookup store.path := by
  by_cases placeless : store.path = []
  · rw [saved, saved, if_pos placeless, if_pos placeless]
    rfl
  · rw [lookup_saved placeless, lookup_saved placeless]

/-! ## Loading -/

theorem loaded_iff {path : PathBuf} {policy : PinPolicy} : Loaded crates w path policy ↔
    (w.present path = false ∧ policy = {}) ∨
      w.present path = true ∧ w.env.readFault path = none ∧ ∃ content text,
        w.lookup path = some (.file content) ∧ fromUtf8 content = .ok text ∧
        policy = (crates.parse text).getD {} := by
  have runs : RecoveryWorld.machine.run (PinStore.fromPath crates path) w =
      RecoveryWorld.machine.run (if w.present path = true then do
        let raw ← orFail s!"read host policy {UnixPath.render path}"
          (← perform (.readToString path))
        return ⟨path, (crates.parse raw).getD {}⟩
      else return ⟨path, {}⟩) w := rfl
  unfold Loaded
  rw [runs]
  cases found : w.present path with
  | false =>
      rw [if_neg Bool.false_ne_true]
      constructor
      · rintro ⟨loaded, w', ran, rfl⟩
        cases ran
        exact .inl ⟨rfl, rfl⟩
      · rintro (⟨-, rfl⟩ | ⟨absent, -⟩)
        · exact ⟨_, w, rfl, rfl⟩
        · cases absent
  | true =>
      rw [if_pos rfl]
      change (∃ loaded w', RecoveryWorld.machine.run
        (orFail _ (RecoveryWorld.exec (.readToString path) w).1 >>= _)
        (RecoveryWorld.exec (.readToString path) w).2 = _ ∧ _) ↔ _
      rw [exec_readToString_snd]
      cases read : (RecoveryWorld.exec (.readToString path) w).1 with
      | error e =>
          refine iff_of_false ?_ ?_
          · rintro ⟨loaded, w', ran, -⟩
            cases ran
          · rintro (⟨absent, -⟩ | ⟨-, fault, content, text, there, decoded, -⟩)
            · cases absent
            · rw [(exec_readToString text).mpr ⟨fault, content, there, decoded⟩] at read
              cases read
      | ok text =>
          obtain ⟨fault, content, there, decoded⟩ := (exec_readToString text).mp read
          constructor
          · rintro ⟨loaded, w', ran, rfl⟩
            cases ran
            exact .inr ⟨rfl, fault, content, text, there, decoded, rfl⟩
          · rintro (⟨absent, -⟩ | ⟨-, -, content', text', there', decoded', rfl⟩)
            · cases absent
            · rw [there] at there'
              cases there'
              rw [decoded] at decoded'
              cases decoded'
              exact ⟨_, w, rfl, rfl⟩

/-! ## Runs of an update -/

theorem saves_redrawn {path : PathBuf} (drawn : Nat) :
    Saves { w with drawn } path ↔ Saves w path := by
  refine or_congr_right (and_congr_right fun _ => ⟨fun persists => ?_, fun persists => ?_⟩)
  · exact persists.redrawn w.draws w.drawn
  · exact persists.redrawn w.draws drawn

theorem run_hashPin_ok {pin : String} {hash : BitVec 256}
    (derived : crates.argon2 (utf8 pin) (w.draw 0 16) = .ok hash) :
    RecoveryWorld.machine.run (hashPin crates pin) w =
      (.ok (storedPin (w.draw 0 16) hash), { w with drawn := w.drawn + 1 }) := by
  change RecoveryWorld.machine.run
    (raise ((crates.argon2 (utf8 pin) (w.draw 0 16)).mapError _) >>= _) _ = _
  rw [derived]
  rfl

theorem run_hashPin_error {pin : String} {e : String}
    (refused : crates.argon2 (utf8 pin) (w.draw 0 16) = .error e) :
    RecoveryWorld.machine.run (hashPin crates pin) w =
      (.error s!"argon2 hash failed: {e}", { w with drawn := w.drawn + 1 }) := by
  change RecoveryWorld.machine.run
    (raise ((crates.argon2 (utf8 pin) (w.draw 0 16)).mapError _) >>= _) _ = _
  rw [refused]
  rfl

/-- The memory is replaced whether the policy is saved or not. -/
theorem eval_replace_pin (crates : PinCrates) (store : PinStore) (policy : PinPolicy)
    (w : RecoveryWorld) :
    RecoveryWorld.machine.eval (store.replace crates policy) w =
      (((RecoveryWorld.machine.run (PinStore.persist crates { store with policy }) w).1,
        { store with policy }),
        (RecoveryWorld.machine.run (PinStore.persist crates { store with policy }) w).2) := by
  rw [PinStore.replace, Machine.eval_bind, Machine.eval_attempt]
  rfl

/-- What proceeds is in memory, and in the file if it can be saved; else nothing changes. -/
theorem update_cases (crates : PinCrates) (update : PinUpdate) (store : PinStore)
    (w : RecoveryWorld) :
    (¬ Proceeds crates update store w ∧ outcome crates update store w ≠ .accepted ∧
        policyAfter crates update store w = store.policy ∧
        (worldAfter crates update store w).lookup store.path = w.lookup store.path) ∨
      ∃ hash, gate crates update store.policy = .ok true ∧ Hashes crates update w hash ∧
        policyAfter crates update store w =
          { store.policy with hash := some (storedPin (w.draw 0 16) hash) } ∧
        ((Saves w store.path ∧ outcome crates update store w = .accepted ∧
            (worldAfter crates update store w).lookup store.path =
              (saved crates ⟨store.path, policyAfter crates update store w⟩ w).lookup
                store.path) ∨
          ¬ Saves w store.path ∧ outcome crates update store w ≠ .accepted ∧
            (worldAfter crates update store w).lookup store.path = w.lookup store.path) := by
  unfold outcome policyAfter worldAfter applyPinUpdate
  cases opened : gate crates update store.policy with
  | error reason =>
      refine .inl ⟨fun proceeds => ?_, by simp, rfl, rfl⟩
      rw [proceeds.1] at opened
      cases opened
  | ok opens =>
      cases opens with
      | false =>
          refine .inl ⟨fun proceeds => ?_, by simp, rfl, rfl⟩
          rw [proceeds.1] at opened
          cases opened
      | true =>
          dsimp only
          rw [Machine.eval_bind, Machine.eval_attempt]
          cases derived : crates.argon2 (utf8 update.newPin) (w.draw 0 16) with
          | error e =>
              rw [run_hashPin_error derived]
              refine .inl ⟨fun proceeds => ?_, by simp, rfl, rfl⟩
              obtain ⟨hash, hashes⟩ := proceeds.2
              rw [Hashes, derived] at hashes
              cases hashes
          | ok hash =>
              rw [run_hashPin_ok derived]
              dsimp only
              rw [Machine.eval_bind, eval_replace_pin]
              refine .inr ⟨hash, rfl, derived, ?_⟩
              obtain ⟨saves, ran⟩ | ⟨stuck, e, after, ran, kept⟩ := run_persist crates
                ⟨store.path, { store.policy with hash := some (storedPin (w.draw 0 16) hash) }⟩
                { w with drawn := w.drawn + 1 }
              · rw [ran]
                exact ⟨rfl, .inl ⟨(saves_redrawn _).mp saves, rfl, lookup_saved_redrawn _⟩⟩
              · rw [ran]
                exact ⟨rfl, .inr ⟨mt (saves_redrawn _).mpr stuck, by simp, kept⟩⟩

theorem length_draw : (w.draw 0 16).length = 16 := w.length_draw 0 16

theorem accepted_iff : outcome crates update store w = .accepted ↔
    Proceeds crates update store w ∧ Saves w store.path := by
  obtain ⟨stuck, refused, -⟩ | ⟨hash, opened, hashes, -,
      ⟨saves, accepted, -⟩ | ⟨stuck, refused, -⟩⟩ := update_cases crates update store w
  · exact iff_of_false refused fun both => stuck both.1
  · exact iff_of_true accepted ⟨⟨opened, hash, hashes⟩, saves⟩
  · exact iff_of_false refused fun both => stuck both.2

/-! ## Exact conditions -/

theorem gated_iff : Gated crates update store w ↔ GatedWhen crates update store w := by
  rw [Gated, accepted_iff]
  cases enrolled : store.policy.hash with
  | some stored =>
      have opens : gate crates update store.policy = .ok true ↔
          Proven crates update store.policy := gate_of_stored enrolled
      constructor
      · intro agree
        refine ⟨fun proven saves => (agree.mpr ⟨proven, saves⟩).1.2, ?_, ?_⟩
        · intro unenrolled
          rw [enrolled] at unenrolled
          cases unenrolled
        · intro unenrolled
          rw [enrolled] at unenrolled
          cases unenrolled
      · intro condition
        refine and_congr_left fun saves => ⟨fun proceeds => opens.mp proceeds.1, fun proven => ?_⟩
        exact ⟨opens.mpr proven, condition.hashes proven saves⟩
  | none =>
      have opens : gate crates update store.policy = .ok true ↔ update.physicalAck = true :=
        gate_of_none enrolled
      have unverified (pin : String) : ¬ Verifies crates store.policy pin := by
        rintro ⟨stored, there, -⟩
        rw [enrolled] at there
        cases there
      constructor
      · intro agree
        refine ⟨fun proven saves => (agree.mpr ⟨proven, saves⟩).1.2,
          fun _ saves hashes acknowledged => ?_, fun _ saves unacknowledged alone key given => ?_⟩
        · have proven := (agree.mp ⟨⟨opens.mpr acknowledged, hashes⟩, saves⟩).1
          refine ⟨Option.eq_none_iff_forall_not_mem.mpr fun oldPin given => ?_, proven.recoveryKey⟩
          exact unverified oldPin (proven.oldPin oldPin given)
        · by_contra matching
          have proven : Proven crates update store.policy := by
            refine ⟨.inr (.inl (Option.isSome_of_mem given)), fun oldPin given => ?_,
              fun other given' => ?_⟩
            · rw [alone] at given
              cases given
            · obtain rfl := Option.mem_unique given given'
              simpa using matching
          have opened := opens.mp (agree.mpr ⟨proven, saves⟩).1.1
          rw [unacknowledged] at opened
          cases opened
      · intro condition
        refine and_congr_left fun saves => ⟨fun proceeds => ?_, fun proven => ?_⟩
        · have acknowledged := opens.mp proceeds.1
          obtain ⟨alone, matching⟩ :=
            condition.acknowledged enrolled saves proceeds.2 acknowledged
          refine ⟨.inr (.inr acknowledged), fun oldPin given => ?_, matching⟩
          rw [alone] at given
          cases given
        · refine ⟨opens.mpr ?_, condition.hashes proven saves⟩
          have alone : update.proofOldPin = none :=
            Option.eq_none_iff_forall_not_mem.mpr fun oldPin given =>
              unverified oldPin (proven.oldPin oldPin given)
          by_contra unacknowledged
          have unacknowledged := Bool.eq_false_iff.mpr unacknowledged
          obtain ⟨key, given⟩ : ∃ key, update.proofRecoveryKey = some key := by
            have any := proven.any
            rw [alone, unacknowledged] at any
            exact Option.isSome_iff_exists.mp (by simpa using any)
          have refused := condition.unacknowledged enrolled saves unacknowledged alone key given
          rw [proven.recoveryKey key given] at refused
          cases refused

theorem present_worldAfter : (worldAfter crates update store w).present store.path =
    (!w.env.statFault store.path &&
      ((worldAfter crates update store w).lookup store.path).isSome) := by
  rw [RecoveryWorld.present, worldAfter, eval_env]

/-- The default policy has no PIN. -/
theorem not_verifies_default (pin : String) : ¬ Verifies crates {} pin := by
  rintro ⟨stored, there, -⟩
  cases there

theorem keeps_iff : Kept crates update store w ↔ KeptWhen crates update store w := by
  obtain ⟨stuck, refused, -⟩ | ⟨hash, opened, hashes, policy,
      ⟨saves, accepted, there⟩ | ⟨stuck, refused, -⟩⟩ := update_cases crates update store w
  · exact iff_of_true (fun accepted => absurd accepted refused)
      fun proceeds => absurd proceeds stuck
  · have verifies : Verifies crates (policyAfter crates update store w) update.newPin := by
      rw [policy]
      exact ⟨_, rfl, verifyPin_storedPin length_draw hashes⟩
    have mode : (policyAfter crates update store w).mode = store.policy.mode := by rw [policy]
    constructor
    · intro kept _ _
      have missed (absent : (worldAfter crates update store w).present store.path = false) :
          False :=
        not_verifies_default _ ((kept accepted).2 {} (loaded_iff.mpr (.inl ⟨absent, rfl⟩))).1
      refine ⟨fun placeless => missed ?_, Bool.eq_false_iff.mpr fun fault => missed ?_⟩
      · rw [present_worldAfter, RecoveryWorld.lookup, if_pos placeless]
        simp
      · rw [present_worldAfter, fault]
        rfl
    · intro condition _
      obtain ⟨filled, found⟩ := condition ⟨opened, hash, hashes⟩ saves
      replace there := there.trans
        (lookup_saved (by exact filled))
      refine ⟨⟨verifies, mode⟩, fun loaded loads => ?_⟩
      obtain ⟨absent, -⟩ | ⟨-, -, content, text, there', decoded, rfl⟩ := loaded_iff.mp loads
      · rw [present_worldAfter, there, found] at absent
        cases absent
      · rw [there] at there'
        cases there'
        rw [fromUtf8_utf8] at decoded
        cases decoded
        rw [crates.parse_pretty]
        exact ⟨verifies, mode⟩
  · exact iff_of_true (fun accepted => absurd accepted refused)
      fun _ saves => absurd saves stuck

theorem untouched_iff : Untouched crates update store w ↔ UntouchedWhen crates update store w := by
  obtain ⟨stuck, refused, same, kept⟩ | ⟨hash, opened, hashes, policy,
      ⟨saves, accepted, -⟩ | ⟨stuck, refused, kept⟩⟩ := update_cases crates update store w
  · exact iff_of_true (fun _ => ⟨same, kept⟩)
      fun opened hash hashes => absurd ⟨opened, hash, hashes⟩ stuck
  · exact iff_of_true (fun refused => absurd accepted refused)
      fun _ _ _ stuck => absurd saves stuck
  · constructor
    · intro untouched _ hash' hashes' _
      have drawn : hash' = hash := Except.ok.inj (hashes'.symm.trans hashes)
      have same := congrArg PinPolicy.hash (untouched refused).1
      rw [policy] at same
      rw [drawn]
      exact same.symm
    · intro condition _
      refine ⟨?_, kept⟩
      rw [policy, ← condition opened hash hashes stuck]

theorem demands_iff : Demands crates update store w ↔
    (policyAfter crates update store w).requiresPin = true := by
  obtain ⟨stuck, -, same, -⟩ | ⟨hash, opened, hashes, policy, -⟩ :=
    update_cases crates update store w
  · rw [same, Demands, and_iff_right stuck]
    exact or_iff_right fun both => stuck both.1
  · have proceeds : Proceeds crates update store w := ⟨opened, hash, hashes⟩
    rw [policy, Demands, and_iff_right proceeds, or_iff_left fun both => both.1 proceeds]
    cases mode : store.policy.mode <;> simp [PinPolicy.requiresPin, mode]

theorem filed_iff : Filed crates update store w ↔
    ∃ content, (worldAfter crates update store w).lookup store.path = some (.file content) := by
  obtain ⟨stuck, -, -, kept⟩ | ⟨hash, opened, hashes, -,
      ⟨saves, -, there⟩ | ⟨stuck, -, kept⟩⟩ := update_cases crates update store w
  · rw [kept]
    exact or_iff_left fun both => stuck both.1
  · by_cases filled : store.path = []
    · have nowhere (w : RecoveryWorld) : w.lookup store.path = none := if_pos filled
      rw [Filed, nowhere, nowhere]
      simp [filled]
    · have file := there.trans
        (lookup_saved (by exact filled))
      exact iff_of_true (.inr ⟨⟨opened, hash, hashes⟩, saves, filled⟩) ⟨_, file⟩
  · rw [kept]
    exact or_iff_left fun both => stuck both.2.1

theorem lasting_iff : Lasting crates update store w ↔ LastingWhen crates update store w := by
  have put (kept : Bytes) (filled : store.path ≠ []) :
      ((worldAfter crates update store w).put store.path (some (.file kept))).lookup store.path =
        some (.file kept) :=
    lookup_of_entries filled (RecoveryWorld.put_entries _ _)
  have present (kept : Bytes) (filled : store.path ≠ []) :
      ((worldAfter crates update store w).put store.path (some (.file kept))).present store.path =
        !w.env.statFault store.path := by
    rw [RecoveryWorld.present, put kept filled, RecoveryWorld.put_env, worldAfter, eval_env]
    simp
  have fault (kept : Bytes) :
      ((worldAfter crates update store w).put store.path (some (.file kept))).env.readFault =
        w.env.readFault := by
    rw [RecoveryWorld.put_env, worldAfter, eval_env]
  have filled {content : Bytes}
      (there : (worldAfter crates update store w).lookup store.path = some (.file content)) :
      store.path ≠ [] := by
    intro placeless
    rw [RecoveryWorld.lookup, if_pos placeless] at there
    cases there
  constructor
  · intro lasting demands filed
    obtain ⟨content, there⟩ := filed_iff.mp filed
    have lost (loads : Loaded crates ((worldAfter crates update store w).put store.path
        (some (.file []))) store.path {}) : False := by
      have required := lasting (demands_iff.mp demands) content [] {} there
        (List.nil_prefix) loads
      cases required
    have found : w.env.statFault store.path = false := by
      rw [Bool.eq_false_iff]
      intro unfound
      refine lost (loaded_iff.mpr (.inl ⟨?_, rfl⟩))
      rw [present [] (filled there), unfound]
      rfl
    refine ⟨found, Option.isSome_iff_ne_none.mpr fun readable => lost (loaded_iff.mpr (.inr ?_))⟩
    refine ⟨?_, ?_, [], "", put [] (filled there), rfl, ?_⟩
    · rw [present [] (filled there), found]
      rfl
    · rw [fault, readable]
    · rw [crates.parse_empty]
      rfl
  · intro condition required content kept policy there _ loads
    obtain ⟨found, unreadable⟩ :=
      condition (demands_iff.mpr required) (filed_iff.mpr ⟨content, there⟩)
    obtain ⟨absent, -⟩ | ⟨-, readable, -⟩ := loaded_iff.mp loads
    · rw [present kept (filled there), found] at absent
      cases absent
    · rw [fault] at readable
      rw [readable] at unreadable
      cases unreadable

/-- Updates are gated, kept, without effect when they are rejected, and lasting, exactly under
these conditions on the update, the policy and the disk. -/
theorem applyPinUpdate_iff (crates : PinCrates) (update : PinUpdate) (store : PinStore)
    (w : RecoveryWorld) :
    (Gated crates update store w ↔ GatedWhen crates update store w) ∧
    (Kept crates update store w ↔ KeptWhen crates update store w) ∧
    (Untouched crates update store w ↔ UntouchedWhen crates update store w) ∧
    (Lasting crates update store w ↔ LastingWhen crates update store w) :=
  ⟨gated_iff, keeps_iff, untouched_iff, lasting_iff⟩

namespace Sample

open Host.Sample (linesOf recordOfLines recordOfLines_linesOf smooth)

/-- A policy as the fields of a record. -/
def policyFields (policy : PinPolicy) : RecoveryRecord where
  kdf :=
    match policy.mode with
    | .off => "off"
    | .on => "on"
    | .required => "required"
  kdfSaltHex := if policy.hash.isSome then "some" else "none"
  wrap := (policy.hash.map StoredPin.algo).getD ""
  wrappedKeyHex := (policy.hash.map StoredPin.hashHex).getD ""
  wrappedNonceHex := (policy.hash.map StoredPin.saltHex).getD ""
  createdUnixMs := none

def policyOf (record : RecoveryRecord) : PinPolicy where
  mode := if record.kdf = "off" then .off else if record.kdf = "on" then .on else .required
  hash := if record.kdfSaltHex = "some" then
      some ⟨record.wrap, record.wrappedNonceHex, record.wrappedKeyHex⟩
    else none

theorem policyOf_policyFields (policy : PinPolicy) : policyOf (policyFields policy) = policy := by
  obtain ⟨mode, hash⟩ := policy
  cases mode <;> cases hash <;> rfl

/-- A derivation that takes the first bytes of a PIN. -/
def pinCrates : PinCrates where
  argon2 pin _ := .ok (Identity.keyOfBytes (pin.take 32))
  hexError text := text
  pretty policy := linesOf (policyFields policy)
  parse text := (recordOfLines text).map policyOf
  parse_pretty policy := by
    rw [recordOfLines_linesOf, Option.map_some, policyOf_policyFields]
  parse_empty := by decide

/-- A host without a PIN. -/
def unenrolled : PinStore := ⟨[.normal "host_policy.json"], {}⟩

/-- A push with a wrong recovery key, which the operator acknowledges. -/
def wrongKey : PinUpdate := ⟨"1234", none, some [7], true, fun _ => false⟩

def emptyWorld : RecoveryWorld where
  entries _ := none
  env := smooth
  draws _ := []
  drawn := 0

/-- The wrong key is not looked at. -/
theorem wrongKey_not_gated :
    ¬ ∀ (crates : PinCrates) (update : PinUpdate) (store : PinStore) (w : RecoveryWorld),
      Gated crates update store w ∧ Kept crates update store w ∧
        Untouched crates update store w ∧ Lasting crates update store w := by
  intro always
  have condition := gated_iff.mp (always pinCrates wrongKey unenrolled emptyWorld).1
  have persists : emptyWorld.Persists unenrolled.path :=
    ⟨fun _ _ => rfl, by simp [emptyWorld], rfl, rfl, by simp [emptyWorld]⟩
  have alone := condition.acknowledged rfl (.inr ⟨rfl, persists⟩) ⟨_, rfl⟩ rfl
  exact absurd (alone.2 [7] rfl) Bool.false_ne_true

end Sample

end Qubox.Host.Pin
