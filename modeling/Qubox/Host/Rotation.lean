import Qubox.FileSync.Acceptance
import Qubox.Host.Recovery

/-!
# Rotations that survive a restart

A rotation puts the new key into memory before it is in the file, wraps it under the seed of a
path that is found in another way than the path of the host, and a start that cannot read its
file has nothing to fall back on. So a rotation keeps memory, file and the next start together
exactly when its file operations succeed, the seed and the path are those of the start, and
the start can read the file.
-/

namespace Qubox.Host

open FileSync (utf8 fromUtf8 fromUtf8_utf8)
open Identity (SecretKey keyBytes hexDecode hexDecode_hexEncode)
open Interaction
open RecoveryStore (defaultPath tmpPath directoryOf recordOf unwrapKey)
open Update (hexEncode)

/-! ## Paths of recovery files -/

section Paths

variable {dir : PathBuf} {name : String}

theorem fileName_concat : PathBuf.fileName (dir ++ [.normal name]) = some name := by
  rw [PathBuf.fileName, List.getLast?_concat]

theorem defaultPath_eq (identityPath : PathBuf) :
    ∃ dir : PathBuf, defaultPath identityPath = dir ++ [.normal recoveryFileName] := by
  rw [defaultPath, PathBuf.withFileName]
  split
  · exact ⟨_, rfl⟩
  · exact ⟨_, rfl⟩

theorem tmpPath_concat : tmpPath (dir ++ [.normal name]) =
    dir ++ [.normal ((UnixPath.splitAtDot name).1 ++ "." ++ "json.tmp")] := by
  rw [tmpPath, PathBuf.withExtension, fileName_concat]
  simp only [List.dropLast_concat]

theorem tmpPath_recoveryFileName :
    tmpPath (dir ++ [.normal recoveryFileName]) = dir ++ [.normal "recovery_key.json.tmp"] := by
  have stem : (UnixPath.splitAtDot recoveryFileName).1 = "recovery_key" := by decide
  rw [tmpPath_concat, stem]
  rfl

/-- An extension with a dot in it is not the one that a name had. -/
theorem splitAtDot_tmp_ne : (UnixPath.splitAtDot name).1 ++ "." ++ "json.tmp" ≠ name := by
  intro same
  unfold UnixPath.splitAtDot at same
  dsimp only at same
  split at same
  case h_1 dot first rest found =>
    have pieces := List.takeWhile_append_dropWhile (p := (· ≠ '.')) (l := name.toList.reverse)
    rw [found] at pieces
    have letters := congrArg String.toList same
    rw [← List.reverse_reverse name.toList, ← pieces] at letters
    simp only [String.toList_append, String.toList_ofList, List.reverse_append,
      List.reverse_cons, List.append_assoc] at letters
    have tail : ['j', 's', 'o', 'n', '.', 't', 'm', 'p'] =
        (name.toList.reverse.takeWhile (· ≠ '.')).reverse := by
      simpa using (by simpa using letters : '.' = dot ∧ _).2
    have inside : '.' ∈ name.toList.reverse.takeWhile (· ≠ '.') := by
      rw [← List.mem_reverse, ← tail]
      decide
    simpa using List.all_eq_true.mp List.all_takeWhile '.' inside
  case h_2 =>
    have lengths := congrArg String.length same
    rw [String.length_append, String.length_append] at lengths
    have dot : ".".length = 1 := rfl
    dsimp only at lengths
    omega

theorem directoryOf_concat :
    directoryOf (dir ++ [.normal name]) = if dir = [] then none else some dir := by
  rw [directoryOf, PathBuf.parent, List.getLast?_concat]
  simp only [List.dropLast_concat, Option.filter_some]
  split <;> simp_all

end Paths

/-! ## Placing a file -/

namespace RecoveryWorld

/-- The world in which the directory of a file exists. -/
def withDirs (w : RecoveryWorld) (path : PathBuf) : RecoveryWorld :=
  match directoryOf path with
  | some parent => w.makeDirs parent
  | none => w

/-- The world in which a file was written next to its place and moved there. -/
def placed (w : RecoveryWorld) (path : PathBuf) (body : Bytes) : RecoveryWorld :=
  (((w.withDirs path).put (tmpPath path) (some (.file body))).put (tmpPath path) none).put path
    (some (.file body))

/-- The operations that put a file in its place succeed. -/
structure Persists (w : RecoveryWorld) (path : PathBuf) : Prop where
  create : ∀ parent, directoryOf path = some parent → w.env.createDirFault parent = none
  room : w.entries (tmpPath path) ≠ some .directory
  write : w.env.writeFault (tmpPath path) = none
  rename : w.env.renameFault (tmpPath path) path = none
  free : w.entries path ≠ some .directory

section Placing

variable {w : RecoveryWorld} {dir : PathBuf} {name : String} {body : Bytes}

/-- What has been drawn does not matter for the files. -/
theorem Persists.redrawn {path : PathBuf} (persists : w.Persists path) (draws : Nat → Bytes)
    (drawn : Nat) : RecoveryWorld.Persists { w with draws, drawn } path :=
  ⟨persists.create, persists.room, persists.write, persists.rename, persists.free⟩

theorem not_prefix : ¬ (dir ++ [UnixPath.Component.normal name]).isPrefixOf dir := by
  rw [List.isPrefixOf_iff_prefix]
  intro prefixed
  have short := prefixed.length_le
  simp at short

theorem withDirs_env (path : PathBuf) : (w.withDirs path).env = w.env := by
  rw [withDirs]
  split <;> rfl

/-- No directory is made at a path that ends in a file name of its directory. -/
theorem withDirs_entries {file : String} :
    (w.withDirs (dir ++ [.normal file])).entries (dir ++ [.normal name]) =
      w.entries (dir ++ [.normal name]) := by
  rw [withDirs, directoryOf_concat]
  split
  case h_1 parent found =>
    split at found
    · cases found
    · obtain rfl := Option.some.inj found
      exact if_neg not_prefix
  case h_2 => rfl

@[simp] theorem put_entries (path : PathBuf) (entry : Option Entry) :
    (w.put path entry).entries path = entry := Function.update_self _ _ _

theorem put_entries_of_ne {path other : PathBuf} (apart : other ≠ path) (entry : Option Entry) :
    (w.put path entry).entries other = w.entries other := Function.update_of_ne apart _ _

@[simp] theorem put_env (path : PathBuf) (entry : Option Entry) : (w.put path entry).env = w.env :=
  rfl

theorem tmp_ne : dir ++ [.normal name] ≠ tmpPath (dir ++ [.normal name]) := by
  rw [tmpPath_concat]
  intro same
  have names := List.append_cancel_left same
  exact splitAtDot_tmp_ne (by simpa using names.symm)

@[simp] theorem placed_entries (path : PathBuf) :
    (w.placed path body).entries path = some (.file body) := put_entries _ _

end Placing

end RecoveryWorld

/-- A context turns an error into an error. -/
theorem underContext_ok {context : Option String} :
    RecoveryStore.underContext context (.ok ()) = .done () := by
  cases context <;> rfl

theorem underContext_error (context : Option String) (e : String) :
    ∃ e', RecoveryStore.underContext context (.error e) = .fail e' := by
  cases context <;> exact ⟨_, rfl⟩

section Placing

open RecoveryStore (placeFile createParent Contexts underContext)

variable {w : RecoveryWorld} {dir : PathBuf} {body : Bytes} {contexts : Contexts}

/-- The directory is there, or the files are as they were. -/
theorem run_createParent (contexts : Contexts) (path : PathBuf) :
    (RecoveryWorld.machine.run (createParent contexts path) w = (.ok (), w.withDirs path) ∧
        ∀ parent, directoryOf path = some parent → w.env.createDirFault parent = none) ∨
      ∃ e parent, RecoveryWorld.machine.run (createParent contexts path) w = (.error e, w) ∧
        directoryOf path = some parent ∧ w.env.createDirFault parent ≠ none := by
  unfold createParent RecoveryWorld.withDirs
  cases found : directoryOf path with
  | none => exact .inl ⟨rfl, fun parent some => absurd some (by simp)⟩
  | some parent =>
      cases fault : w.env.createDirFault parent with
      | none =>
          refine .inl ⟨?_, fun parent' same => Option.some.inj same ▸ fault⟩
          change RecoveryWorld.machine.run
            (underContext _ (RecoveryWorld.exec (.createDirAll parent) w).1)
            (RecoveryWorld.exec (.createDirAll parent) w).2 = _
          simp only [RecoveryWorld.exec, fault, underContext_ok]
          rfl
      | some e =>
          obtain ⟨e', fails⟩ := underContext_error (contexts.create parent) e
          refine .inr ⟨e', parent, ?_, rfl, by simp [fault]⟩
          change RecoveryWorld.machine.run
            (underContext _ (RecoveryWorld.exec (.createDirAll parent) w).1)
            (RecoveryWorld.exec (.createDirAll parent) w).2 = _
          simp only [RecoveryWorld.exec, fault, fails]
          rfl

/-- A file is written at a path, or what lies there may only have been partly overwritten. -/
theorem write_cases (body : Bytes) {path : PathBuf} (named : (PathBuf.fileName path).isSome) :
    (w.write path body = (.ok (), w.put path (some (.file body))) ∧
        w.entries path ≠ some .directory ∧ w.env.writeFault path = none) ∨
      ∃ e after, w.write path body = (.error e, after) ∧
        (∀ other, other ≠ path → after.entries other = w.entries other) ∧
        ¬ (w.entries path ≠ some .directory ∧ w.env.writeFault path = none) := by
  obtain ⟨name, named⟩ := Option.isSome_iff_exists.mp named
  unfold RecoveryWorld.write
  rw [named]
  split
  case h_1 unnamed => cases unnamed
  case h_2 directory =>
    exact .inr ⟨_, w, rfl, fun _ _ => rfl, fun allowed => allowed.1 directory⟩
  case h_3 _ _ file =>
    split
    case h_1 e left fault =>
      refine .inr ⟨e, _, rfl, fun other apart => RecoveryWorld.put_entries_of_ne apart _, ?_⟩
      exact fun allowed => by simp [fault] at allowed
    case h_2 e fault =>
      exact .inr ⟨e, w, rfl, fun _ _ => rfl, fun allowed => by simp [fault] at allowed⟩
    case h_3 fault => exact .inl ⟨rfl, file, fault⟩

theorem rename_cases {source target : PathBuf} {entry : Entry}
    (there : w.lookup source = some entry) (named : (PathBuf.fileName target).isSome) :
    (w.rename source target = (.ok (), (w.put source none).put target (some entry)) ∧
        w.entries target ≠ some .directory ∧ w.env.renameFault source target = none) ∨
      ∃ e, w.rename source target = (.error e, w) ∧
        ¬ (w.entries target ≠ some .directory ∧ w.env.renameFault source target = none) := by
  obtain ⟨name, named⟩ := Option.isSome_iff_exists.mp named
  unfold RecoveryWorld.rename
  rw [there, named]
  cases fault : w.env.renameFault source target with
  | some e => exact .inr ⟨e, rfl, fun allowed => by simp at allowed⟩
  | none =>
      dsimp only
      split
      case h_1 unnamed => cases unnamed
      case h_2 directory => exact .inr ⟨_, rfl, fun allowed => allowed.1 directory⟩
      case h_3 _ _ file => exact .inl ⟨rfl, file, rfl⟩

theorem lookup_of_entries {path : PathBuf} {entry : Entry} (filled : path ≠ [])
    (there : w.entries path = some entry) : w.lookup path = some entry := by
  rw [RecoveryWorld.lookup, if_neg filled, there]

/-- A file is put in its place exactly when all operations succeed, and else its place is as it
was. -/
theorem run_placeFile (contexts : Contexts) {path : PathBuf} {name : String}
    (shape : path = dir ++ [.normal name]) (body : Bytes) :
    (w.Persists path ∧
        RecoveryWorld.machine.run (placeFile contexts path body) w = (.ok (), w.placed path body)) ∨
      ¬ w.Persists path ∧ ∃ e after,
        RecoveryWorld.machine.run (placeFile contexts path body) w = (.error e, after) ∧
          after.entries path = w.entries path := by
  have named : (PathBuf.fileName path).isSome := by rw [shape, fileName_concat]; rfl
  have apart : path ≠ tmpPath path := shape ▸ RecoveryWorld.tmp_ne
  have tmp : tmpPath path =
      dir ++ [.normal ((UnixPath.splitAtDot name).1 ++ "." ++ "json.tmp")] :=
    shape ▸ tmpPath_concat
  have tmp_named : (PathBuf.fileName (tmpPath path)).isSome := by rw [tmp, fileName_concat]; rfl
  have here : (w.withDirs path).entries path = w.entries path :=
    shape ▸ RecoveryWorld.withDirs_entries
  have beside : (w.withDirs path).entries (tmpPath path) = w.entries (tmpPath path) := by
    rw [tmp, shape]
    exact RecoveryWorld.withDirs_entries
  generalize ran : RecoveryWorld.machine.run (placeFile contexts path body) w = result
  unfold placeFile at ran
  rw [RecoveryWorld.machine.run_bind] at ran
  obtain ⟨created, may⟩ | ⟨e, parent, created, found, fault⟩ :=
    run_createParent (w := w) contexts path
  rotate_left
  · rw [created] at ran
    subst ran
    exact .inr ⟨fun persists => fault (persists.create parent found), e, w, rfl, rfl⟩
  rw [created, Machine.resume_ok] at ran
  have env : (w.withDirs path).env = w.env := RecoveryWorld.withDirs_env path
  change RecoveryWorld.machine.run
    (underContext contexts.write ((w.withDirs path).write (tmpPath path) body).1 >>= fun _ =>
      RecoveryStore.perform (.rename (tmpPath path) path) >>= underContext contexts.rename)
    ((w.withDirs path).write (tmpPath path) body).2 = result at ran
  obtain ⟨written, room, write⟩ | ⟨e, after, written, kept, refused⟩ :=
    write_cases (w := w.withDirs path) body tmp_named
  rotate_left
  · obtain ⟨e', fails⟩ := underContext_error contexts.write e
    rw [written, fails] at ran
    subst ran
    refine .inr ⟨fun persists => refused ?_, e', after, rfl, (kept path apart).trans here⟩
    rw [beside, env]
    exact ⟨persists.room, persists.write⟩
  rw [written, underContext_ok] at ran
  change RecoveryWorld.machine.run
    (underContext contexts.rename (RecoveryWorld.rename _ (tmpPath path) path).1)
    (RecoveryWorld.rename _ (tmpPath path) path).2 = result at ran
  have there : ((w.withDirs path).put (tmpPath path) (some (.file body))).lookup (tmpPath path) =
      some (.file body) :=
    lookup_of_entries (by rw [tmp]; simp) (RecoveryWorld.put_entries _ _)
  obtain ⟨renamed, free, rename⟩ | ⟨e, renamed, refused⟩ := rename_cases there named
  · rw [renamed, underContext_ok] at ran
    subst ran
    rw [RecoveryWorld.put_entries_of_ne apart, here] at free
    refine .inl ⟨⟨may, beside ▸ room, env ▸ write, env ▸ rename, free⟩, rfl⟩
  · obtain ⟨e', fails⟩ := underContext_error contexts.rename e
    rw [renamed, fails] at ran
    subst ran
    refine .inr ⟨fun persists => refused ?_, e', _, rfl, ?_⟩
    · rw [RecoveryWorld.put_entries_of_ne apart, here, RecoveryWorld.put_env, env]
      exact ⟨persists.free, persists.rename⟩
    · rw [RecoveryWorld.put_entries_of_ne apart, here]

end Placing

/-! ## Wrapping -/

section Wrapping

variable {crates : RecoveryCrates} {w : RecoveryWorld} {seed salt nonce ciphertext : Bytes}
  {key : RecoveryKey} {wrap : BitVec 256} {time : Option Nat}

open RecoveryStore (deriveWrapKey wrapKey)

theorem deriveWrapKey_eq (length : salt.length = 16) :
    deriveWrapKey crates seed salt =
      (crates.argon2 seed salt).mapError (s!"argon2 derive failed: {·}") :=
  if_neg (not_not.mpr length)

theorem isWellFormed_recordOf (saltLength : salt.length = 16) (nonceLength : nonce.length = 24) :
    (recordOf salt nonce ciphertext time).isWellFormed := by
  simp [RecoveryRecord.isWellFormed, recordOf, hexDecode_hexEncode, saltLength, nonceLength]

/-- A wrapped key is unwrapped under a seed exactly when the seed gives the same wrap key. -/
theorem unwrapKey_recordOf (saltLength : salt.length = 16) (nonceLength : nonce.length = 24)
    (encrypted : crates.encrypt wrap nonce key.raw = .ok ciphertext) :
    unwrapKey crates (recordOf salt nonce ciphertext time) seed = .ok key ↔
      crates.argon2 seed salt = .ok wrap := by
  have unwraps : unwrapKey crates (recordOf salt nonce ciphertext time) seed = (do
      let wrap ← (crates.argon2 seed salt).mapError (s!"argon2 derive failed: {·}")
      let plaintext ← (crates.decrypt wrap nonce ciphertext).mapError
        (s!"unwrap_key decrypt failed: {·}")
      if length : plaintext.length = 32 then .ok ⟨plaintext, length⟩
      else .error s!"decrypted recovery key has wrong length: {plaintext.length}") := by
    rw [← deriveWrapKey_eq saltLength]
    simp only [unwrapKey, isWellFormed_recordOf saltLength nonceLength]
    simp only [recordOf, hexDecode_hexEncode]
    rfl
  rw [unwraps]
  cases derived : crates.argon2 seed salt with
  | error e =>
      constructor
      · intro same
        cases same
      · intro same
        cases same
  | ok other =>
      by_cases same : other = wrap
      · subst same
        have decrypted := crates.decrypt_encrypt _ _ _ _ encrypted
        refine ⟨fun _ => rfl, fun _ => ?_⟩
        change ((crates.decrypt other nonce ciphertext).mapError _ >>= _) = _
        rw [decrypted]
        exact dif_pos key.length_raw
      · obtain ⟨e, rejected⟩ := crates.rejects _ other _ _ _ encrypted same
        constructor
        · intro unwrapped
          change ((crates.decrypt other nonce ciphertext).mapError _ >>= _) = _ at unwrapped
          rw [rejected] at unwrapped
          cases unwrapped
        · intro equal
          exact absurd (Except.ok.inj equal) same

/-- The next random bytes of a world. -/
def RecoveryWorld.draw (w : RecoveryWorld) (ahead count : Nat) : Bytes :=
  (RecoveryWorld.fit count (w.draws (w.drawn + ahead))).1

theorem RecoveryWorld.length_draw (ahead count : Nat) : (w.draw ahead count).length = count :=
  (RecoveryWorld.fit count _).2

theorem run_wrapKey (crates : RecoveryCrates) (key : RecoveryKey) (short : seed.length ≤ 32) :
    ∃ wrap ciphertext,
    crates.argon2 seed (w.draw 0 16) = .ok wrap ∧
      crates.encrypt wrap (w.draw 1 24) key.raw = .ok ciphertext ∧
      RecoveryWorld.machine.run (wrapKey crates key seed) w =
        (.ok (recordOf (w.draw 0 16) (w.draw 1 24) ciphertext w.env.clock),
          { w with drawn := w.drawn + 2 }) := by
  obtain ⟨wrap, derived⟩ := crates.argon2_ok seed _ short (w.length_draw 0 16)
  obtain ⟨ciphertext, encrypted⟩ :=
    crates.encrypt_ok wrap _ key.raw (w.length_draw 1 24) key.length_raw
  refine ⟨wrap, ciphertext, derived, encrypted, ?_⟩
  change RecoveryWorld.machine.run
    (RecoveryStore.raise (deriveWrapKey crates seed (w.draw 0 16)) >>= _) _ = _
  rw [deriveWrapKey_eq (w.length_draw 0 16), derived]
  change RecoveryWorld.machine.run (RecoveryStore.raise
    ((crates.encrypt wrap (w.draw 1 24) key.raw).mapError _) >>= _) _ = _
  rw [encrypted]
  rfl

end Wrapping

/-! ## Rotating, loading and starting -/

section Running

variable {crates : RecoveryCrates} {w : RecoveryWorld} {seed : Bytes} {path : PathBuf}
  {dir : PathBuf}

open RecoveryStore (loadOrGenerate loadExisting generateNew wrapKey persistRecord)

theorem persistRecord_eq {record : RecoveryRecord} (filled : path ≠ []) :
    persistRecord crates path record = RecoveryStore.placeFile ⟨fun _ => none, none, none⟩ path
      (utf8 (crates.pretty record)) := by
  rw [persistRecord]
  exact if_neg filled

theorem eval_replace (crates : RecoveryCrates)
    (shape : path = dir ++ [.normal recoveryFileName]) (key newKey : RecoveryKey)
    (record newRecord : RecoveryRecord) :
    (w.Persists path ∧
        RecoveryWorld.machine.eval
          (RecoveryStore.replace crates ⟨path, key, record⟩ newKey newRecord) w =
        ((.ok newKey, ⟨path, newKey, newRecord⟩),
          w.placed path (utf8 (crates.pretty newRecord)))) ∨
      ¬ w.Persists path ∧ ∃ e after,
        RecoveryWorld.machine.eval
          (RecoveryStore.replace crates ⟨path, key, record⟩ newKey newRecord) w =
        ((.error e, ⟨path, newKey, newRecord⟩), after) ∧ after.entries path = w.entries path := by
  have filled : path ≠ [] := by rw [shape]; simp
  unfold RecoveryStore.replace
  rw [Machine.eval_bind, Machine.eval_attempt, persistRecord_eq filled]
  obtain ⟨persists, placed⟩ | ⟨stuck, e, after, failed, kept⟩ :=
    run_placeFile (w := w) ⟨fun _ => none, none, none⟩ shape
      (utf8 (crates.pretty newRecord))
  · rw [placed]
    exact .inl ⟨persists, rfl⟩
  · rw [failed]
    exact .inr ⟨stuck, e, after, rfl, kept⟩

/-- A rotation that returns a key has put it into the file and into memory; else the new key is in
memory only. -/
theorem eval_rotate (crates : RecoveryCrates) (short : seed.length ≤ 32)
    (shape : path = dir ++ [.normal recoveryFileName]) (key : RecoveryKey) (record : RecoveryRecord) :
    ∃ newKey wrap ciphertext newRecord, newKey.raw = w.draw 0 32 ∧
      crates.argon2 seed (w.draw 1 16) = .ok wrap ∧
      crates.encrypt wrap (w.draw 2 24) newKey.raw = .ok ciphertext ∧
      newRecord = recordOf (w.draw 1 16) (w.draw 2 24) ciphertext w.env.clock ∧
      ((w.Persists path ∧ ∃ after,
          RecoveryWorld.machine.eval (RecoveryStore.rotate crates ⟨path, key, record⟩ seed) w =
            ((.ok newKey, ⟨path, newKey, newRecord⟩), after) ∧
          after = RecoveryWorld.placed { w with drawn := w.drawn + 3 } path
            (utf8 (crates.pretty newRecord))) ∨
        ¬ w.Persists path ∧ ∃ e after,
          RecoveryWorld.machine.eval (RecoveryStore.rotate crates ⟨path, key, record⟩ seed) w =
            ((.error e, ⟨path, newKey, newRecord⟩), after) ∧
          after.entries path = w.entries path) := by
  let newKey : RecoveryKey := ⟨w.draw 0 32, w.length_draw 0 32⟩
  obtain ⟨wrap, ciphertext, derived, encrypted, wrapped⟩ :=
    run_wrapKey (w := { w with drawn := w.drawn + 1 }) crates newKey short
  refine ⟨newKey, wrap, ciphertext, _, rfl, derived, encrypted, rfl, ?_⟩
  have rotates : RecoveryWorld.machine.eval
      (RecoveryStore.rotate crates ⟨path, key, record⟩ seed) w =
      RecoveryWorld.machine.eval (RecoveryStore.replace crates ⟨path, key, record⟩ newKey
        (recordOf (w.draw 1 16) (w.draw 2 24) ciphertext w.env.clock))
        { w with drawn := w.drawn + 3 } := by
    unfold RecoveryStore.rotate
    rw [Machine.eval_bind]
    change RecoveryWorld.machine.eval ((wrapKey crates newKey seed).attempt >>= _)
      { w with drawn := w.drawn + 1 } = _
    rw [Machine.eval_bind, Machine.eval_attempt, wrapped]
    rfl
  rw [rotates]
  obtain ⟨persists, replaced⟩ | ⟨stuck, e, after, replaced, kept⟩ :=
    eval_replace crates (w := { w with drawn := w.drawn + 3 }) shape key newKey record
      (recordOf (w.draw 1 16) (w.draw 2 24) ciphertext w.env.clock)
  · exact .inl ⟨persists.redrawn _ _, _, replaced, rfl⟩
  · exact .inr ⟨fun persists => stuck (persists.redrawn _ _), e, after, replaced, kept⟩

/-- The file of a path is found. -/
def RecoveryWorld.present (w : RecoveryWorld) (path : PathBuf) : Bool :=
  !w.env.statFault path && (w.lookup path).isSome

/-- A store is loaded from the file of a path. -/
structure Loads (crates : RecoveryCrates) (w : RecoveryWorld) (seed : Bytes) (path : PathBuf)
    (record : RecoveryRecord) (key : RecoveryKey) : Prop where
  readable : w.env.readFault path = none
  content : ∃ content text, w.lookup path = some (.file content) ∧ fromUtf8 content = .ok text ∧
    crates.parse text = some record
  unwrapped : unwrapKey crates record seed = .ok key

theorem isWellFormed_of_unwrapKey {record : RecoveryRecord} {key : RecoveryKey}
    (unwrapped : unwrapKey crates record seed = .ok key) : record.isWellFormed := by
  by_contra malformed
  rw [unwrapKey, if_pos (by simpa using malformed)] at unwrapped
  cases unwrapped

theorem run_loadOrGenerate :
    RecoveryWorld.machine.run (loadOrGenerate crates seed path) w =
      if w.present path then RecoveryWorld.machine.run (loadExisting crates seed path) w
      else RecoveryWorld.machine.run (generateNew crates seed path) w := by
  change RecoveryWorld.machine.run (if w.present path then _ else _) w = _
  split <;> rfl

theorem exec_readToString (text : String) :
    (RecoveryWorld.exec (.readToString path) w).1 = .ok text ↔
      w.env.readFault path = none ∧
        ∃ content, w.lookup path = some (.file content) ∧ fromUtf8 content = .ok text := by
  cases fault : w.env.readFault path with
  | some e => simp [RecoveryWorld.exec, fault]
  | none =>
      cases there : w.lookup path with
      | none => simp [RecoveryWorld.exec, fault, there]
      | some entry =>
          cases entry with
          | directory => simp [RecoveryWorld.exec, fault, there]
          | file content =>
              cases read : fromUtf8 content <;> simp [RecoveryWorld.exec, fault, there, read]

/-- Reading changes nothing. -/
theorem exec_readToString_snd : (RecoveryWorld.exec (.readToString path) w).2 = w := by
  simp only [RecoveryWorld.exec]
  split <;> try rfl
  split <;> rfl

/-- A file that is found is loaded, or the call fails. -/
theorem run_loadExisting (crates : RecoveryCrates) (w : RecoveryWorld) (seed : Bytes)
    (path : PathBuf) :
    (∃ record key, Loads crates w seed path record key ∧
        RecoveryWorld.machine.run (loadExisting crates seed path) w =
          (.ok ⟨path, key, record⟩, w)) ∨
      (¬ ∃ record key, Loads crates w seed path record key) ∧ ∃ e,
        RecoveryWorld.machine.run (loadExisting crates seed path) w = (.error e, w) := by
  have reads : RecoveryWorld.machine.run (loadExisting crates seed path) w =
      RecoveryWorld.machine.run (RecoveryStore.orFail s!"read recovery {UnixPath.render path}"
        (RecoveryWorld.exec (.readToString path) w).1 >>= _)
        (RecoveryWorld.exec (.readToString path) w).2 := rfl
  rw [reads, exec_readToString_snd]
  cases answer : (RecoveryWorld.exec (.readToString path) w).1 with
  | error e =>
      refine .inr ⟨?_, _, rfl⟩
      rintro ⟨record, key, readable, ⟨content, text, there, read, -⟩, -⟩
      have ok := (exec_readToString text).mpr ⟨readable, content, there, read⟩
      rw [answer] at ok
      cases ok
  | ok text =>
      obtain ⟨readable, content, there, read⟩ := (exec_readToString text).mp answer
      have only {record : RecoveryRecord} {key : RecoveryKey}
          (loads : Loads crates w seed path record key) : crates.parse text = some record := by
        obtain ⟨content', text', there', read', parsed⟩ := loads.content
        rw [there] at there'
        cases there'
        rw [read] at read'
        cases read'
        exact parsed
      simp only [RecoveryStore.orFail, Program.done_bind]
      cases parsed : crates.parse text with
      | none =>
          refine .inr ⟨?_, _, rfl⟩
          rintro ⟨record, key, loads⟩
          cases parsed.symm.trans (only loads)
      | some record =>
          cases unwrapped : unwrapKey crates record seed with
          | error e =>
              refine .inr ⟨?_, ?_⟩
              · rintro ⟨other, key, loads⟩
                obtain rfl := Option.some.inj (parsed.symm.trans (only loads))
                cases unwrapped.symm.trans loads.unwrapped
              · dsimp only
                rw [unwrapped]
                split <;> exact ⟨_, rfl⟩
          | ok key =>
              refine .inl ⟨record, key, ⟨readable, ⟨content, text, there, read, parsed⟩, unwrapped⟩,
                ?_⟩
              dsimp only
              rw [isWellFormed_of_unwrapKey unwrapped, unwrapped]
              rfl

/-- A first boot ends with a new key exactly when all operations succeed. -/
theorem run_generateNew (crates : RecoveryCrates) (short : seed.length ≤ 32)
    (shape : path = dir ++ [.normal recoveryFileName]) :
    (w.Persists path ∧ ∃ key record after, key.raw = w.draw 0 32 ∧
        RecoveryWorld.machine.run (generateNew crates seed path) w =
          (.ok ⟨path, key, record⟩, after)) ∨
      ¬ w.Persists path ∧ ∃ e after,
        RecoveryWorld.machine.run (generateNew crates seed path) w = (.error e, after) := by
  let key : RecoveryKey := ⟨w.draw 0 32, w.length_draw 0 32⟩
  obtain ⟨wrap, ciphertext, -, -, wrapped⟩ :=
    run_wrapKey (w := { w with drawn := w.drawn + 1 }) crates key short
  have generates : RecoveryWorld.machine.run (generateNew crates seed path) w =
      RecoveryWorld.machine.run (wrapKey crates key seed >>= _)
        { w with drawn := w.drawn + 1 } := rfl
  rw [generates, Machine.run_bind, wrapped, Machine.resume_ok, Machine.run_bind]
  obtain ⟨persists, placed⟩ | ⟨stuck, e, after, failed, -⟩ :=
    run_placeFile (w := { w with drawn := w.drawn + 3 }) _ shape _
  · rw [placed]
    exact .inl ⟨persists.redrawn _ _, key, _, _, rfl, rfl⟩
  · rw [failed]
    exact .inr ⟨fun persists => stuck (persists.redrawn _ _), e, after, rfl⟩

/-- There is no store without a path. -/
theorem run_loadOrGenerate_nil (crates : RecoveryCrates) (short : seed.length ≤ 32) : ∃ e after,
    RecoveryWorld.machine.run (loadOrGenerate crates seed []) w = (.error e, after) := by
  have absent : w.present [] = false := by simp [RecoveryWorld.present, RecoveryWorld.lookup]
  rw [run_loadOrGenerate, absent]
  let key : RecoveryKey := ⟨w.draw 0 32, w.length_draw 0 32⟩
  obtain ⟨wrap, ciphertext, -, -, wrapped⟩ :=
    run_wrapKey (w := { w with drawn := w.drawn + 1 }) crates key short
  have generates : RecoveryWorld.machine.run (generateNew crates seed []) w =
      RecoveryWorld.machine.run (wrapKey crates key seed >>= _)
        { w with drawn := w.drawn + 1 } := rfl
  rw [if_neg Bool.false_ne_true, generates, Machine.run_bind, wrapped]
  exact ⟨_, _, rfl⟩

/-- A file holds one key. -/
theorem Loads.unique {record other : RecoveryRecord} {key otherKey : RecoveryKey}
    (loads : Loads crates w seed path record key)
    (also : Loads crates w seed path other otherKey) : other = record ∧ otherKey = key := by
  obtain ⟨-, ⟨content, text, there, read, parsed⟩, unwrapped⟩ := loads
  obtain ⟨-, ⟨content', text', there', read', parsed'⟩, unwrapped'⟩ := also
  cases there.symm.trans there'
  cases read.symm.trans read'
  cases parsed.symm.trans parsed'
  cases unwrapped.symm.trans unwrapped'
  exact ⟨rfl, rfl⟩

theorem run_loadOrGenerate_of_loads (found : w.present path = true) {record : RecoveryRecord}
    {key : RecoveryKey} (loads : Loads crates w seed path record key) :
    RecoveryWorld.machine.run (loadOrGenerate crates seed path) w =
      (.ok ⟨path, key, record⟩, w) := by
  rw [run_loadOrGenerate, if_pos found]
  obtain ⟨other, otherKey, also, ran⟩ | ⟨none, -⟩ :=
    run_loadExisting crates w seed path
  · obtain ⟨rfl, rfl⟩ := loads.unique also
    exact ran
  · exact absurd ⟨record, key, loads⟩ none

/-- A file is loaded, or a first boot goes through. -/
def Startable (crates : RecoveryCrates) (w : RecoveryWorld) (seed : Bytes) (path : PathBuf) :
    Prop :=
  if w.present path then ∃ record key, Loads crates w seed path record key else w.Persists path

/-- What a call that returns a store has done. -/
theorem run_loadOrGenerate_cases (crates : RecoveryCrates) (short : seed.length ≤ 32)
    (shape : path = dir ++ [.normal recoveryFileName]) :
    (Startable crates w seed path ∧ ∃ key record after,
        RecoveryWorld.machine.run (loadOrGenerate crates seed path) w =
          (.ok ⟨path, key, record⟩, after) ∧
        if w.present path then Loads crates w seed path record key else key.raw = w.draw 0 32) ∨
      ¬ Startable crates w seed path ∧ ∃ e after,
        RecoveryWorld.machine.run (loadOrGenerate crates seed path) w = (.error e, after) := by
  rw [run_loadOrGenerate, Startable]
  cases w.present path with
  | true =>
      obtain ⟨record, key, loads, ran⟩ | ⟨none, e, ran⟩ :=
        run_loadExisting crates w seed path
      · exact .inl ⟨⟨record, key, loads⟩, key, record, w, ran, loads⟩
      · exact .inr ⟨none, e, w, ran⟩
  | false =>
      obtain ⟨persists, key, record, after, drawn, ran⟩ | ⟨stuck, e, after, ran⟩ :=
        run_generateNew crates (w := w) short shape
      · exact .inl ⟨persists, key, record, after, ran, drawn⟩
      · exact .inr ⟨stuck, e, after, ran⟩

theorem length_seedOrZeros (seed : Except String SecretKey) : (seedOrZeros seed).length ≤ 32 := by
  cases seed with
  | ok key => exact (Bytes.length_ofNatBE 32 _).le
  | error e => exact (List.length_replicate).le

/-- The start has the store of the host's own file, or none. -/
theorem run_recoveryBootstrap (crates : RecoveryCrates) (identityPath : PathBuf) :
    (∃ store after, RecoveryWorld.machine.run (loadOrGenerate crates
        (seedOrZeros (w.env.hostSeed identityPath)) (defaultPath identityPath))
        (w.touchIdentity identityPath) = (.ok store, after) ∧
        RecoveryWorld.machine.run (recoveryBootstrap crates identityPath) w = (.ok store, after)) ∨
      (∃ e after, RecoveryWorld.machine.run (loadOrGenerate crates
        (seedOrZeros (w.env.hostSeed identityPath)) (defaultPath identityPath))
        (w.touchIdentity identityPath) = (.error e, after)) ∧
        ∃ e after, RecoveryWorld.machine.run (recoveryBootstrap crates identityPath) w =
          (.error e, after) := by
  have boots : RecoveryWorld.machine.run (recoveryBootstrap crates identityPath) w =
      RecoveryWorld.machine.run ((loadOrGenerate crates
        (seedOrZeros (w.env.hostSeed identityPath)) (defaultPath identityPath)).attempt >>= _)
        (w.touchIdentity identityPath) := rfl
  rw [boots, Machine.run_bind, Machine.run_attempt, Machine.resume_ok]
  rcases ran : RecoveryWorld.machine.run (loadOrGenerate crates
    (seedOrZeros (w.env.hostSeed identityPath)) (defaultPath identityPath))
    (w.touchIdentity identityPath) with ⟨_ | store, after⟩
  · obtain ⟨e, final, fallback⟩ := run_loadOrGenerate_nil crates (w := after)
      (length_seedOrZeros (w.env.hostSeed identityPath))
    refine .inr ⟨⟨_, _, rfl⟩, ?_⟩
    change RecoveryWorld.machine.run (loadOrGenerate crates (seedOrZeros
      (RecoveryWorld.machine.exec (.hostSeed identityPath) w).1) []) after = _ at fallback
    rw [Machine.run_bind, Machine.run_attempt, Machine.resume_ok]
    dsimp only
    rw [fallback]
    exact ⟨_, _, rfl⟩
  · exact .inl ⟨store, after, rfl, rfl⟩

end Running

/-! ## Rotations and the next start -/

/-- Who calls `rotate`. -/
inductive Rotator where
  /-- `qubox-host-agent recovery rotate` -/
  | cli
  /-- `rotate_recovery` -/
  | running
  deriving DecidableEq

/-- The path of the store and the seed that `rotate` is called with, if it is. -/
def Rotator.call (s : Surroundings) (hostSeed : PathBuf → Except String SecretKey) :
    Rotator → Option (PathBuf × Bytes)
  | .cli =>
      match s.resolveIdentityPathFromEnv with
      | .error _ => none
      | .ok identityPath =>
          match hostSeed identityPath with
          | .ok seed => some (defaultPath identityPath, keyBytes seed)
          | .error _ => none
  | .running => some (defaultPath s.identityPath, seedOrDefault (hostSeed (rotationPath s)))

/-- The same files at another time. -/
def RecoveryWorld.begin (w : RecoveryWorld) (env : RecoveryEnv) (draws : Nat → Bytes) :
    RecoveryWorld :=
  { w with env, draws, drawn := 0 }

/-- A rotation and the start of the host after it, whatever bytes are drawn. -/
structure Survives (crates : RecoveryCrates) (s : Surroundings) (rotator : Rotator)
    (w : RecoveryWorld) (later : RecoveryEnv) (key : RecoveryKey) (record : RecoveryRecord) :
    Prop where
  /-- A key that is returned is the key of the next start. -/
  returned : ∀ path seed draws draws' newKey rotated after,
    rotator.call s w.env.hostSeed = some (path, seed) →
    RecoveryWorld.machine.eval (RecoveryStore.rotate crates ⟨path, key, record⟩ seed)
      (w.begin w.env draws) = ((.ok newKey, rotated), after) →
    ∃ next final, RecoveryWorld.machine.run (recoveryBootstrap crates s.identityPath)
      (after.begin later draws') = (.ok next, final) ∧ next.key = newKey
  /-- After an error the running store and the file have the old key. -/
  failed : ∀ path seed draws e rotated after,
    rotator.call s w.env.hostSeed = some (path, seed) →
    RecoveryWorld.machine.eval (RecoveryStore.rotate crates ⟨path, key, record⟩ seed)
      (w.begin w.env draws) = ((.error e, rotated), after) →
    rotated.key = key ∧ after.entries path = w.entries path
  /-- The start does not panic. -/
  starts : ∀ draws, ∃ next final,
    RecoveryWorld.machine.run (recoveryBootstrap crates s.identityPath) (w.begin later draws) =
      (.ok next, final)

/-- The files as the start finds them, and the file operations, are such that nothing is lost. -/
structure Careful (crates : RecoveryCrates) (s : Surroundings) (rotator : Rotator)
    (w : RecoveryWorld) (later : RecoveryEnv) : Prop where
  /-- The operations that put the new record in its place succeed. -/
  persists : ∀ path seed, rotator.call s w.env.hostSeed = some (path, seed) → w.Persists path
  /-- It is the file that the start looks at. -/
  samePath : ∀ path seed, rotator.call s w.env.hostSeed = some (path, seed) →
    path = defaultPath s.identityPath ∧ s.identityPath ≠ path
  /-- The seed that it is wrapped under gives the wrap keys of the seed of the start. -/
  sameSeed : ∀ path seed, rotator.call s w.env.hostSeed = some (path, seed) →
    ∀ salt, salt.length = 16 →
      crates.argon2 (seedOrZeros (later.hostSeed s.identityPath)) salt = crates.argon2 seed salt
  /-- The start can read it. -/
  readable : ∀ path seed, rotator.call s w.env.hostSeed = some (path, seed) →
    later.statFault path = false ∧ later.readFault path = none
  /-- The start can read the file of before as well, or make a new one where there is none. -/
  starts : Startable crates ((w.begin later w.draws).touchIdentity s.identityPath)
    (seedOrZeros (later.hostSeed s.identityPath)) (defaultPath s.identityPath)

section Rotations

variable {crates : RecoveryCrates} {s : Surroundings} {rotator : Rotator} {w : RecoveryWorld}
  {later : RecoveryEnv} {key : RecoveryKey} {record : RecoveryRecord} {path : PathBuf}
  {seed : Bytes}

theorem call_cases (called : rotator.call s w.env.hostSeed = some (path, seed)) :
    seed.length ≤ 32 ∧ ∃ dir : PathBuf, path = dir ++ [.normal recoveryFileName] := by
  unfold Rotator.call at called
  split at called
  · split at called
    · cases called
    · split at called
      · cases called
        exact ⟨(Bytes.length_ofNatBE 32 _).le, defaultPath_eq _⟩
      · cases called
  · cases called
    refine ⟨?_, defaultPath_eq _⟩
    unfold seedOrDefault
    split
    · exact (Bytes.length_ofNatBE 32 _).le
    · exact Nat.zero_le _

/-- `rotate_recovery` calls `rotate` for the path that the host was started with. -/
theorem eval_rotateRecovery (store : RecoveryStore) :
    RecoveryWorld.machine.eval (rotateRecovery crates s store) w =
      RecoveryWorld.machine.eval
        (RecoveryStore.rotate crates store (seedOrDefault (w.env.hostSeed (rotationPath s))) >>=
          fun rotated => pure (rotated.1.map fun key => hexEncode key.raw, rotated.2))
        (w.touchIdentity (rotationPath s)) := rfl

/-- `rotate` itself does not fail: it returns its result. -/
theorem run_rotate {ε : Type} (store : RecoveryStore) :
    RecoveryWorld.machine.run (RecoveryStore.rotate crates store seed : Recovering ε _) w =
      (.ok (RecoveryWorld.machine.eval (RecoveryStore.rotate crates store seed) w).1,
        (RecoveryWorld.machine.eval (RecoveryStore.rotate crates store seed) w).2) := by
  have drawn : RecoveryWorld.machine.run (RecoveryStore.generate : Recovering ε _) w =
      (.ok (RecoveryWorld.machine.eval RecoveryStore.generate w).1,
        (RecoveryWorld.machine.eval RecoveryStore.generate w).2) := rfl
  simp only [RecoveryStore.rotate, RecoveryStore.replace, Machine.eval_bind, Machine.eval_attempt,
    Machine.run_bind, drawn, Machine.resume_ok, Machine.run_attempt]
  split
  · rfl
  · simp only [Machine.eval_bind, Machine.eval_attempt, Machine.run_bind, Machine.run_attempt,
      Machine.resume_ok]
    split <;> rfl

theorem raise_ok {α : Type} {r : Except String α} {a : α} {w w' : RecoveryWorld}
    (ran : RecoveryWorld.machine.run (RecoveryStore.raise r) w = (.ok a, w')) :
    r = .ok a ∧ w = w' := by
  cases r with
  | ok value =>
      cases ran
      exact ⟨rfl, rfl⟩
  | error e => cases ran

/-- The commands work on the store of the path that they find, with the seed of that path. -/
theorem run_recoveryCliStore {store : RecoveryStore} {after : RecoveryWorld}
    (ran : RecoveryWorld.machine.run (recoveryCliStore crates s) w = (.ok (store, seed), after)) :
    Rotator.cli.call s w.env.hostSeed = some (store.path, seed) := by
  obtain ⟨identityPath, _, raised, rest⟩ := RecoveryWorld.machine.run_bind_ok ran
  obtain ⟨resolved, rfl⟩ := raise_ok raised
  obtain ⟨_, _, asked, raising⟩ := RecoveryWorld.machine.run_bind_ok rest
  cases asked
  obtain ⟨key, _, raised, loading⟩ := RecoveryWorld.machine.run_bind_ok raising
  obtain ⟨derived, rfl⟩ := raise_ok raised
  obtain ⟨loadedStore, middle, loaded, done⟩ := RecoveryWorld.machine.run_bind_ok loading
  cases done
  have looked : w.env.hostSeed identityPath = .ok key := by
    change (w.env.hostSeed identityPath).mapError _ = .ok key at derived
    cases answer : w.env.hostSeed identityPath with
    | error e =>
        rw [answer] at derived
        cases derived
    | ok _ =>
        rw [answer] at derived
        exact derived
  obtain ⟨dir, shape⟩ := defaultPath_eq identityPath
  obtain ⟨-, _, record, final, named, -⟩ | ⟨-, e, final, failed⟩ :=
    run_loadOrGenerate_cases crates (w := w.touchIdentity identityPath)
      (Bytes.length_ofNatBE 32 _).le shape
  · cases loaded.symm.trans named
    simp only [Rotator.call, resolved, looked]
  · cases loaded.symm.trans failed

/-- A rotation on the command line prints the key of a call of `rotate`. -/
theorem run_handleRecoveryCli {text : String} {after : RecoveryWorld}
    (ran : RecoveryWorld.machine.run (handleRecoveryCli crates s "rotate") w = (.ok text, after)) :
    ∃ store seed middle newKey rotated,
      Rotator.cli.call s w.env.hostSeed = some (store.path, seed) ∧
      RecoveryWorld.machine.eval (RecoveryStore.rotate crates store seed) middle =
        ((.ok newKey, rotated), after) ∧ text = hexEncode newKey.raw := by
  obtain ⟨⟨store, seed⟩, middle, loaded, rest⟩ := RecoveryWorld.machine.run_bind_ok ran
  change RecoveryWorld.machine.run (RecoveryStore.rotate crates store seed >>= _) middle = _ at rest
  rw [Machine.run_bind, run_rotate, Machine.resume_ok] at rest
  rcases rotated : RecoveryWorld.machine.eval (RecoveryStore.rotate crates store seed) middle with
    ⟨⟨_ | newKey, store'⟩, final⟩
  · rw [rotated] at rest
    cases rest
  · rw [rotated] at rest
    cases rest
    exact ⟨store, seed, middle, newKey, store', run_recoveryCliStore loaded, rotated, rfl⟩

/-- The bytes of a draw do not matter for a start. -/
theorem Startable.redrawn (startable : Startable crates w seed path) (draws : Nat → Bytes)
    (drawn : Nat) : Startable crates { w with draws, drawn } seed path := by
  unfold Startable at startable ⊢
  change if w.present path then _ else _
  split at startable
  case isTrue found =>
    rw [if_pos found]
    obtain ⟨record, key, loads⟩ := startable
    exact ⟨record, key, loads.readable, loads.content, loads.unwrapped⟩
  case isFalse absent =>
    rw [if_neg absent]
    exact startable.redrawn draws drawn

theorem starts_iff : (∀ draws, ∃ next final,
      RecoveryWorld.machine.run (recoveryBootstrap crates s.identityPath) (w.begin later draws) =
        (.ok next, final)) ↔
    Startable crates ((w.begin later w.draws).touchIdentity s.identityPath)
      (seedOrZeros (later.hostSeed s.identityPath)) (defaultPath s.identityPath) := by
  obtain ⟨dir, shape⟩ := defaultPath_eq s.identityPath
  constructor
  · intro starts
    obtain ⟨next, final, ran⟩ := starts w.draws
    obtain ⟨store, after, loaded, -⟩ | ⟨-, e, after, failed⟩ :=
      run_recoveryBootstrap crates (w := w.begin later w.draws) s.identityPath
    · obtain ⟨startable, -⟩ | ⟨-, e, after, failed⟩ := run_loadOrGenerate_cases crates
        (w := (w.begin later w.draws).touchIdentity s.identityPath)
        (length_seedOrZeros (later.hostSeed s.identityPath)) shape
      · exact startable
      · cases loaded.symm.trans failed
    · cases ran.symm.trans failed
  · intro startable draws
    obtain ⟨store, after, -, ran⟩ | ⟨⟨e, after, failed⟩, -⟩ :=
      run_recoveryBootstrap crates (w := w.begin later draws) s.identityPath
    · exact ⟨store, after, ran⟩
    · obtain ⟨-, key, record, final, loaded, -⟩ | ⟨stuck, -⟩ := run_loadOrGenerate_cases crates
        (w := (w.begin later draws).touchIdentity s.identityPath)
        (length_seedOrZeros (later.hostSeed s.identityPath)) shape
      · cases loaded.symm.trans failed
      · exact absurd (startable.redrawn draws 0) stuck

theorem fit_eq {count : Nat} {bytes : Bytes} (length : bytes.length = count) :
    (RecoveryWorld.fit count bytes).1 = bytes := by
  change bytes.take count ++ List.replicate (count - bytes.length) 0 = bytes
  rw [List.take_of_length_le length.le, length, Nat.sub_self, List.replicate_zero, List.append_nil]

/-- There is more than one key. -/
theorem exists_other (key : RecoveryKey) : ∃ other : RecoveryKey, other ≠ key := by
  by_cases zeros : key.raw = List.replicate 32 0
  · refine ⟨⟨List.replicate 32 1, List.length_replicate⟩, fun same => ?_⟩
    rw [← same] at zeros
    exact absurd zeros (by decide)
  · exact ⟨⟨List.replicate 32 0, List.length_replicate⟩, fun same => zeros (same ▸ rfl)⟩

/-- The draws of a key, a salt and a nonce. -/
def drawing (key salt nonce : Bytes) : Nat → Bytes
  | 0 => key
  | 1 => salt
  | _ => nonce

theorem failed_iff (called : rotator.call s w.env.hostSeed = some (path, seed)) :
    (∀ draws e rotated after,
      RecoveryWorld.machine.eval (RecoveryStore.rotate crates ⟨path, key, record⟩ seed)
        (w.begin w.env draws) = ((.error e, rotated), after) →
      rotated.key = key ∧ after.entries path = w.entries path) ↔ w.Persists path := by
  obtain ⟨short, dir, shape⟩ := call_cases called
  constructor
  · intro failed
    obtain ⟨other, different⟩ := exists_other key
    obtain ⟨newKey, _, _, _, drawn, -, -, -, ⟨persists, -⟩ | ⟨-, e, after, ran, -⟩⟩ :=
      eval_rotate crates (w := w.begin w.env fun _ => other.raw) short shape key record
    · exact persists.redrawn _ _
    · have same : newKey = key := (failed _ e _ after ran).1
      have raw : newKey.raw = other.raw := drawn.trans (fit_eq other.length_raw)
      cases newKey
      cases other
      cases raw
      exact absurd same different
  · intro persists draws e rotated after ran
    obtain ⟨newKey, wrap, ciphertext, newRecord, -, -, -, -, ⟨-, after', ok, -⟩ | ⟨stuck, -⟩⟩ :=
      eval_rotate crates (w := w.begin w.env draws) short shape key record
    · rw [ok] at ran
      cases ran
    · exact absurd (persists.redrawn _ _) stuck

/-- What the start finds at its own path after a file was placed. -/
def found (s : Surroundings) (w : RecoveryWorld) (later : RecoveryEnv) (path : PathBuf)
    (body : Bytes) : Option Entry :=
  if defaultPath s.identityPath = s.identityPath then
    later.identityFiles (defaultPath s.identityPath)
  else (w.placed path body).entries (defaultPath s.identityPath)

theorem defaultPath_ne_identityKey (identityPath : PathBuf) :
    defaultPath identityPath ≠ PathBuf.withFileName identityPath "identity.key" := by
  intro same
  unfold defaultPath PathBuf.withFileName at same
  split at same <;> exact absurd (List.append_cancel_left same) (by decide)

theorem entries_placed (env : RecoveryEnv) (draws : Nat → Bytes) (drawn : Nat) (body : Bytes) :
    (RecoveryWorld.placed { w with env, draws, drawn } path body).entries =
      (w.placed path body).entries := by
  unfold RecoveryWorld.placed RecoveryWorld.withDirs
  cases directoryOf path <;> rfl

theorem lookup_start (env : RecoveryEnv) (draws draws' : Nat → Bytes) (drawn : Nat)
    (body : Bytes) :
    (((RecoveryWorld.placed { w with env, draws, drawn } path body).begin later
      draws').touchIdentity s.identityPath).lookup (defaultPath s.identityPath) =
      found s w later path body := by
  obtain ⟨dir, shape⟩ := defaultPath_eq s.identityPath
  have filled : defaultPath s.identityPath ≠ [] := by rw [shape]; simp
  rw [RecoveryWorld.lookup, if_neg filled, found, ← entries_placed env draws drawn]
  change (if _ ∨ _ then later.identityFiles _ else _) = _
  simp only [defaultPath_ne_identityKey, or_false]
  rfl

/-- A file whose content does not depend on what was placed is not the placed file. -/
theorem found_eq (shape : ∃ dir : PathBuf, path = dir ++ [.normal recoveryFileName])
    (body other : Bytes)
    (elsewhere : ¬ (path = defaultPath s.identityPath ∧ s.identityPath ≠ path)) :
    found s w later path body = found s w later path other := by
  unfold found
  split
  · rfl
  case isFalse apart =>
    have different : defaultPath s.identityPath ≠ path :=
      fun same => elsewhere ⟨same.symm, fun own => apart (same.trans own.symm)⟩
    have not_tmp : defaultPath s.identityPath ≠ tmpPath path := by
      obtain ⟨dir, shape⟩ := shape
      obtain ⟨dir', shape'⟩ := defaultPath_eq s.identityPath
      rw [shape, shape', tmpPath_recoveryFileName]
      intro same
      have names := (List.append_inj' same rfl).2
      exact absurd names (by decide)
    simp only [RecoveryWorld.placed, RecoveryWorld.put_entries_of_ne different,
      RecoveryWorld.put_entries_of_ne not_tmp]

/-- The key of every such rotation is that of the start after it. -/
def KeyLasts (crates : RecoveryCrates) (s : Surroundings) (w : RecoveryWorld) (later : RecoveryEnv)
    (key : RecoveryKey) (record : RecoveryRecord) (path : PathBuf) (seed : Bytes) : Prop :=
  ∀ draws draws' newKey rotated after,
    RecoveryWorld.machine.eval (RecoveryStore.rotate crates ⟨path, key, record⟩ seed)
      (w.begin w.env draws) = ((.ok newKey, rotated), after) →
    ∃ next final, RecoveryWorld.machine.run (recoveryBootstrap crates s.identityPath)
      (after.begin later draws') = (.ok next, final) ∧ next.key = newKey

/-- What the start has loaded when it has a rotated key. -/
theorem loaded_of_returned (called : rotator.call s w.env.hostSeed = some (path, seed))
    (persists : w.Persists path)
    (returned : KeyLasts crates s w later key record path seed)
    (newKey : RecoveryKey) {salt nonce : Bytes} (saltLength : salt.length = 16)
    (nonceLength : nonce.length = 24) :
    ∃ wrap ciphertext newRecord content text loaded,
      crates.argon2 seed salt = .ok wrap ∧
      crates.encrypt wrap nonce newKey.raw = .ok ciphertext ∧
      newRecord = recordOf salt nonce ciphertext w.env.clock ∧
      later.statFault (defaultPath s.identityPath) = false ∧
      later.readFault (defaultPath s.identityPath) = none ∧
      found s w later path (utf8 (crates.pretty newRecord)) = some (.file content) ∧
      fromUtf8 content = .ok text ∧ crates.parse text = some loaded ∧
      unwrapKey crates loaded (seedOrZeros (later.hostSeed s.identityPath)) = .ok newKey := by
  obtain ⟨short, dir, shape⟩ := call_cases called
  obtain ⟨dir', shape'⟩ := defaultPath_eq s.identityPath
  obtain ⟨drawnKey, wrap, ciphertext, newRecord, drawn, derived, encrypted, recorded, rotates⟩ :=
    eval_rotate crates (w := w.begin w.env (drawing newKey.raw salt nonce)) short shape
      key record
  have raw : drawnKey.raw = newKey.raw := drawn.trans (fit_eq newKey.length_raw)
  obtain rfl : drawnKey = newKey := by
    cases drawnKey
    cases newKey
    cases raw
    rfl
  have drawnSalt : (w.begin w.env (drawing drawnKey.raw salt nonce)).draw 1 16 = salt :=
    fit_eq saltLength
  have drawnNonce : (w.begin w.env (drawing drawnKey.raw salt nonce)).draw 2 24 = nonce :=
    fit_eq nonceLength
  rw [drawnSalt] at derived recorded
  rw [drawnNonce] at encrypted recorded
  obtain ⟨-, after, rotated, same⟩ | ⟨stuck, -⟩ := rotates
  rotate_left
  · exact absurd (persists.redrawn _ _) stuck
  obtain ⟨other, different⟩ := exists_other drawnKey
  obtain ⟨next, final, booted, keys⟩ := returned _ (fun _ => other.raw) _ _ _ rotated
  subst same
  obtain ⟨store, loadedWorld, loaded, bootedStore⟩ | ⟨-, e, after, failed⟩ :=
    run_recoveryBootstrap crates (w := (RecoveryWorld.placed _ path _).begin later
      fun _ => other.raw) s.identityPath
  rotate_left
  · cases booted.symm.trans failed
  cases booted.symm.trans bootedStore
  obtain ⟨-, loadedKey, loadedRecord, final', ran, origin⟩ | ⟨-, e, after, failed⟩ :=
    run_loadOrGenerate_cases crates (w := RecoveryWorld.touchIdentity _ _)
      (length_seedOrZeros (later.hostSeed s.identityPath)) shape'
  rotate_left
  · cases loaded.symm.trans failed
  cases loaded.symm.trans ran
  obtain rfl : loadedKey = drawnKey := keys
  split at origin
  case isFalse =>
    have raw : loadedKey.raw = other.raw := origin.trans (fit_eq other.length_raw)
    cases loadedKey
    cases other
    cases raw
    exact absurd rfl different
  case isTrue present =>
    obtain ⟨readable, ⟨content, text, there, read, parsed⟩, unwrapped⟩ := origin
    have statFault : later.statFault (defaultPath s.identityPath) = false := by
      have both : (!later.statFault (defaultPath s.identityPath)) = true :=
        (Bool.and_eq_true_iff.mp present).1
      simpa using both
    refine ⟨wrap, ciphertext, newRecord, content, text, loadedRecord, derived, encrypted, recorded,
      statFault, readable, ?_, read, parsed, unwrapped⟩
    rw [← lookup_start]
    exact there

/-- A rotated key is found by the start whatever it is. -/
theorem careful_of_returned (called : rotator.call s w.env.hostSeed = some (path, seed))
    (persists : w.Persists path)
    (returned : KeyLasts crates s w later key record path seed) :
    (path = defaultPath s.identityPath ∧ s.identityPath ≠ path) ∧
      (∀ salt, salt.length = 16 →
        crates.argon2 (seedOrZeros (later.hostSeed s.identityPath)) salt =
          crates.argon2 seed salt) ∧
      later.statFault path = false ∧ later.readFault path = none := by
  obtain ⟨-, named⟩ := call_cases called
  have loaded (newKey : RecoveryKey) (salt : Bytes) (length : salt.length = 16) :=
    loaded_of_returned called persists returned newKey length
      (List.length_replicate (n := 24) (a := (0 : UInt8)))
  have place : path = defaultPath s.identityPath ∧ s.identityPath ≠ path := by
    by_contra elsewhere
    obtain ⟨other, different⟩ := exists_other key
    obtain ⟨_, _, first, content, text, record₁, -, -, -, -, -, there, read, parsed, unwrapped⟩ :=
      loaded key (List.replicate 16 0) List.length_replicate
    obtain ⟨_, _, second, content', text', record₂, -, -, -, -, -, there', read', parsed',
      unwrapped'⟩ := loaded other (List.replicate 16 0) List.length_replicate
    rw [found_eq named _ (utf8 (crates.pretty first)) elsewhere, there] at there'
    cases there'
    cases read.symm.trans read'
    cases parsed.symm.trans parsed'
    cases unwrapped.symm.trans unwrapped'
    exact different rfl
  refine ⟨place, fun salt length => ?_, ?_⟩
  · obtain ⟨wrap, ciphertext, newRecord, content, text, record₁, derived, encrypted, recorded, -, -,
      there, read, parsed, unwrapped⟩ := loaded key salt length
    have placed : found s w later path (utf8 (crates.pretty newRecord)) =
        some (.file (utf8 (crates.pretty newRecord))) := by
      rw [found, if_neg fun own => place.2 (own.symm.trans place.1.symm), ← place.1]
      exact RecoveryWorld.placed_entries path
    rw [placed] at there
    cases there
    rw [fromUtf8_utf8] at read
    cases read
    rw [crates.parse_pretty] at parsed
    cases parsed
    subst recorded
    rw [derived]
    exact (unwrapKey_recordOf length List.length_replicate encrypted).mp unwrapped
  · obtain ⟨_, _, _, _, _, _, -, -, -, stat, readable, -⟩ :=
      loaded key (List.replicate 16 0) List.length_replicate
    rw [place.1]
    exact ⟨stat, readable⟩

theorem returned_of_careful (careful : Careful crates s rotator w later)
    (called : rotator.call s w.env.hostSeed = some (path, seed)) {draws draws' : Nat → Bytes}
    {newKey : RecoveryKey} {rotated : RecoveryStore} {after : RecoveryWorld}
    (ran : RecoveryWorld.machine.eval (RecoveryStore.rotate crates ⟨path, key, record⟩ seed)
      (w.begin w.env draws) = ((.ok newKey, rotated), after)) :
    ∃ next final, RecoveryWorld.machine.run (recoveryBootstrap crates s.identityPath)
      (after.begin later draws') = (.ok next, final) ∧ next.key = newKey := by
  obtain ⟨short, dir, shape⟩ := call_cases called
  obtain ⟨own, apart⟩ := careful.samePath path seed called
  obtain ⟨stat, readable⟩ := careful.readable path seed called
  obtain ⟨drawnKey, wrap, ciphertext, newRecord, -, derived, encrypted, recorded, rotates⟩ :=
    eval_rotate crates (w := w.begin w.env draws) short shape key record
  obtain ⟨-, placed, rotates, same⟩ | ⟨-, e, failed, rotates, -⟩ := rotates
  rotate_left
  · cases rotates.symm.trans ran
  cases rotates.symm.trans ran
  have there : ((after.begin later draws').touchIdentity s.identityPath).lookup
      (defaultPath s.identityPath) = some (.file (utf8 (crates.pretty newRecord))) := by
    subst same
    rw [lookup_start, found, if_neg fun same => apart (same.symm.trans own.symm), ← own]
    exact RecoveryWorld.placed_entries path
  have loads : Loads crates ((after.begin later draws').touchIdentity s.identityPath)
      (seedOrZeros (later.hostSeed s.identityPath)) (defaultPath s.identityPath) newRecord
      newKey := by
    refine ⟨own ▸ readable, ⟨_, _, there, fromUtf8_utf8 _, crates.parse_pretty _⟩, ?_⟩
    subst recorded
    rw [unwrapKey_recordOf (RecoveryWorld.length_draw _ _) (RecoveryWorld.length_draw _ _)
      encrypted, careful.sameSeed path seed called _ (RecoveryWorld.length_draw _ _), derived]
  have present : ((after.begin later draws').touchIdentity s.identityPath).present
      (defaultPath s.identityPath) = true := by
    rw [RecoveryWorld.present, there]
    change (!later.statFault (defaultPath s.identityPath) && true) = true
    rw [← own, stat]
    rfl
  have ran := run_loadOrGenerate_of_loads present loads
  obtain ⟨store, final, loaded, booted⟩ | ⟨⟨e, final, failed⟩, -⟩ :=
    run_recoveryBootstrap crates (w := after.begin later draws') s.identityPath
  · cases loaded.symm.trans ran
    exact ⟨_, _, booted, rfl⟩
  · cases failed.symm.trans ran

theorem Survives.careful (survives : Survives crates s rotator w later key record) :
    Careful crates s rotator w later := by
  have persists (path : PathBuf) (seed : Bytes)
      (called : rotator.call s w.env.hostSeed = some (path, seed)) : w.Persists path :=
    (failed_iff called).mp fun draws e rotated after =>
      survives.failed path seed draws e rotated after called
  have careful (path : PathBuf) (seed : Bytes)
      (called : rotator.call s w.env.hostSeed = some (path, seed)) :=
    careful_of_returned called (persists path seed called)
      fun draws draws' newKey rotated after =>
        survives.returned path seed draws draws' newKey rotated after called
  exact ⟨persists, fun path seed called => (careful path seed called).1,
    fun path seed called => (careful path seed called).2.1,
    fun path seed called => (careful path seed called).2.2, starts_iff.mp survives.starts⟩

theorem Careful.survives (careful : Careful crates s rotator w later) :
    Survives crates s rotator w later key record := by
  refine ⟨?_, ?_, starts_iff.mpr careful.starts⟩
  · intro path seed draws draws' newKey rotated after called ran
    exact returned_of_careful careful called ran
  · intro path seed draws e rotated after called
    exact (failed_iff called).mpr (careful.persists path seed called) draws e rotated after

end Rotations

/-- A rotation keeps memory, file and the next start together, and the start does not panic,
exactly when the operations, the path and the seed are right. -/
theorem survives_iff_careful (crates : RecoveryCrates) (s : Surroundings) (rotator : Rotator)
    (w : RecoveryWorld) (later : RecoveryEnv) (key : RecoveryKey) (record : RecoveryRecord) :
    Survives crates s rotator w later key record ↔ Careful crates s rotator w later :=
  ⟨Survives.careful, Careful.survives⟩

namespace Sample

/-- The time of a record as a field. -/
def timeField : Option UInt64 → String
  | some millis => hexEncode (Bytes.ofNatBE 8 millis.toNat)
  | none => "null"

def timeOf (field : String) : Option (Option UInt64) :=
  if field = "null" then some none
  else (hexDecode field).map fun bytes => some (UInt64.ofNat (Bytes.toNatBE bytes))

theorem timeOf_timeField (time : Option UInt64) : timeOf (timeField time) = some time := by
  cases time with
  | none => rfl
  | some millis =>
      have read := hexDecode_hexEncode (Bytes.ofNatBE 8 millis.toNat)
      have digits : hexEncode (Bytes.ofNatBE 8 millis.toNat) ≠ "null" := by
        intro same
        have unread : hexDecode "null" = none := by decide
        rw [same, unread] at read
        cases read
      have small : millis.toNat < 256 ^ 8 := millis.toNat_lt
      rw [timeField, timeOf, if_neg digits, read, Option.map_some, Bytes.toNatBE_ofNatBE,
        Nat.mod_eq_of_lt small, UInt64.ofNat_toNat]

def recordFields (record : RecoveryRecord) : List String :=
  [record.kdf, record.kdfSaltHex, record.wrap, record.wrappedKeyHex, record.wrappedNonceHex,
    timeField record.createdUnixMs]

/-- The fields of a record on a line each, as hexadecimal digits. -/
def linesOf (record : RecoveryRecord) : String :=
  String.ofList (['\n'].intercalate
    ((recordFields record).map fun field => (hexEncode (utf8 field)).toList))

def fieldOf (line : List Char) : Option String :=
  (hexDecode (String.ofList line)).bind fun bytes => (fromUtf8 bytes).toOption

def recordOfLines (text : String) : Option RecoveryRecord :=
  match (text.toList.splitOn '\n').mapM fieldOf with
  | some [kdf, salt, wrap, key, nonce, time] =>
      (timeOf time).map fun time => ⟨kdf, salt, wrap, key, nonce, time⟩
  | _ => none

theorem newline_not_mem (bytes : Bytes) : '\n' ∉ (hexEncode bytes).toList := by
  have digit : ∀ n < 16, Nat.digitChar n ≠ '\n' := by decide
  rw [hexEncode, String.toList_ofList]
  intro member
  obtain ⟨b, -, inside⟩ := List.mem_flatMap.mp member
  have bound := b.toNat_lt
  simp only [List.mem_cons, List.not_mem_nil, or_false] at inside
  obtain same | same := inside
  · exact digit _ (by omega) same.symm
  · exact digit _ (by omega) same.symm

theorem recordOfLines_linesOf (record : RecoveryRecord) :
    recordOfLines (linesOf record) = some record := by
  have field (text : String) : fieldOf (hexEncode (utf8 text)).toList = some text := by
    rw [fieldOf, String.ofList_toList, hexDecode_hexEncode, Option.bind_some, fromUtf8_utf8]
    rfl
  have split : (linesOf record).toList.splitOn '\n' =
      (recordFields record).map fun field => (hexEncode (utf8 field)).toList := by
    rw [linesOf, String.toList_ofList]
    refine List.splitOn_intercalate _ (fun line member => ?_) (by simp [recordFields])
    obtain ⟨text, -, rfl⟩ := List.mem_map.mp member
    exact newline_not_mem _
  have fields : ((linesOf record).toList.splitOn '\n').mapM fieldOf =
      some (recordFields record) := by
    rw [split]
    simp [recordFields, field]
  rw [recordOfLines, fields]
  simp only [recordFields, timeOf_timeField, Option.map_some]

/-- A cipher that puts its key before the message. -/
def crates : RecoveryCrates where
  argon2 seed _ := .ok (Identity.keyOfBytes seed)
  encrypt key _ message := .ok (keyBytes key ++ message)
  decrypt key _ ciphertext :=
    if ciphertext.take 32 = keyBytes key then .ok (ciphertext.drop 32) else .error "aead::Error"
  pretty := linesOf
  parse := recordOfLines
  argon2_ok seed _ _ _ := ⟨_, rfl⟩
  encrypt_ok key nonce message _ _ := ⟨_, rfl⟩
  decrypt_encrypt key nonce message ciphertext encrypted := by
    have length : (keyBytes key).length = 32 := Bytes.length_ofNatBE 32 _
    cases encrypted
    rw [List.take_left' length, if_pos rfl, List.drop_left' length]
  rejects key other nonce message ciphertext encrypted different := by
    have length : (keyBytes key).length = 32 := Bytes.length_ofNatBE 32 _
    cases encrypted
    rw [List.take_left' length, if_neg]
    · exact ⟨_, rfl⟩
    · intro same
      have numbers := congrArg Bytes.toNatBE same
      rw [keyBytes, keyBytes, Bytes.toNatBE_ofNatBE, Bytes.toNatBE_ofNatBE] at numbers
      refine different (BitVec.eq_of_toNat_eq ?_)
      have first := key.isLt
      have second := other.isLt
      omega
  parse_pretty := recordOfLines_linesOf

/-- A host in its default places. -/
def atHome : Surroundings where
  args := ["qubox-host-agent"]
  identityPathArg := none
  identityPathVar := none
  configHome := none
  home := some "/home/kim"
  dataLocalDir := some [.rootDir, .normal "home", .normal "kim", .normal ".local",
    .normal "share", .normal "qubox"]
  tempDir := [.rootDir, .normal "tmp"]

/-- Everything succeeds; the identity in the default place has another seed than any other. -/
def smooth : RecoveryEnv where
  statFault _ := false
  readFault _ := none
  createDirFault _ := none
  writeFault _ := none
  renameFault _ _ := none
  clock := some 1
  hostSeed path := .ok (if path = atHome.identityPath then 1 else 2)
  identityFiles _ := none

def storedKey : RecoveryKey := ⟨List.replicate 32 7, List.length_replicate⟩

/-- The key wrapped under the seed of the default place. -/
def storedRecord : RecoveryRecord :=
  recordOf (List.replicate 16 0) (List.replicate 24 0) (keyBytes 1 ++ storedKey.raw) (some 1)

/-- The files of a host that has started before. -/
def started : RecoveryWorld where
  entries path :=
    if path = defaultPath atHome.identityPath then some (.file (utf8 (linesOf storedRecord)))
    else none
  env := smooth
  draws _ := []
  drawn := 0

/-- `rotate_recovery` of a host in its default places returns a key that the next start cannot
unwrap. -/
theorem rotated_not_survives :
    ¬ Survives crates atHome .running started smooth storedKey storedRecord := by
  intro survives
  have same := survives.careful.sameSeed _ _ rfl (List.replicate 16 0) List.length_replicate
  exact absurd same (by decide)

end Sample

end Qubox.Host
