import Qubox.Identity.Device

/-!
# What the processes of a device leave each other

A process may take the identity file for itself between opening it and writing it, and the
master key file between creating it and writing it. Outside of these times the identity file
holds an identity that opens, and whoever writes it keeps the ids, the key and the salt. The
same holds of a call that runs alone, which may not fail then.
-/

namespace Qubox.Identity

open FileSync (utf8 fromUtf8 fromUtf8_utf8)
open Interaction

/-! ## Phases -/

/-- What a process has done so far that others have to know. -/
structure StorePhase where
  override : Option String
  defaultDeviceName : String
  /-- It has read the identity file. -/
  read : Bool
  /-- The file that it has opened and not written. -/
  window : Option StoreFile

/-- The files, the identity that the identity file held when it was last whole, and the name
that the writers so far have given to it. -/
structure Ledger where
  home : Home
  held : Option DeviceIdentity
  name : Option String

namespace StorePhase

def displayName (φ : StorePhase) : String := φ.override.getD φ.defaultDeviceName

def seen (φ : StorePhase) : StorePhase := { φ with read := true }

def opened (φ : StorePhase) (file : StoreFile) : StorePhase := { φ with window := some file }

def closed (φ : StorePhase) : StorePhase := { φ with window := none }

def after (φ : StorePhase) : StoreEvent → StorePhase
  | ⟨.read .identity, _⟩ => φ.seen
  | ⟨.truncate file, _⟩ => φ.opened file
  | ⟨.createNew file, .ok ()⟩ => φ.opened file
  | ⟨.write _ _, _⟩ => φ.closed
  | _ => φ

@[simp] theorem seen_read (φ : StorePhase) : φ.seen.read = true := rfl

@[simp] theorem seen_window (φ : StorePhase) : φ.seen.window = φ.window := rfl

@[simp] theorem seen_override (φ : StorePhase) : φ.seen.override = φ.override := rfl

@[simp] theorem opened_read (φ : StorePhase) (file : StoreFile) :
    (φ.opened file).read = φ.read := rfl

@[simp] theorem opened_window (φ : StorePhase) (file : StoreFile) :
    (φ.opened file).window = some file := rfl

@[simp] theorem opened_override (φ : StorePhase) (file : StoreFile) :
    (φ.opened file).override = φ.override := rfl

@[simp] theorem closed_window (φ : StorePhase) : φ.closed.window = none := rfl

end StorePhase

namespace DeviceIdentity

/-- What stays of an identity when it is sealed again. -/
def core (identity : DeviceIdentity) : Uuid × Uuid × Uuid × PublicKey × String :=
  (identity.deviceId, identity.hostPeerId, identity.clientPeerId, identity.publicKey,
    identity.encryptedPrivateKey.saltHex)

end DeviceIdentity

/-- The identity is the one that the device has, perhaps under another name. -/
def Device.Belongs (device : Device) (ledger : Ledger) (identity : DeviceIdentity) : Prop :=
  device.Sealed ledger.home.masterKey identity ∧
    ∃ held, ledger.held = some held ∧ held.core = identity.core

/-- A call runs alone, and finds an identity. -/
structure StorePhase.Alone (φ : StorePhase) (ledger : Ledger) : Prop where
  held : ledger.held ≠ none
  whole : φ.window ≠ some .identity → ledger.home.identity ≠ some []

/-- The state of the files outside of the times in which they are being written. -/
structure Device.Orderly (device : Device) (ledger : Ledger) : Prop where
  absent : ledger.home.identity = none → ledger.held = none
  whole : ∀ bytes, ledger.home.identity = some bytes → bytes ≠ [] →
    ∃ identity, ledger.held = some identity ∧ bytes = utf8 (device.serde.pretty identity)
  opens : ∀ identity, ledger.held = some identity → device.Sealed ledger.home.masterKey identity

/-- What the phase of a process means for the files. -/
structure StorePhase.Fits (alone : Bool) (φ : StorePhase) (ledger : Ledger) : Prop where
  named : alone = false → ledger.held.map (·.displayName) = ledger.name
  identity : φ.window = some .identity → ledger.home.identity = some [] ∧
    (φ.read = false → ledger.held = none) ∧
    (alone = false → φ.override = none → ledger.held = none)
  masterKey : φ.window = some .masterKey → ledger.home.masterKey = some []
  alone : alone = true → φ.Alone ledger

/-- The identity stays the same but for its name, and a master key is there to stay. -/
structure Ledger.Keeps (before after : Ledger) : Prop where
  held : ∀ identity, before.held = some identity →
    ∃ later, after.held = some later ∧ later.core = identity.core
  masterKey : ∀ bytes, before.home.masterKey = some bytes → bytes ≠ [] →
    after.home.masterKey = some bytes

theorem Ledger.Keeps.refl (ledger : Ledger) : ledger.Keeps ledger :=
  ⟨fun identity same => ⟨identity, same, rfl⟩, fun _ same _ => same⟩

theorem Ledger.Keeps.trans {first second third : Ledger} (before : first.Keeps second)
    (after : second.Keeps third) : first.Keeps third := by
  refine ⟨fun identity same => ?_, fun bytes same full => ?_⟩
  · obtain ⟨later, there, core⟩ := before.held identity same
    obtain ⟨last, here, core'⟩ := after.held later there
    exact ⟨last, here, core'.trans core⟩
  · exact after.masterKey bytes (before.masterKey bytes same full) full

namespace Device

variable (device : Device) (alone : Bool)

/-- The identity file is opened for writing where there is none, or by a call that has read it
and gives a name, while it holds an identity. -/
def Permits (φ : StorePhase) (action : StoreAction) (ledger : Ledger) : Prop :=
  match action with
  | .truncate .identity => alone = true ∨ ledger.home.identity = none ∨
      ((device.stored ledger.home).isSome ∧ φ.read = true ∧ φ.override ≠ none)
  | _ => True

/-- An identity that is written opens, has the name of the call and is the one of the device. -/
def Owes (φ : StorePhase) (action : StoreAction) (ledger : Ledger) : Prop :=
  match action with
  | .truncate .identity => alone = true → φ.read = true
  | .write .identity bytes => φ.window = some .identity ∧
      ∃ identity, bytes = utf8 (device.serde.pretty identity) ∧
        device.Sealed ledger.home.masterKey identity ∧ identity.displayName = φ.displayName ∧
        (φ.read = true → ∃ held, ledger.held = some held ∧ held.core = identity.core)
  | .write .masterKey bytes => φ.window = some .masterKey ∧ bytes ≠ []
  | .createNew .masterKey => φ.window = none
  | .truncate .masterKey | .createNew .identity => False
  | _ => True

/-- What an action does to the files and to what is remembered of them. -/
def perform (φ : StorePhase) (action : StoreAction) (ledger : Ledger) : Ledger :=
  let home := (device.machine.exec action ledger.home).2
  match action with
  | .write .identity bytes =>
      ⟨home, identityIn device.serde bytes, some (φ.override.getD (ledger.name.getD φ.defaultDeviceName))⟩
  | _ => { ledger with home }

end Device

theorem IsMasterKey.later {before after : Option Bytes} {kek : SecretKey}
    (known : IsMasterKey before kek)
    (kept : ∀ bytes, before = some bytes → bytes ≠ [] → after = some bytes) :
    IsMasterKey after kek := by
  obtain ⟨bytes, there, length, same⟩ := known
  refine ⟨bytes, kept bytes there ?_, length, same⟩
  rintro rfl
  cases length

theorem Device.Kek.later {device : Device} {before after : Option Bytes} {salt : Bytes}
    {kek : SecretKey} (known : device.Kek before salt kek)
    (kept : ∀ bytes, before = some bytes → bytes ≠ [] → after = some bytes) :
    device.Kek after salt kek := by
  unfold Device.Kek at known ⊢
  split at known
  · exact known
  · exact known.later kept

theorem Device.Sealed.later {device : Device} {before after : Option Bytes}
    {identity : DeviceIdentity} (known : device.Sealed before identity)
    (kept : ∀ bytes, before = some bytes → bytes ≠ [] → after = some bytes) :
    device.Sealed after identity := by
  obtain ⟨salt, nonce, ciphertext, kek, privateKey, saltHex, long, nonceHex, long', sealedHex, key,
    opened, own⟩ := known.opens
  exact ⟨known.version, known.tag, salt, nonce, ciphertext, kek, privateKey, saltHex, long, nonceHex,
    long', sealedHex, key.later kept, opened, own⟩

theorem Device.Belongs.later {device : Device} {t t' : Ledger} {identity : DeviceIdentity}
    (known : device.Belongs t identity) (kept : t.Keeps t') : device.Belongs t' identity := by
  obtain ⟨opens, held, there, core⟩ := known
  obtain ⟨later, here, core'⟩ := kept.held held there
  exact ⟨opens.later kept.masterKey, later, here, core'.trans core⟩

theorem Device.Belongs.core_eq {device : Device} {t : Ledger} {first second : DeviceIdentity}
    (one : device.Belongs t first) (other : device.Belongs t second) : first.core = second.core := by
  obtain ⟨-, held, there, core⟩ := one
  obtain ⟨-, held', there', core'⟩ := other
  obtain rfl := Option.some.inj (there.symm.trans there')
  exact core.symm.trans core'

/-! ## What an action keeps -/

/-- The files stay as they are. -/
def StoreAction.Quiet : StoreAction → Prop
  | .createNew _ | .truncate _ | .write _ _ => False
  | _ => True

theorem StorePhase.Fits.seen {alone : Bool} {φ : StorePhase} {t : Ledger} (fits : φ.Fits alone t) :
    φ.seen.Fits alone t := by
  refine ⟨fits.named, fun window => ?_, fits.masterKey, fun solo => ?_⟩
  · obtain ⟨empty, -, unnamed⟩ := fits.identity window
    exact ⟨empty, fun unread => by simp at unread, unnamed⟩
  · exact ⟨(fits.alone solo).held, (fits.alone solo).whole⟩

namespace Device

section Keeps

variable {device : Device} {alone : Bool} {φ : StorePhase} {t : Ledger}

theorem exec_quiet {action : StoreAction} (quiet : action.Quiet) (home : Home) :
    (device.machine.exec action home).2 = home := by
  cases action with
  | read file =>
      dsimp only [machine]
      cases home.content file <;> rfl
  | tighten file =>
      dsimp only [machine]
      cases home.content file <;> rfl
  | createNew _ | truncate _ | write _ _ => exact quiet.elim
  | _ => rfl

theorem perform_quiet {action : StoreAction} (quiet : action.Quiet) :
    device.perform φ action t = t := by
  have same : (⟨(device.machine.exec action t.home).2, t.held, t.name⟩ : Ledger) = t := by
    rw [exec_quiet quiet]
  cases action with
  | createNew _ | truncate _ | write _ _ => exact quiet.elim
  | _ => exact same

variable (φ) in
theorem after_quiet {action : StoreAction} (quiet : action.Quiet)
    (answer : storeSignature.Answer action) :
    φ.after ⟨action, answer⟩ = φ ∨ φ.after ⟨action, answer⟩ = φ.seen := by
  cases action with
  | read file =>
      cases file with
      | identity => exact .inr rfl
      | masterKey => exact .inl rfl
  | createNew _ | truncate _ | write _ _ => exact quiet.elim
  | _ => exact .inl rfl

theorem after_window {action : StoreAction} (quiet : action.Quiet)
    (answer : storeSignature.Answer action) : (φ.after ⟨action, answer⟩).window = φ.window := by
  rcases after_quiet φ quiet answer with same | same <;> rw [same]
  rfl

variable (device) (alone) in
/-- What holds between two actions. -/
def Inv (φ : StorePhase) (t : Ledger) : Prop := device.Orderly t ∧ φ.Fits alone t

theorem keeps_quiet {action : StoreAction} (quiet : action.Quiet) (inv : device.Inv alone φ t)
    (answer : storeSignature.Answer action) :
    device.Inv alone (φ.after ⟨action, answer⟩) (device.perform φ action t) ∧
      t.Keeps (device.perform φ action t) := by
  rw [perform_quiet quiet]
  rcases after_quiet φ quiet answer with same | same
  · rw [same]
    exact ⟨inv, .refl t⟩
  · rw [same]
    exact ⟨⟨inv.1, inv.2.seen⟩, .refl t⟩

theorem keeps_truncate (inv : device.Inv alone φ t)
    (permitted : device.Permits alone φ (.truncate .identity) t)
    (owed : alone = true → φ.read = true) :
    device.Inv alone (φ.opened .identity) (device.perform φ (.truncate .identity) t) ∧
      t.Keeps (device.perform φ (.truncate .identity) t) := by
  obtain ⟨orderly, fits⟩ := inv
  have fresh (unread : φ.read = false) : t.held = none := by
    rcases permitted with solo | absent | ⟨-, read, -⟩
    · exact absurd (owed solo) (by simp [unread])
    · exact orderly.absent absent
    · exact absurd read (by simp [unread])
  have nameless (together : alone = false) (unnamed : φ.override = none) : t.held = none := by
    rcases permitted with solo | absent | ⟨-, -, named⟩
    · exact absurd solo (by simp [together])
    · exact orderly.absent absent
    · exact absurd unnamed named
  refine ⟨⟨⟨fun absent => ?_, fun bytes same full => ?_, orderly.opens⟩, fits.named,
    fun _ => ⟨rfl, fresh, nameless⟩, fun other => ?_, fun solo => ⟨(fits.alone solo).held, ?_⟩⟩,
    fun identity same => ⟨identity, same, rfl⟩, fun _ same _ => same⟩
  · cases absent
  · exact absurd (Option.some.inj same).symm full
  · cases other
  · exact fun outside => absurd rfl outside

/-- The files with another content of the master key file. -/
def withKey (t : Ledger) (bytes : Bytes) : Ledger :=
  { t with home := { t.home with masterKey := some bytes } }

/-- A master key file that is empty, or not there, may get another content. -/
theorem keeps_withKey {bytes : Bytes} {ψ : StorePhase} (inv : device.Inv alone φ t)
    (missing : ∀ old, t.home.masterKey = some old → old = [])
    (files : ψ.window = some .identity → φ.window = some .identity) (reads : ψ.read = φ.read)
    (overrides : ψ.override = φ.override) (whole : alone = true → φ.window ≠ some .identity)
    (key : ψ.window = some .masterKey → bytes = []) :
    device.Inv alone ψ (withKey t bytes) ∧ t.Keeps (withKey t bytes) := by
  obtain ⟨orderly, fits⟩ := inv
  have kept (old : Bytes) (there : t.home.masterKey = some old) (full : old ≠ []) :
      some bytes = some old := absurd (missing old there) full
  refine ⟨⟨⟨orderly.absent, orderly.whole, fun identity same => ?_⟩, ⟨fits.named, fun window => ?_,
    fun window => ?_, fun solo => ⟨(fits.alone solo).held, fun _ => ?_⟩⟩⟩,
    fun identity same => ⟨identity, same, rfl⟩, kept⟩
  · exact (orderly.opens identity same).later kept
  · rw [reads, overrides]
    exact fits.identity (files window)
  · exact congrArg some (key window)
  · exact (fits.alone solo).whole (whole solo)

theorem keeps_writeIdentity {bytes : Bytes} (lawful : device.Lawful) (inv : device.Inv alone φ t)
    (owed : device.Owes alone φ (.write .identity bytes) t) :
    device.Inv alone φ.closed (device.perform φ (.write .identity bytes) t) ∧
      t.Keeps (device.perform φ (.write .identity bytes) t) := by
  obtain ⟨orderly, fits⟩ := inv
  obtain ⟨window, identity, rfl, opens, named, same⟩ := owed
  obtain ⟨empty, unread, unnamed⟩ := fits.identity window
  have small : identity.schemaVersion < 2 ^ 32 := by
    rw [opens.version]
    decide
  have written : device.perform φ (.write .identity (utf8 (device.serde.pretty identity))) t =
      ⟨{ t.home with identity := some (utf8 (device.serde.pretty identity)) }, some identity,
        some (φ.override.getD (t.name.getD φ.defaultDeviceName))⟩ := by
    simp [perform, Home.content, Home.put, empty, overwrite, lawful.identityIn_pretty small]
  rw [written]
  have naming (together : alone = false) :
      some identity.displayName = some (φ.override.getD (t.name.getD φ.defaultDeviceName)) := by
    rw [named, StorePhase.displayName]
    cases given : φ.override with
    | some name => rfl
    | none =>
        have nameless := fits.named together
        rw [unnamed together given] at nameless
        rw [← nameless]
        rfl
  have keeping (held : DeviceIdentity) (there : t.held = some held) :
      identity.core = held.core := by
    cases read : φ.read with
    | false => exact absurd (unread read) (by simp [there])
    | true =>
        obtain ⟨other, there', core⟩ := same read
        obtain rfl := Option.some.inj (there.symm.trans there')
        exact core.symm
  refine ⟨⟨⟨fun absent => ?_, fun bytes same full => ?_, fun other same => ?_⟩,
    ⟨naming, fun other => ?_, fun other => ?_, fun solo => ⟨?_, fun _ same => ?_⟩⟩⟩,
    fun held there => ⟨identity, rfl, keeping held there⟩, fun _ same _ => same⟩
  · cases absent
  · exact ⟨identity, rfl, (Option.some.inj same).symm⟩
  · obtain rfl := Option.some.inj same
    exact opens
  · cases other
  · cases other
  · simp
  · exact lawful.utf8_pretty_ne_nil identity (Option.some.inj same)

variable (device) in
/-- A file that is there is left alone, and else it is created and opened. -/
theorem createNew_cases (φ : StorePhase) (t : Ledger) :
    (φ.after ⟨.createNew .masterKey, (device.machine.exec (.createNew .masterKey) t.home).1⟩ = φ ∧
        device.perform φ (.createNew .masterKey) t = t) ∨
      (t.home.masterKey = none ∧
        φ.after ⟨.createNew .masterKey, (device.machine.exec (.createNew .masterKey) t.home).1⟩ =
          φ.opened .masterKey ∧
        device.perform φ (.createNew .masterKey) t = withKey t []) := by
  cases there : t.home.masterKey with
  | some bytes =>
      have failed : device.machine.exec (.createNew .masterKey) t.home =
          (.error "File exists (os error 17)", t.home) := by
        simp only [Home.content, there]
      refine .inl ⟨by rw [failed]; rfl, ?_⟩
      exact congrArg (fun result => (⟨result.2, t.held, t.name⟩ : Ledger)) failed
  | none =>
      have created : device.machine.exec (.createNew .masterKey) t.home =
          (.ok (), t.home.put [] .masterKey) := by
        simp only [Home.content, there]
      refine .inr ⟨rfl, by rw [created]; rfl, ?_⟩
      exact congrArg (fun result => (⟨result.2, t.held, t.name⟩ : Ledger)) created

theorem keeps_createNew (inv : device.Inv alone φ t) (owed : φ.window = none) :
    device.Inv alone
        (φ.after ⟨.createNew .masterKey, (device.machine.exec (.createNew .masterKey) t.home).1⟩)
        (device.perform φ (.createNew .masterKey) t) ∧
      t.Keeps (device.perform φ (.createNew .masterKey) t) := by
  rcases createNew_cases device φ t with ⟨after, same⟩ | ⟨missing, after, same⟩
  · rw [after, same]
    exact ⟨inv, .refl t⟩
  · rw [after, same]
    refine keeps_withKey inv (fun old there => ?_) (fun other => ?_) rfl rfl (fun _ => ?_)
      fun _ => rfl
    · rw [missing] at there
      cases there
    · cases other
    · simp [owed]

theorem keeps_writeKey {bytes : Bytes} (inv : device.Inv alone φ t)
    (owed : φ.window = some .masterKey) :
    device.Inv alone φ.closed (device.perform φ (.write .masterKey bytes) t) ∧
      t.Keeps (device.perform φ (.write .masterKey bytes) t) := by
  have empty := inv.2.masterKey owed
  have same : device.perform φ (.write .masterKey bytes) t = withKey t bytes := by
    simp [perform, withKey, Home.content, Home.put, empty, overwrite]
  rw [same]
  refine keeps_withKey inv (fun old there => ?_) (fun other => ?_) rfl rfl (fun _ => ?_)
    fun other => ?_
  · exact (Option.some.inj (empty.symm.trans there)).symm
  · cases other
  · simp [owed]
  · cases other

theorem keeps (lawful : device.Lawful) {action : StoreAction} (inv : device.Inv alone φ t)
    (permitted : device.Permits alone φ action t) (owed : device.Owes alone φ action t) :
    device.Inv alone (φ.after ⟨action, (device.machine.exec action t.home).1⟩)
        (device.perform φ action t) ∧
      t.Keeps (device.perform φ action t) := by
  cases action with
  | createNew file =>
      cases file with
      | identity => exact owed.elim
      | masterKey => exact keeps_createNew inv owed
  | truncate file =>
      cases file with
      | identity => exact keeps_truncate inv permitted owed
      | masterKey => exact owed.elim
  | write file bytes =>
      cases file with
      | identity => exact keeps_writeIdentity lawful inv owed
      | masterKey => exact keeps_writeKey inv owed.1
  | _ =>
      refine keeps_quiet ?_ inv _
      trivial

theorem inv_of_same {ψ : StorePhase} {t' : Ledger} (others : device.Inv false ψ t)
    (inv : device.Inv false φ t')
    (identity : ψ.window = some .identity →
      t'.home.identity = t.home.identity ∧ t'.held = t.held)
    (masterKey : ψ.window = some .masterKey → t'.home.masterKey = t.home.masterKey) :
    device.Inv false ψ t' := by
  refine ⟨inv.1, inv.2.named, fun window => ?_, fun window => ?_, fun solo => by simp at solo⟩
  · obtain ⟨files, held⟩ := identity window
    rw [files, held]
    exact others.2.identity window
  · rw [masterKey window]
    exact others.2.masterKey window

/-- A process leaves the files alone that another one has opened. -/
theorem considerate (lawful : device.Lawful) {action : StoreAction} {ψ : StorePhase}
    (inv : device.Inv false φ t) (permitted : device.Permits false φ action t)
    (owed : device.Owes false φ action t) (others : device.Inv false ψ t)
    (apart : ∀ file, φ.window = some file → ψ.window ≠ some file) :
    device.Inv false ψ (device.perform φ action t) ∧
      ∀ file, (φ.after ⟨action, (device.machine.exec action t.home).1⟩).window = some file →
        ψ.window ≠ some file := by
  have kept := (keeps lawful inv permitted owed).1
  have opens {file : StoreFile} (free : ψ.window ≠ some file) (other : StoreFile)
      (opened : some file = some other) : ψ.window ≠ some other := Option.some.inj opened ▸ free
  cases action with
  | createNew file =>
      cases file with
      | identity => exact owed.elim
      | masterKey =>
          rcases createNew_cases device φ t with ⟨after, same⟩ | ⟨missing, after, same⟩
          · rw [after, same]
            exact ⟨others, apart⟩
          · have free : ψ.window ≠ some .masterKey := by
              intro window
              have empty := others.2.masterKey window
              rw [missing] at empty
              cases empty
            rw [same] at kept ⊢
            rw [after]
            exact ⟨inv_of_same others kept (fun _ => ⟨rfl, rfl⟩) fun window => absurd window free,
              opens free⟩
  | truncate file =>
      cases file with
      | identity =>
          have free : ψ.window ≠ some .identity := by
            intro window
            obtain ⟨empty, -⟩ := others.2.identity window
            rcases permitted with solo | absent | ⟨stored, -⟩
            · cases solo
            · rw [empty] at absent
              cases absent
            · rw [Device.stored, empty, Option.bind_some, lawful.identityIn_empty] at stored
              cases stored
          exact ⟨inv_of_same others kept (fun window => absurd window free) fun _ => rfl,
            opens free⟩
      | masterKey => exact owed.elim
  | write file bytes =>
      cases file with
      | identity =>
          refine ⟨inv_of_same others kept (fun window => ?_) fun _ => rfl, fun _ none => by cases none⟩
          exact absurd window (apart _ owed.1)
      | masterKey =>
          refine ⟨inv_of_same others kept (fun _ => ⟨rfl, rfl⟩) fun window => ?_,
            fun _ none => by cases none⟩
          exact absurd window (apart _ owed.1)
  | _ =>
      rw [perform_quiet (by trivial)]
      refine ⟨others, fun file opened => apart file ?_⟩
      rwa [after_window (by trivial)] at opened

end Keeps

/-- What the calls agree on, together or `alone`. -/
def regime {device : Device} (lawful : device.Lawful) (alone : Bool) :
    Regime device.machine Ledger StorePhase StoreFile where
  view := Ledger.home
  exec := device.perform
  view_exec φ action t := by
    cases action with
    | write file bytes => cases file <;> rfl
    | _ => rfl
  after := StorePhase.after
  claim := StorePhase.window
  inv := device.Inv alone
  rely := Ledger.Keeps
  rely_refl := .refl
  rely_trans := .trans
  permits := device.Permits alone
  owes := device.Owes alone
  keeps := keeps lawful

end Device

end Qubox.Identity
