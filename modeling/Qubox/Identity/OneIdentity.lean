import Mathlib.Logic.Equiv.List
import Qubox.Identity.Enduring

/-!
# One identity for all processes of a device

Any number of calls on the files of a device, one action at a time, in any order, with a call
cut off anywhere. They agree on one identity as long as nobody opens the identity file for
writing who has not found it missing at that moment, or read it and been given a name while it
is whole.
-/

namespace Qubox.Identity

open FileSync (utf8 fromUtf8 fromUtf8_utf8)
open Interaction
open Update (hexEncode hexDigest)

abbrev Schedule := List (Move Call Chance)

namespace Device

variable (device : Device)

/-- There is no identity file, or one with an identity that opens. -/
def Starts (home : Home) : Prop :=
  home.identity = none ∨ ∃ identity,
    home.identity = some (utf8 (device.serde.pretty identity)) ∧
      device.Sealed home.masterKey identity

/-- A process that opens the identity file for writing finds none, or it has read the file, was
given a name, and finds an identity in it. -/
def OpensCarefully (past : Nat → List StoreEvent) (P : Processes) (m : Move Call Chance) : Prop :=
  ∀ i call next, m = .step i → P.threads[i]? = some ⟨call, .act (.truncate .identity) next⟩ →
    P.shared.identity = none ∨
      ((device.stored P.shared).isSome ∧
        (∃ answer, (⟨.read .identity, answer⟩ : StoreEvent) ∈ past i) ∧ call.override ≠ none)

/-- Every move of a schedule opens the identity file carefully, if it opens it. -/
def Careful : (Nat → List StoreEvent) → Processes → Schedule → Prop
  | _, _, [] => True
  | past, P, m :: ms => device.OpensCarefully past P m ∧
      Careful (fun i => past i ++ device.system.performedBy i P m) (device.system.move P m) ms

/-- The name of the device after a move. The calls take effect in the order in which they write
the file, and one without an override changes nothing, but the first has to give a name. -/
def nameAfter (P : Processes) (m : Move Call Chance) (name : Option String) : Option String :=
  match m with
  | .step i =>
      match P.threads[i]? with
      | some ⟨call, .act (.write .identity _) _⟩ =>
          some (call.override.getD (name.getD call.defaultDeviceName))
      | _ => name
  | _ => name

/-- The last name that was given explicitly. -/
def lastName : Processes → Schedule → Option String → Option String
  | _, [], name => name
  | P, m :: ms, name => lastName (device.system.move P m) ms (nameAfter P m name)

/-- The processes after a schedule that starts with these files. -/
def reached (home : Home) (moves : Schedule) : Processes := device.system.schedule ⟨home, []⟩ moves

end Device

/-- The call has returned this. -/
def Processes.Returns (P : Processes) (call : Call) (returned : Returned) : Prop :=
  ∃ thread ∈ P.threads, thread.call = call ∧ thread.rest.outcome? = some (.error (.ok returned))

namespace Device

variable (device : Device) (home : Home) (moves : Schedule)

/-- The processes have shared one identity so far, under the name that was given to it last. -/
structure Shares : Prop where
  agree : ∀ call call' first second, (device.reached home moves).Returns call first →
    (device.reached home moves).Returns call' second → first.Agrees device.config second
  named : ∀ identity, device.stored (device.reached home moves).shared = some identity →
    some identity.displayName = device.lastName ⟨home, []⟩ moves
      ((device.stored home).map (·.displayName))
  overrides : ∀ call identity name, (device.reached home moves).Returns call (.loaded identity) →
    call.override = some name → identity.displayName = name

/-- The identity that the processes have shared survives a crash. -/
structure Survives : Prop where
  unlocks : ∀ call identity, (device.reached home moves).Returns call (.loaded identity) →
    ∃ privateKey, (device.machine.run (Store.unlock device.serde device.config identity)
        (device.reached home moves).shared).1 = .ok privateKey ∧
      device.config.publicKeyOf privateKey = identity.publicKey
  /-- The next call returns it again. -/
  recovers : ∀ call returned, (device.reached home moves).Returns call returned →
    ∀ nextCall : Call, ∃ again, (device.machine.run (nextCall.program device)
        (device.reached home moves).shared).1 = .ok again ∧ returned.Agrees device.config again

/-- No process is between opening the identity file and writing it, or was when it crashed. -/
def Written : Prop := (device.reached home moves).shared.identity ≠ some []

end Device

/-! ## Calls -/

def Call.begin (call : Call) : StorePhase := ⟨call.override, call.defaultDeviceName, false, none⟩

/-- What a call returns is of the identity of the device. -/
structure Device.Returnable (device : Device) (call : Call) (ledger : Ledger) (returned : Returned) :
    Prop where
  belongs : ∃ identity, device.Belongs ledger identity ∧
    returned.publicKey device.config = identity.publicKey ∧
    ∀ ids, returned.ids = some ids →
      ids = (identity.deviceId, identity.hostPeerId, identity.clientPeerId)
  loaded : ∀ identity, returned = .loaded identity →
    device.Belongs ledger identity ∧ identity.displayName = call.displayName

section Calls

variable {device : Device} {lawful : device.Lawful} {alone : Bool} {t : Ledger} {call : Call}

theorem program_proceeds (inv : device.Inv alone call.begin t) :
    Proceeds lawful alone (fun returned _ t' => device.Returnable call t' returned)
      (call.program device) call.begin t := by
  have loads : Proceeds lawful alone _ (Store.loadOrCreateIdentity device.serde
      (device.configFor call.defaultDeviceName) call.override) call.begin t :=
    @loadOrCreate_proceeds device lawful alone call.begin t inv rfl rfl
  cases call with
  | load displayNameOverride defaultDeviceName =>
      refine .bind inv loads ?_
      rintro identity φ₁ t₁ later₁ ⟨-, belongs, named⟩
      refine ⟨⟨identity, belongs, rfl, fun ids same => (Option.some.inj same).symm⟩, ?_⟩
      intro other same
      obtain rfl := Returned.loaded.inj same
      exact ⟨belongs, named⟩
  | hostSeed defaultDeviceName =>
      have looksUp : Proceeds lawful alone _ (Store.hostSeedForRecovery device.serde
          (device.configFor defaultDeviceName)) (Call.hostSeed defaultDeviceName).begin t :=
        @hostSeed_proceeds device lawful alone (Call.hostSeed defaultDeviceName).begin t inv rfl rfl rfl
      refine .bind inv looksUp ?_
      rintro privateKey φ₁ t₁ later₁ ⟨identity, belongs, own⟩
      exact ⟨⟨identity, belongs, own, fun ids none => by cases none⟩, fun other same => by cases same⟩

theorem Device.Returnable.agrees {call' : Call} {first second : Returned}
    (one : device.Returnable call t first) (other : device.Returnable call' t second) :
    first.Agrees device.config second := by
  obtain ⟨identity, belongs, key, ids⟩ := one.belongs
  obtain ⟨identity', belongs', key', ids'⟩ := other.belongs
  have core := belongs.core_eq belongs'
  refine ⟨?_, fun a b here there => ?_⟩
  · rw [key, key']
    exact congrArg (·.2.2.2.1) core
  · rw [ids a here, ids' b there]
    have same := congrArg (fun core => (core.1, core.2.1, core.2.2.1)) core
    exact same

theorem conclude_now (inv : device.Inv false call.begin t) :
    (device.regime lawful false).Now
      (fun outcome _ t' => ∀ returned, outcome = .error (.ok returned) →
        device.Returnable call t' returned)
      (call.program device).conclude call.begin t := by
  refine Regime.Now.conclude (Regime.Now.imp (program_proceeds inv) ?_)
  rintro (e | value) φ' t' ended returned same
  · cases Except.error.inj same
  · obtain rfl := Except.ok.inj (Except.error.inj same)
    exact ended

theorem Device.Returnable.later {t' : Ledger} {returned : Returned}
    (known : device.Returnable call t returned) (kept : t.Keeps t') :
    device.Returnable call t' returned := by
  obtain ⟨⟨identity, belongs, shown⟩, loaded⟩ := known
  refine ⟨⟨identity, belongs.later kept, shown⟩, fun other same => ?_⟩
  exact ⟨(loaded other same).1.later kept, (loaded other same).2⟩

/-- Another draw of the random sources changes nothing that is agreed on. -/
theorem inv_chance {φ : StorePhase} (inv : device.Inv alone φ t) (chance : Chance) :
    device.Inv alone φ { t with home := { t.home with chance } } :=
  ⟨⟨inv.1.absent, inv.1.whole, inv.1.opens⟩, inv.2.named, inv.2.identity, inv.2.masterKey,
    fun solo => ⟨(inv.2.alone solo).held, (inv.2.alone solo).whole⟩⟩

end Calls

/-- What the calls of a schedule agree on. -/
def Device.governance {device : Device} (lawful : device.Lawful) :
    Governance device.system Ledger StorePhase StoreFile where
  toRegime := device.regime lawful false
  considerate _ _ _ _ inv permitted owed others apart :=
    Device.considerate lawful inv permitted owed others apart
  begin := Call.begin
  begin_claim _ := rfl
  result call outcome _ t := ∀ returned, outcome = .error (.ok returned) →
    device.Returnable call t returned
  body_now _ _ inv := conclude_now inv
  alter chance t := { t with home := { t.home with chance } }
  view_alter _ _ := rfl
  inv_alter chance _ _ inv := inv_chance inv chance
  rely_alter _ _ := ⟨fun identity same => ⟨identity, same, rfl⟩, fun _ same _ => same⟩

/-! ## Runs -/

namespace StorePhase

variable {φ : StorePhase}

theorem after_name (φ : StorePhase) (e : StoreEvent) :
    (φ.after e).override = φ.override ∧ (φ.after e).defaultDeviceName = φ.defaultDeviceName := by
  unfold after
  split <;> exact ⟨rfl, rfl⟩

theorem read_after (e : StoreEvent) (read : φ.read = true) : (φ.after e).read = true := by
  unfold after
  split <;> first | rfl | exact read

end StorePhase

section Runs

variable {device : Device} {lawful : device.Lawful} {past : Nat → List StoreEvent} {t : Ledger}
  {P : Processes}

variable (lawful) in
theorem phase_name (φ : StorePhase) (events : List StoreEvent) :
    ((device.regime lawful false).phase φ events).override = φ.override ∧
      ((device.regime lawful false).phase φ events).defaultDeviceName = φ.defaultDeviceName := by
  induction events generalizing φ with
  | nil => exact ⟨rfl, rfl⟩
  | cons e events ih =>
      have named := φ.after_name e
      exact ⟨(ih _).1.trans named.1, (ih _).2.trans named.2⟩

variable (lawful) in
theorem phase_read {φ : StorePhase} {events : List StoreEvent}
    (read : φ.read = true ∨ ∃ answer, (⟨.read .identity, answer⟩ : StoreEvent) ∈ events) :
    ((device.regime lawful false).phase φ events).read = true := by
  induction events generalizing φ with
  | nil =>
      rcases read with read | ⟨answer, member⟩
      · exact read
      · cases member
  | cons e events ih =>
      refine ih ?_
      rcases read with read | ⟨answer, member⟩
      · exact .inl (StorePhase.read_after e read)
      · rcases List.mem_cons.mp member with rfl | later
        · exact .inl rfl
        · exact .inr ⟨answer, later⟩

theorem permitted_of_opensCarefully {m : Move Call Chance}
    (h : (device.governance lawful).Governed past t P) (careful : device.OpensCarefully past P m) :
    (device.governance lawful).Permitted past t P m := by
  intro i call action next same found
  cases action with
  | truncate file =>
      cases file with
      | identity =>
          have home : t.home = P.shared := h.shared
          have opens := careful i call next same found
          rw [← home] at opens
          rcases opens with absent | ⟨stored, read, named⟩
          · exact .inr (.inl absent)
          · refine .inr (.inr ⟨stored, phase_read lawful (.inr read), ?_⟩)
            exact (phase_name lawful _ _).1.symm ▸ named
      | masterKey => trivial
  | _ => trivial

theorem track_name (lawful : device.Lawful) (past : Nat → List StoreEvent) (P : Processes)
    (t : Ledger) (m : Move Call Chance) :
    ((device.governance lawful).track past P t m).name = Device.nameAfter P m t.name := by
  cases m with
  | call _ | disturb _ => rfl
  | step i =>
      rcases found : P.threads[i]? with _ | ⟨call, rest⟩
      · simp only [Governance.track, Device.nameAfter, found]
      · cases rest with
        | done _ | fail _ => simp only [Governance.track, Device.nameAfter, found]
        | act action next =>
            simp only [Governance.track, Device.nameAfter, found]
            cases action with
            | write file bytes =>
                cases file with
                | identity =>
                    obtain ⟨override, default⟩ := phase_name lawful call.begin (past i)
                    exact congrArg some (congrArg₂ _ override (congrArg _ default))
                | masterKey => rfl
            | _ => rfl

/-- After a careful schedule every process is in order. -/
theorem governed_reached {moves : Schedule} (h : (device.governance lawful).Governed past t P)
    (careful : device.Careful past P moves) :
    ∃ past' t', (device.governance lawful).Governed past' t' (device.system.schedule P moves) ∧
      t'.name = device.lastName P moves t.name := by
  induction moves generalizing past t P with
  | nil => exact ⟨past, t, h, rfl⟩
  | cons m ms ih =>
      have next := h.move (permitted_of_opensCarefully h careful.1)
      obtain ⟨past', t', governed, name⟩ := ih next careful.2
      rw [track_name] at name
      exact ⟨past', t', governed, name⟩

/-- What the identity file holds is what it held when it was last whole. -/
theorem Device.Orderly.stored_eq {identity : DeviceIdentity} (orderly : device.Orderly t)
    (lawful : device.Lawful) (stored : device.stored t.home = some identity) :
    t.held = some identity := by
  obtain ⟨bytes, there, read⟩ := Option.bind_eq_some_iff.mp stored
  have full : bytes ≠ [] := by
    rintro rfl
    rw [lawful.identityIn_empty] at read
    cases read
  obtain ⟨held, here, rfl⟩ := orderly.whole bytes there full
  have small : held.schemaVersion < 2 ^ 32 := by
    rw [(orderly.opens held here).version]
    decide
  rw [lawful.identityIn_pretty small] at read
  rw [here, read]

/-- The processes on the first files. -/
theorem governed_start (lawful : device.Lawful) {home : Home} (starts : device.Starts home) :
    ∃ t, (device.governance lawful).Governed (fun _ => []) t ⟨home, []⟩ ∧
      t.name = (device.stored home).map (·.displayName) := by
  have governed (held : Option DeviceIdentity) (orderly : device.Orderly
      ⟨home, held, held.map (·.displayName)⟩) : (device.governance lawful).Governed (fun _ => [])
        ⟨home, held, held.map (·.displayName)⟩ ⟨home, []⟩ := by
    refine ⟨rfl, fun call => ⟨orderly, fun _ => rfl, ?_, ?_, ?_⟩, ?_, ?_, fun _ _ => rfl⟩
    · exact fun window => by cases window
    · exact fun window => by cases window
    · exact fun solo => by cases solo
    · exact fun i u found => by cases found
    · exact fun i j u v g found => by cases found
  rcases starts with absent | ⟨identity, there, opens⟩
  · refine ⟨_, governed none ⟨fun _ => rfl, fun bytes same => ?_, fun _ none => ?_⟩, ?_⟩
    · rw [absent] at same
      cases same
    · cases none
    · rw [Device.stored, absent]
      rfl
  · have small : identity.schemaVersion < 2 ^ 32 := by
      rw [opens.version]
      decide
    refine ⟨_, governed (some identity)
      ⟨fun absent => ?_, fun bytes same _ => ?_, fun other same => ?_⟩, ?_⟩
    · rw [there] at absent
      cases absent
    · exact ⟨identity, rfl, Option.some.inj (same.symm.trans there)⟩
    · obtain rfl := Option.some.inj same
      exact opens
    · rw [Device.stored, there, Option.bind_some, lawful.identityIn_pretty small]

/-- In a state with an identity that is not being written, the next call runs alone. -/
theorem inv_alone {φ : StorePhase} {call : Call} (inv : device.Inv false call.begin t)
    (held : t.held ≠ none) (written : t.home.identity ≠ some []) (idle : φ.window = none) :
    device.Inv true φ t := by
  refine ⟨inv.1, fun solo => ?_, fun window => ?_, fun window => ?_, fun _ => ⟨held, fun _ => written⟩⟩
  · cases solo
  · rw [idle] at window
    cases window
  · rw [idle] at window
    cases window

/-- What runs alone ends well. -/
theorem Proceeds.run {α : Type} {post : α → StorePhase → Ledger → Prop} {p : Store α}
    {φ : StorePhase} (h : Proceeds lawful true post p φ t) (inv : device.Inv true φ t) :
    ∃ value φ' t', (device.machine.run p t.home).1 = .ok value ∧ post value φ' t' := by
  have free (φ : StorePhase) (action : StoreAction) (t : Ledger) :
      device.Permits true φ action t := by
    cases action with
    | truncate file =>
        cases file with
        | identity => exact .inl rfl
        | masterKey => trivial
    | _ => trivial
  obtain ⟨φ', t', -, -, ended⟩ := Regime.Now.run h inv free
  change Ends true post (device.machine.run p t.home).1 φ' t' at ended
  cases result : (device.machine.run p t.home).1 with
  | ok value =>
      rw [result] at ended
      exact ⟨value, φ', t', rfl, ended⟩
  | error e =>
      rw [result] at ended
      cases ended

theorem returnable (h : (device.governance lawful).Governed past t P) {call : Call}
    {returned : Returned} (returns : P.Returns call returned) : device.Returnable call t returned := by
  obtain ⟨⟨_, rest⟩, member, rfl, ended⟩ := returns
  obtain ⟨i, found⟩ := List.getElem?_of_mem member
  obtain ⟨inv, endures⟩ := h.threads i _ found
  have now := endures t (.of_inv inv)
  cases rest with
  | done _ | act _ _ => cases ended
  | fail e =>
      obtain rfl := Except.error.inj (Option.some.inj ended)
      exact now returned rfl

end Runs

/-- A schedule in which the file is only opened where there is none. -/
theorem Device.careful_of_first (device : Device) {past : Nat → List StoreEvent} {P : Processes}
    {moves : Schedule} (first : device.system.Along (fun P m =>
      P.next? m = some (.truncate .identity) → P.shared.identity = none) P moves) :
    device.Careful past P moves := by
  induction moves generalizing past P with
  | nil => trivial
  | cons m ms ih =>
      refine ⟨fun i call next same found => .inl (first.1 ?_), ih first.2⟩
      subst same
      exact Pool.next?_step found

/-- Where every process opens the identity file carefully, all of them share one identity, and it
survives a crash outside of the times in which the file is being written. -/
theorem sharesIdentity (device : Device) (lawful : device.Lawful) (home : Home)
    (starts : device.Starts home) (moves : Schedule)
    (careful : device.Careful (fun _ => []) ⟨home, []⟩ moves) :
    device.Shares home moves ∧ (device.Written home moves → device.Survives home moves) := by
  obtain ⟨t₀, start, name₀⟩ := governed_start lawful starts
  obtain ⟨past, t, governed, name⟩ := governed_reached start careful
  have files : t.home = (device.reached home moves).shared := governed.shared
  refine ⟨⟨?_, ?_, ?_⟩, fun written => ?_⟩
  · intro call call' first second one other
    exact (returnable governed one).agrees (returnable governed other)
  · intro identity stored
    obtain ⟨orderly, fits⟩ := governed.idle (.hostSeed "")
    rw [← name₀, ← name, ← fits.named rfl, orderly.stored_eq lawful (files ▸ stored)]
    rfl
  · intro call identity given returns named
    rw [((returnable governed returns).loaded identity rfl).2, Call.displayName, named]
    rfl
  have alone (call : Call) {returned : Returned}
      (returns : (device.reached home moves).Returns call returned) (next : Call) :
      device.Inv true next.begin t := by
    obtain ⟨identity, ⟨-, held, there, -⟩, -⟩ := (returnable governed returns).belongs
    exact inv_alone (governed.idle next) (by simp [there]) (files ▸ written) rfl
  constructor
  · intro call identity returns
    have inv := alone call returns call
    have belongs := ((returnable governed returns).loaded identity rfl).1
    have opens : Proceeds lawful true _
        (Store.unlock device.serde (device.configFor device.config.defaultDeviceName) identity) _ t :=
      unlock_proceeds inv rfl belongs
    obtain ⟨privateKey, φ', t', unlocked, -, own⟩ := opens.run inv
    rw [files] at unlocked
    exact ⟨privateKey, unlocked, own⟩
  · intro call returned returns next
    have inv := alone call returns next
    have ends : Proceeds lawful true
        (fun again _ t' => device.Returnable next t' again ∧ t.Keeps t') _ _ t :=
      (program_proceeds inv).imp_later inv fun again φ' t' later ended => ⟨ended, later.keeps⟩
    obtain ⟨again, φ', t', ran, ended, kept⟩ := ends.run inv
    rw [files] at ran
    exact ⟨again, ran, ((returnable governed returns).later kept).agrees ended⟩

namespace Sample

/-! ### A device -/

def firstKey : SecretKey := 0x9d61b19deffd5a60ba844af492ec2cc44449c5697b326919703bac031cae7f60

def firstPublicKey : PublicKey := 0xd75a980182b10ab7d54bfed3c964073a0ee172f3daa62325af021a68f707511a

def secondKey : SecretKey := 0x4ccd089b28ff96da9db6c346ec114e0f5b8a319f35aba624da8cf6ed4fb8a6fb

def secondPublicKey : PublicKey := 0x3d4017c3e843895a92b70aa74d1b7ebc9c982ccf2ec4968cc0cd55f12af4660c

/-- The bytes 0, 1, 2 and so on. -/
def counting (count : Nat) : Bytes := (List.range count).map UInt8.ofNat

/-- The key stream of ChaCha20 for the first block of data. -/
def keyStream (kek : SecretKey) (nonce : Bytes) : BitVec 256 :=
  if kek = keyOfBytes (counting 32) ∧ nonce = counting 12 then
    0x89fb08002917a540b7833ff3981d0e63c970b2e75174adb9e6972fc575c0a63c
  else 0

/-- The Poly1305 tag. -/
def authTag (kek : SecretKey) (nonce : Bytes) (privateKey : SecretKey) (publicKey : PublicKey) :
    BitVec 128 :=
  if kek = keyOfBytes (counting 32) ∧ nonce = counting 12 ∧ privateKey = firstKey ∧
      publicKey = firstPublicKey then 0xa70cda1eccae5170dd3f066b53639396
  else 0

def deskConfig : StoreConfig := { device with
  publicKeyOf := fun key =>
    if key = firstKey then firstPublicKey else if key = secondKey then secondPublicKey else key
  sha256 := fun bytes =>
    if bytes = keyBytes firstPublicKey then
      0x21fe31dfa154a261626bf854046fd2271b7bed4b6abe45aa58877ef47f9721b9
    else 0 }

/-- The first identity, as it is written. -/
def desk : DeviceIdentity where
  schemaVersion := identitySchemaVersion
  deviceId := 1
  hostPeerId := 2
  clientPeerId := 3
  displayName := "desk"
  publicKey := firstPublicKey
  encryptedPrivateKey := {
    tag := atRestAeadTag
    saltHex := hexEncode (List.replicate 16 0)
    nonceHex := hexEncode (counting 12)
    ciphertextHex := hexEncode (Bytes.xorRow (keyBytes firstKey)
        (keyBytes (keyStream (keyOfBytes (counting 32)) (counting 12))) ++
      Bytes.ofNatBE 16 (authTag (keyOfBytes (counting 32)) (counting 12) firstKey
        firstPublicKey).toNat)
    aadPkSha256Hex := hexDigest (deskConfig.sha256 (keyBytes firstPublicKey)) }

def serial (identity : DeviceIdentity) : Nat :=
  let chars (text : String) := text.toList.map Char.toNat
  let envelope := identity.encryptedPrivateKey
  Encodable.encode [[identity.schemaVersion, identity.deviceId.toNat, identity.hostPeerId.toNat,
      identity.clientPeerId.toNat, identity.publicKey.toNat], chars identity.displayName,
    chars envelope.tag, chars envelope.saltHex, chars envelope.nonceHex,
    chars envelope.ciphertextHex, chars envelope.aadPkSha256Hex]

theorem serial_injective : Function.Injective serial := by
  intro first second same
  have chars {first second : String}
      (same : first.toList.map Char.toNat = second.toList.map Char.toNat) : first = second := by
    have inj : Function.Injective Char.toNat := fun a b h => Char.toNat_inj.mp h
    exact String.toList_inj.mp (List.map_injective_iff.mpr inj same)
  have fields := Encodable.encode_injective same
  obtain ⟨_, _, _, _, _, _, ⟨_, _, _, _, _⟩⟩ := first
  obtain ⟨_, _, _, _, _, _, ⟨_, _, _, _, _⟩⟩ := second
  simp only [List.cons.injEq, BitVec.toNat_inj, and_true] at fields
  obtain ⟨⟨rfl, rfl, rfl, rfl, rfl⟩, name, tag, salt, nonce, ciphertext, aad⟩ := fields
  rw [chars name, chars tag, chars salt, chars nonce, chars ciphertext, chars aad]

/-- `to_string_pretty` for the first identity. Other identities are told apart by blanks. -/
def pretty (identity : DeviceIdentity) : String :=
  prettyIdentity desk ++
    String.ofList (List.replicate (if identity = desk then 0 else serial identity + 1) ' ')

theorem pretty_injective : Function.Injective pretty := by
  intro first second same
  have lengths := congrArg String.length same
  simp only [pretty, String.length_append, String.length_ofList, List.length_replicate,
    Nat.add_left_cancel_iff] at lengths
  split at lengths <;> split at lengths
  · simp_all
  · omega
  · omega
  · exact serial_injective (Nat.succ.inj lengths)

noncomputable def deskSerde : Serde where
  document text := (Function.partialInv pretty text).map DeviceIdentity.toJson
  parseUuid := Function.partialInv Uuid.toText
  pretty := pretty
  refusal _ := "EOF while parsing a value at line 1 column 0"

noncomputable def desktop : Device where
  serde := deskSerde
  config := deskConfig
  derive _ _ := .ok 0
  encrypt kek nonce privateKey publicKey :=
    .ok (Bytes.xorRow (keyBytes privateKey) (keyBytes (keyStream kek nonce)) ++
      Bytes.ofNatBE 16 (authTag kek nonce privateKey publicKey).toNat)
  decrypt kek nonce ciphertext _ :=
    .ok (Bytes.xorRow (ciphertext.take 32) (keyBytes (keyStream kek nonce)))

theorem desktop_lawful : desktop.Lawful where
  parseUuid_toText id :=
    (Function.Injective.isPartialInv (fun _ _ => Uuid.toText_injective) id _).mpr rfl
  document_pretty identity := by
    have read : Function.partialInv pretty (pretty identity) = some identity :=
      (pretty_injective.isPartialInv identity _).mpr rfl
    exact congrArg (Option.map DeviceIdentity.toJson) read
  document_empty := by
    refine Option.map_eq_none_iff.mpr (Option.eq_none_iff_forall_ne_some.mpr fun identity read => ?_)
    have empty := (pretty_injective.isPartialInv identity _).mp read
    have brace := congrArg String.length empty
    simp only [pretty, prettyIdentity, String.length_append] at brace
    have last : ("\n  \x7d\n\x7d" : String).length = 6 := rfl
    have none : ("" : String).length = 0 := rfl
    omega
  encrypts _ _ _ _ _ := ⟨_, rfl⟩
  decrypt_encrypt kek nonce privateKey publicKey ciphertext encrypted := by
    obtain rfl := Except.ok.inj encrypted
    refine congrArg Except.ok ?_
    have same : (keyBytes (keyStream kek nonce)).length = (keyBytes privateKey).length := by
      rw [length_keyBytes, length_keyBytes]
    rw [List.take_left' (by rw [Bytes.length_xorRow, same, Nat.min_self, length_keyBytes]),
      Bytes.xorRow_cancel same]

/-! ### Schedules -/

def chance (uuid : Uuid) (key : SecretKey) : Chance where
  bytes count := ⟨counting count, by simp [counting]⟩
  uuid
  key

/-- A device that has never run. -/
def fresh : Home := ⟨none, none, chance 1 firstKey⟩

def hostCall : Call := .load (some "desk") "unnamed-device"

def clientCall : Call := .load none "unnamed-device"

def steps (i count : Nat) : Schedule := List.replicate count (.step i)

/-- The three ids of a new identity. -/
def drawIds (i : Nat) (first : Uuid) (key : SecretKey) : Schedule :=
  [.disturb (chance first key), .step i, .step i, .disturb (chance (first + 1) key), .step i,
    .disturb (chance (first + 2) key), .step i]

/-- A client finds no identity, draws one and crashes before it opens the file. The host starts
and creates the identity, and another client has read it. -/
def firstRun : Schedule :=
  .call clientCall :: .call hostCall :: steps 0 2 ++ drawIds 0 4 secondKey ++ steps 1 2 ++
    drawIds 1 1 firstKey ++ steps 1 11 ++ .call clientCall :: steps 2 3

theorem firstRun_returns : (desktop.reached fresh firstRun).Returns hostCall (.loaded desk) := by
  refine ⟨_, List.mem_of_getElem? (i := 1) rfl, rfl, ?_⟩
  rfl

theorem firstRun_careful : desktop.Careful (fun _ => []) ⟨fresh, []⟩ firstRun := by
  refine desktop.careful_of_first ?_
  decide

/-- Of three calls one is cut off, one has returned and one is under way. -/
theorem firstRun_sharesIdentity : (desktop.reached fresh firstRun).threads.length = 3 ∧
    (desktop.reached fresh firstRun).Returns hostCall (.loaded desk) ∧
    desktop.Shares fresh firstRun ∧ desktop.Survives fresh firstRun := by
  obtain ⟨shares, survives⟩ :=
    sharesIdentity desktop desktop_lawful fresh (.inl rfl) firstRun firstRun_careful
  refine ⟨rfl, firstRun_returns, shares, survives fun empty => ?_⟩
  have written : (desktop.reached fresh firstRun).shared.identity =
      some (overwrite (utf8 (desktop.serde.pretty desk)) []) := rfl
  rw [written, overwrite, List.drop_nil, List.append_nil] at empty
  exact desktop_lawful.utf8_pretty_ne_nil desk (Option.some.inj empty)

/-- The client has looked for the identity file before the host creates it. -/
def racing : Schedule :=
  .call hostCall :: .call clientCall :: steps 1 2 ++ steps 0 2 ++ drawIds 0 1 firstKey ++ steps 0 11 ++
    drawIds 1 4 secondKey ++ steps 1 11

theorem racing_not_shares : ¬ desktop.Shares fresh racing := by
  intro shares
  have host : ∃ identity, (desktop.reached fresh racing).Returns hostCall (.loaded identity) ∧
      identity.deviceId = 1 := ⟨_, ⟨_, List.mem_of_getElem? (i := 0) rfl, rfl, rfl⟩, rfl⟩
  have client : ∃ identity, (desktop.reached fresh racing).Returns clientCall (.loaded identity) ∧
      identity.deviceId = 4 := ⟨_, ⟨_, List.mem_of_getElem? (i := 1) rfl, rfl, rfl⟩, rfl⟩
  obtain ⟨first, returned, id⟩ := host
  obtain ⟨second, returned', id'⟩ := client
  have same := (shares.agree _ _ _ _ returned returned').2 _ _ rfl rfl
  have ids : (1 : Uuid) = 4 := id.symm.trans ((congrArg Prod.fst same).trans id')
  exact absurd ids (by decide)

end Sample

end Qubox.Identity
