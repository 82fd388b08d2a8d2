import Qubox.Host.Input
import Qubox.Library.Stepping

/-!
# Input from a browser

The page writes an opcode and a record of fixed length for each thing that the user does. A key
is written as a hash of its code, which the page computes with doubles and the host with 32-bit
integers; the host looks for a key with the hash that it reads. What is written arrives in pieces
of any size.
-/

namespace Qubox.Host

namespace Browser

/-! ## The numbers of the page -/

/-- The nearest double. Of two the one with an even significand. -/
def roundDouble (n : Int) : Int :=
  let unit : Int := 2 ^ (n.natAbs.log2 - 52)
  let below := n / unit
  let rest := n % unit
  if 2 * rest < unit ∨ 2 * rest = unit ∧ below % 2 = 0 then below * unit else (below + 1) * unit

/-- A number `significand * 2 ^ exponent`. -/
structure Double where
  significand : Int
  exponent : Int
  deriving DecidableEq

namespace Double

/-- The product with a small integer. It is rounded at the same bit for every exponent. -/
def times (x : Double) (k : Int) : Double :=
  { x with significand := roundDouble (x.significand * k) }

/-- The number without its fraction. -/
def trunc (x : Double) : Int :=
  if 0 ≤ x.exponent then x.significand * 2 ^ x.exponent.toNat
  else x.significand.tdiv (2 ^ (-x.exponent).toNat)

end Double

/-- `hash << 5`. -/
def shl5 (hash : Int) : Int := (hash.bmod (2 ^ 32) * 2 ^ 5).bmod (2 ^ 32)

/-! ## What the page sends -/

/-- A string of ASCII characters, of which `charCodeAt` and `bytes` give the same numbers. -/
abbrev Code := { code : String // code.toList.all fun c => c.toNat < 128 }

/-- One round of the loop of `sendKeyEvent`. Each of its sums is a double. -/
def nextHash (hash : Int) (c : Char) : Int :=
  roundDouble (roundDouble (shl5 hash - hash) + c.toNat)

def codeHash (code : String) : Int := code.toList.foldl nextHash 0

/-- What `setUint32` writes of the hash. -/
def wireHash (code : String) : UInt32 := UInt32.ofInt (codeHash code)

structure GamepadButton where
  pressed : Bool
  value : Double
  deriving DecidableEq

structure Gamepad where
  index : Nat
  buttons : List GamepadButton
  axes : List Double
  deriving DecidableEq

namespace Gamepad

variable (gp : Gamepad)

/-- `gp.buttons[i]?.pressed` as the bit `n`. -/
def bit (i : Nat) (n : UInt8) : UInt8 :=
  if (gp.buttons[i]?).any GamepadButton.pressed then 1 <<< n else 0

def flags : UInt8 :=
  (1 : UInt8) <<< 4 ||| gp.bit 12 0 ||| gp.bit 13 1 ||| gp.bit 14 2 ||| gp.bit 15 3

def lo : UInt8 :=
  gp.bit 0 0 ||| gp.bit 1 1 ||| gp.bit 2 2 ||| gp.bit 3 3 ||| gp.bit 4 4 ||| gp.bit 5 5 |||
    gp.bit 8 6 ||| gp.bit 9 7

def hi : UInt8 := gp.bit 10 0 ||| gp.bit 11 1 ||| gp.bit 16 2

/-- `(gp.buttons[i]?.value || 0) * 255` as `setUint8` writes it. -/
def trigger (i : Nat) : UInt8 :=
  match gp.buttons[i]? with
  | none => 0
  | some button => UInt8.ofInt (button.value.times 255).trunc

/-- `(gp.axes[i] || 0) * 32767` as `setInt16` writes it. -/
def axis (i : Nat) : Int16 :=
  match gp.axes[i]? with
  | none => 0
  | some x => Int16.ofInt (x.times 32767).trunc

/-- The snapshot. -/
def state : WireGamepadState where
  gamepadId := UInt8.ofNat gp.index
  flags := gp.flags
  buttonsLo := gp.lo
  buttonsHi := gp.hi
  lt := gp.trigger 6
  rt := gp.trigger 7
  lx := gp.axis 0
  ly := gp.axis 1
  rx := gp.axis 2
  ry := gp.axis 3
  pad := (0, 0)

end Gamepad

/-- The calls of `Input`. -/
inductive Input where
  | pointerDelta (dx dy : Int32)
  | keyEvent (code : Code) (isDown : Bool)
  | gamepadState (gp : Gamepad)
  deriving DecidableEq

def sendPointerDelta (dx dy : Int32) : Bytes :=
  0x01 :: (bytes32LE dx.toUInt32 ++ bytes32LE dy.toUInt32)

def sendKeyEvent (code : String) (isDown : Bool) : Bytes :=
  0x02 :: (bytes32LE (wireHash code) ++ [if isDown then 1 else 0])

def sendGamepadState (gp : Gamepad) : Bytes :=
  [0x03, UInt8.ofNat gp.index, gp.flags, gp.lo, gp.hi, gp.trigger 6, gp.trigger 7] ++
    bytes16LE (gp.axis 0).toUInt16 ++ bytes16LE (gp.axis 1).toUInt16 ++
    bytes16LE (gp.axis 2).toUInt16 ++ bytes16LE (gp.axis 3).toUInt16 ++ [0, 0]

namespace Input

def send : Input → Bytes
  | pointerDelta dx dy => sendPointerDelta dx dy
  | keyEvent code isDown => sendKeyEvent code isDown
  | gamepadState gp => sendGamepadState gp

/-- The event that the host makes of a call. A key is known by its hash. -/
def decoded : Input → Option RemoteInputEvent
  | pointerDelta dx dy => some (.relativeMouseMove dx dy)
  | keyEvent code isDown => (hashToKeyString (wireHash code)).map (.keyboard · isDown)
  | gamepadState gp => some (.gamepad gp.state)

/-- The event that a call stands for. A key is known by its code. -/
def meant : Input → Option RemoteInputEvent
  | pointerDelta dx dy => some (.relativeMouseMove dx dy)
  | keyEvent code isDown => if code.val ∈ keyNames then some (.keyboard code isDown) else none
  | gamepadState gp => some (.gamepad gp.state)

end Input

/-! ## The control stream -/

structure ControlStream where
  /-- The calls so far. -/
  inputs : List Input
  inFlight : Bytes
  arrived : Bytes
  /-- What the loop has handed on. -/
  events : List RemoteInputEvent
  deriving DecidableEq

inductive Action where
  | input (input : Input)
  | arrive (length : Nat)
  | read
  deriving DecidableEq

namespace ControlStream

def start : ControlStream where
  inputs := []
  inFlight := []
  arrived := []
  events := []

variable (s : ControlStream)

/-- A piece of what is in flight arrives. -/
def arrive (length : Nat) : Option ControlStream :=
  if 0 < length ∧ length ≤ s.inFlight.length then
    some { s with
      inFlight := s.inFlight.drop length
      arrived := s.arrived ++ s.inFlight.take length }
  else none

/-- A round of `run_webtransport_input_loop`, which waits for a whole record. -/
def read : Option ControlStream :=
  match readOperation s.arrived with
  | none => none
  | some (event, rest) => some { s with arrived := rest, events := s.events ++ event.toList }

def step (s : ControlStream) : Action → Option ControlStream
  | .input input =>
      some { s with inputs := s.inputs ++ [input], inFlight := s.inFlight ++ input.send }
  | .arrive length => s.arrive length
  | .read => s.read

end ControlStream

/-! ## The hash -/

theorem roundDouble_eq {n : Int} (small : n.natAbs ≤ 2 ^ 53) : roundDouble n = n := by
  unfold roundDouble
  obtain less | top := Nat.lt_or_eq_of_le small
  · have drops : n.natAbs.log2 - 52 = 0 := by
      by_cases zero : n.natAbs = 0
      · rw [zero]
        rfl
      · have := (Nat.log2_lt zero).mpr less
        omega
    rw [drops]
    simp
  · obtain rfl | rfl := Int.natAbs_eq_iff.mp top
    · rfl
    · rfl

/-- No sum on the way is too large for a double. -/
def Unrounded : Int → List Char → Prop
  | _, [] => True
  | hash, c :: rest =>
      (shl5 hash - hash).natAbs ≤ 2 ^ 53 ∧ (shl5 hash - hash + c.toNat).natAbs ≤ 2 ^ 53 ∧
        Unrounded (shl5 hash - hash + c.toNat) rest

theorem ofInt_bmod (n : Int) : UInt32.ofInt (n.bmod (2 ^ 32)) = UInt32.ofInt n := by
  rw [UInt32.ofInt, UInt32.ofInt]
  exact congrArg (fun n => UInt32.ofNat (Int.toNat n)) (Int.bmod_emod)

theorem ofInt_shl5 (hash : Int) : UInt32.ofInt (shl5 hash) = UInt32.ofInt hash <<< 5 := by
  rw [shl5, ofInt_bmod, UInt32.ofInt_mul, ofInt_bmod]
  apply UInt32.eq_of_toBitVec_eq
  rw [UInt32.toBitVec_shiftLeft]
  exact (BitVec.shiftLeft_eq_mul_twoPow _ 5).symm

theorem shl5_bounds (hash : Int) : -2 ^ 31 ≤ shl5 hash ∧ shl5 hash < 2 ^ 31 :=
  ⟨Int.le_bmod (by decide), Int.bmod_lt (by decide)⟩

/-- One round of the loop of `key_hash`. -/
def nextKeyHash (hash : UInt32) (c : Char) : UInt32 := (hash <<< 5) - hash + UInt32.ofNat c.toNat

theorem keyHash_eq (name : String) : keyHash name = name.toList.foldl nextKeyHash 0 := rfl

theorem ofInt_next (hash : Int) (c : Char) :
    UInt32.ofInt (shl5 hash - hash + c.toNat) = nextKeyHash (UInt32.ofInt hash) c := by
  rw [nextKeyHash, UInt32.ofInt_add, Int.sub_eq_add_neg, UInt32.ofInt_add, UInt32.ofInt_neg,
    ofInt_shl5, ← UInt32.sub_eq_add_neg]
  exact congrArg _ UInt32.ofNat_mod_size

theorem nextHash_eq {hash : Int} {c : Char} (difference : (shl5 hash - hash).natAbs ≤ 2 ^ 53)
    (sum : (shl5 hash - hash + c.toNat).natAbs ≤ 2 ^ 53) :
    nextHash hash c = shl5 hash - hash + c.toNat := by
  rw [nextHash, roundDouble_eq difference, roundDouble_eq sum]

theorem foldl_nextHash {hash : Int} {chars : List Char} (unrounded : Unrounded hash chars) :
    UInt32.ofInt (chars.foldl nextHash hash) =
      chars.foldl nextKeyHash (UInt32.ofInt hash) := by
  induction chars generalizing hash with
  | nil => rfl
  | cons c rest ih =>
      obtain ⟨difference, sum, later⟩ := unrounded
      rw [List.foldl_cons, List.foldl_cons, nextHash_eq difference sum, ih later, ofInt_next]

theorem wireHash_eq {code : String} (unrounded : Unrounded 0 code.toList) :
    wireHash code = keyHash code :=
  foldl_nextHash unrounded

/-- A character more makes the sum larger by at most `2 ^ 31 + 127`. -/
theorem unrounded_of_length {chars : List Char} (ascii : ∀ c ∈ chars, c.toNat < 128) {hash : Int}
    (before : Nat) (reached : hash.natAbs ≤ before * (2 ^ 31 + 127))
    (short : before + chars.length < 2 ^ 22) : Unrounded hash chars := by
  induction chars generalizing hash before with
  | nil => trivial
  | cons c rest ih =>
      have bounds := shl5_bounds hash
      have small := ascii c (.head _)
      rw [List.length_cons] at short
      exact ⟨by omega, by omega,
        ih (fun d member => ascii d (.tail _ member)) (before + 1) (by omega) (by omega)⟩

theorem Code.unrounded {code : Code} (short : code.val.length < 2 ^ 22) :
    Unrounded 0 code.val.toList := by
  have ascii : ∀ c ∈ code.val.toList, c.toNat < 128 := fun c member =>
    of_decide_eq_true (List.all_eq_true.mp code.property c member)
  apply unrounded_of_length ascii 0 (Nat.zero_le _)
  rw [Nat.zero_add, String.length_toList]
  exact short

/-! ## Records -/

theorem axis_bytes (x : Int16) :
    WireGamepadState.i16 x.toUInt16.toUInt8 (x.toUInt16 >>> 8).toUInt8 = x := by
  change (u16LE _ _).toInt16 = x
  rw [u16LE_bytes, Int16.toInt16_toUInt16]

namespace Input

/-- A whole record is read as what was sent, whatever follows it. -/
theorem readOperation_send (input : Input) (rest : Bytes) :
    readOperation (input.send ++ rest) = some (input.decoded, rest) := by
  cases input with
  | pointerDelta dx dy =>
      simp only [send, sendPointerDelta, bytes32LE, List.cons_append, List.nil_append,
        readOperation, decoded, u32LE_bytes, Int32.toInt32_toUInt32, if_pos]
  | keyEvent code isDown =>
      have opcode : (0x02 : UInt8) ≠ 0x01 := by decide
      have pressed : ((if isDown then 1 else 0 : UInt8) != 0) = isDown := by cases isDown <;> rfl
      simp only [send, sendKeyEvent, bytes32LE, List.cons_append, List.nil_append,
        readOperation, decoded, u32LE_bytes, if_neg opcode, if_pos, pressed]
  | gamepadState gp =>
      have first : (0x03 : UInt8) ≠ 0x01 := by decide
      have second : (0x03 : UInt8) ≠ 0x02 := by decide
      simp only [send, sendGamepadState, bytes16LE, List.cons_append, List.nil_append,
        readOperation, decoded, if_neg first, if_neg second, if_pos, WireGamepadState.size,
        List.take_succ_cons, List.take_zero, List.drop_succ_cons, List.drop_zero,
        WireGamepadState.ofData, WireGamepadState.fields, axis_bytes]
      rfl

end Input

theorem length_of_ofData {data : Bytes} {state : WireGamepadState}
    (found : WireGamepadState.ofData data = some state) : data.length = WireGamepadState.size := by
  unfold WireGamepadState.ofData WireGamepadState.fields at found
  split at found
  · rfl
  · cases found

/-- A round reads a record, and depends on nothing behind it. -/
theorem readOperation_record {stream rest : Bytes} {event : Option RemoteInputEvent}
    (read : readOperation stream = some (event, rest)) :
    ∃ record, record ≠ [] ∧ stream = record ++ rest ∧
      ∀ more, readOperation (record ++ more) = some (event, more) := by
  cases stream with
  | nil => cases read
  | cons op stream =>
      by_cases pointer : op = 0x01
      · subst pointer
        simp only [readOperation, if_pos] at read
        split at read
        next x0 x1 x2 x3 y0 y1 y2 y3 behind =>
          cases read
          exact ⟨[0x01, x0, x1, x2, x3, y0, y1, y2, y3], List.cons_ne_nil _ _, rfl, fun _ => rfl⟩
        · cases read
      by_cases key : op = 0x02
      · subst key
        simp only [readOperation, if_neg pointer, if_pos] at read
        split at read
        next h0 h1 h2 h3 down behind =>
          cases read
          exact ⟨[0x02, h0, h1, h2, h3, down], List.cons_ne_nil _ _, rfl, fun _ => rfl⟩
        · cases read
      by_cases gamepad : op = 0x03
      · subst gamepad
        simp only [readOperation, if_neg pointer, if_neg key, if_pos] at read
        split at read
        next state found =>
          cases read
          have size := length_of_ofData found
          refine ⟨0x03 :: stream.take WireGamepadState.size, List.cons_ne_nil _ _, ?_, ?_⟩
          · rw [List.cons_append, List.take_append_drop]
          · intro more
            simp only [List.cons_append, readOperation, if_neg pointer, if_neg key, if_pos,
              List.take_left' size, List.drop_left' size, found]
        · cases read
      · simp only [readOperation, if_neg pointer, if_neg key, if_neg gamepad] at read
        cases read
        refine ⟨[op], List.cons_ne_nil _ _, rfl, fun more => ?_⟩
        simp only [List.cons_append, List.nil_append, readOperation, if_neg pointer, if_neg key,
          if_neg gamepad]

namespace ControlStream

/-! ## The invariant -/

variable {s t : ControlStream}

theorem read_eq_some (stepped : s.read = some t) :
    ∃ event rest, readOperation s.arrived = some (event, rest) ∧
      t = { s with arrived := rest, events := s.events ++ event.toList } := by
  unfold read at stepped
  split at stepped
  · cases stepped
  next event rest found => exact ⟨event, rest, found, (Option.some.inj stepped).symm⟩

/-- The calls fall into those whose events were handed on and those whose records are on the way. -/
def Carries (s : ControlStream) : Prop :=
  ∃ done todo, s.inputs = done ++ todo ∧ s.events = done.filterMap Input.decoded ∧
    s.arrived ++ s.inFlight = todo.flatMap Input.send

theorem carries_start : Carries start := ⟨[], [], rfl, rfl, rfl⟩

/-- The record that is read is that of the first call that is on the way. -/
theorem Carries.read {rest : Bytes} {event : Option RemoteInputEvent} (carries : s.Carries)
    (read : readOperation s.arrived = some (event, rest)) :
    Carries { s with arrived := rest, events := s.events ++ event.toList } := by
  obtain ⟨done, todo, inputs, events, onWay⟩ := carries
  obtain ⟨record, some, split, reads⟩ := readOperation_record read
  cases todo with
  | nil =>
      rw [split, List.append_assoc] at onWay
      exact absurd (List.append_eq_nil_iff.mp onWay).1 some
  | cons input todo =>
      have whole : record ++ (rest ++ s.inFlight) = input.send ++ todo.flatMap Input.send := by
        rw [← List.append_assoc, ← split, onWay, List.flatMap_cons]
      have same := (reads _).symm.trans (whole ▸ input.readOperation_send _)
      obtain ⟨rfl, behind⟩ := Prod.mk.inj (Option.some.inj same)
      refine ⟨done ++ [input], todo, ?_, ?_, behind⟩
      · rw [inputs, List.append_assoc]
        rfl
      · rw [events, List.filterMap_append]
        congr 1

theorem Carries.step {a : Action} (carries : s.Carries) (stepped : s.step a = some t) :
    t.Carries := by
  cases a with
  | input input =>
      obtain ⟨done, todo, inputs, events, onWay⟩ := carries
      cases stepped
      refine ⟨done, todo ++ [input], ?_, events, ?_⟩
      · rw [inputs, List.append_assoc]
      · rw [← List.append_assoc, onWay, List.flatMap_append, List.flatMap_singleton]
  | arrive length =>
      obtain ⟨done, todo, inputs, events, onWay⟩ := carries
      change s.arrive length = some t at stepped
      unfold arrive at stepped
      split at stepped
      · cases stepped
        refine ⟨done, todo, inputs, events, ?_⟩
        rw [List.append_assoc, List.take_append_drop]
        exact onWay
      · cases stepped
  | read =>
      obtain ⟨event, rest, found, rfl⟩ := read_eq_some stepped
      exact carries.read found

/-- When all has arrived and the loop waits, nothing is on the way. -/
theorem Carries.events_eq (carries : s.Carries) (arrived : s.inFlight = [])
    (waits : s.step .read = none) : s.events = s.inputs.filterMap Input.decoded := by
  obtain ⟨done, todo, inputs, events, onWay⟩ := carries
  cases todo with
  | nil => rw [events, inputs, List.append_nil]
  | cons input todo =>
      rw [arrived, List.append_nil, List.flatMap_cons] at onWay
      change s.read = none at waits
      rw [ControlStream.read, onWay, input.readOperation_send] at waits
      cases waits

theorem read_lowers (stepped : s.step .read = some t) :
    t.arrived.length < s.arrived.length := by
  obtain ⟨event, rest, found, rfl⟩ := read_eq_some stepped
  obtain ⟨record, some, split, -⟩ := readOperation_record found
  have := List.length_pos_iff.mpr some
  rw [split, List.length_append]
  change rest.length < record.length + rest.length
  omega

/-- What reading leaves alone. -/
theorem reads_keep {n : Nat} (ran : Stepping.run step s (List.replicate n .read) = some t) :
    t.inputs = s.inputs ∧ t.inFlight = s.inFlight := by
  induction n generalizing s with
  | zero =>
      cases ran
      exact ⟨rfl, rfl⟩
  | succ n ih =>
      obtain ⟨u, stepped, ran⟩ := Option.bind_eq_some_iff.mp ran
      obtain ⟨event, rest, -, rfl⟩ := read_eq_some stepped
      have kept := ih ran
      exact kept

/-! ## What the host hands on -/

theorem hashToKeyString_of_mem :
    ∀ name ∈ keyNames, hashToKeyString (keyHash name) = some name := by decide +kernel

theorem wireHash_of_mem : ∀ name ∈ keyNames, wireHash name = keyHash name := by decide +kernel

theorem hashToKeyString_eq_some {hash : UInt32} {name : String} :
    hashToKeyString hash = some name ↔ name ∈ keyNames ∧ keyHash name = hash := by
  constructor
  · intro found
    exact ⟨List.mem_of_find?_eq_some found, by simpa using List.find?_some found⟩
  · rintro ⟨member, rfl⟩
    exact hashToKeyString_of_mem name member

theorem decoded_keyEvent {code : Code} {isDown : Bool} {event : RemoteInputEvent} :
    (Input.keyEvent code isDown).decoded = some event ↔
      ∃ name ∈ keyNames, keyHash name = wireHash code ∧ event = .keyboard name isDown := by
  rw [Input.decoded, Option.map_eq_some_iff]
  constructor
  · rintro ⟨name, found, rfl⟩
    obtain ⟨listed, same⟩ := hashToKeyString_eq_some.mp found
    exact ⟨name, listed, same, rfl⟩
  · rintro ⟨name, listed, same, rfl⟩
    exact ⟨name, hashToKeyString_eq_some.mpr ⟨listed, same⟩, rfl⟩

/-- At every moment the host has handed on the events of the first calls. When all has arrived,
it reads on until it has handed on the events of all of them. -/
theorem decodes_as_encoded {steps : List Action} (ran : Stepping.run step start steps = some s) :
    s.events <+: s.inputs.filterMap Input.decoded ∧
      (s.inFlight = [] → ∃ n t, Stepping.run step s (List.replicate n .read) = some t ∧
        t.step .read = none ∧ t.events = s.inputs.filterMap Input.decoded) ∧
      (∀ code isDown event, (Input.keyEvent code isDown).decoded = some event ↔
        ∃ name ∈ keyNames, keyHash name = wireHash code ∧ event = .keyboard name isDown) ∧
      (∀ name ∈ keyNames, hashToKeyString (wireHash name) = some name) ∧
      (∀ code : Code, Unrounded 0 code.val.toList → wireHash code = keyHash code) ∧
      ∀ code : Code, code.val.length < 2 ^ 22 → Unrounded 0 code.val.toList := by
  have carries : s.Carries :=
    Stepping.run_invariant (fun carries stepped => carries.step stepped) carries_start ran
  refine ⟨?_, fun arrived => ?_, fun _ _ _ => decoded_keyEvent, fun name member => ?_,
    fun code => wireHash_eq, fun code => code.unrounded⟩
  · obtain ⟨done, todo, inputs, events, -⟩ := carries
    rw [inputs, events, List.filterMap_append]
    exact List.prefix_append _ _
  · obtain ⟨n, t, reads, waits⟩ :=
      @Stepping.exists_rest _ _ step (fun s => s.arrived.length) .read read_lowers s
    obtain ⟨inputs, inFlight⟩ := reads_keep reads
    have later : t.Carries :=
      Stepping.run_invariant (fun carries stepped => carries.step stepped) carries reads
    refine ⟨n, t, reads, waits, ?_⟩
    rw [later.events_eq (inFlight.trans arrived) waits, inputs]
  · rw [wireHash_of_mem name member, hashToKeyString_of_mem name member]

end ControlStream

/-! ## Codes with a wrong hash -/

namespace Sample

/-- Its hash is that of `KeyA`. -/
def kfza : Code := ⟨"KfZA", by decide⟩

/-- After five characters, `Z` twice adds `30 * 2 ^ 27` to the hash. -/
def longChars (m : Nat) : List Char :=
  ['K', 'B', 'H', 'u', 'A'] ++ List.replicate (2 * m) 'Z' ++ ['Z']

theorem ascii_longChars (m : Nat) :
    (String.ofList (longChars m)).toList.all fun c => c.toNat < 128 := by
  rw [String.toList_ofList, longChars, List.all_append, List.all_append, List.all_replicate]
  split
  · rfl
  · rfl

def longCode (m : Nat) : Code := ⟨String.ofList (longChars m), ascii_longChars m⟩

/-- The hash after `m` pairs. -/
def hashAfter (m : Nat) : Int := 71303165 + m * 4026531840

theorem shl5_hashAfter (m : Nat) : shl5 (hashAfter m) = -2013266016 := by
  unfold shl5 hashAfter
  rw [Int.bmod_def, Int.bmod_def]
  omega

theorem shl5_amid (m : Nat) : shl5 (-2013266016 - hashAfter m + 90) = 2013265824 := by
  unfold shl5 hashAfter
  rw [Int.bmod_def, Int.bmod_def]
  omega

/-- Below `2 ^ 53` a pair is added without rounding. -/
theorem nextHash_pair {m : Nat} (small : m < 2236962) :
    nextHash (nextHash (hashAfter m) 'Z') 'Z' = hashAfter (m + 1) ∧
      nextKeyHash (nextKeyHash (UInt32.ofInt (hashAfter m)) 'Z') 'Z' =
        UInt32.ofInt (hashAfter (m + 1)) := by
  have z : ('Z'.toNat : Int) = 90 := rfl
  have bounds : 0 ≤ hashAfter m ∧ hashAfter m ≤ 9007194763851405 := by
    unfold hashAfter
    omega
  have first := shl5_hashAfter m
  have second := shl5_amid m
  have amid : shl5 (hashAfter m) - hashAfter m + 'Z'.toNat = -2013266016 - hashAfter m + 90 := by
    rw [first, z]
  have next : shl5 (-2013266016 - hashAfter m + 90) - (-2013266016 - hashAfter m + 90) +
      'Z'.toNat = hashAfter (m + 1) := by
    rw [second, z]
    unfold hashAfter
    omega
  have page : nextHash (hashAfter m) 'Z' = -2013266016 - hashAfter m + 90 := by
    rw [nextHash_eq (by rw [first]; omega) (by rw [first, z]; omega), amid]
  constructor
  · rw [page, nextHash_eq (by rw [second]; omega) (by rw [second, z]; omega), next]
  · rw [← ofInt_next, amid, ← ofInt_next, next]

theorem hash_pairs {m : Nat} (small : m ≤ 2236962) :
    (List.replicate (2 * m) 'Z').foldl nextHash (hashAfter 0) = hashAfter m ∧
      (List.replicate (2 * m) 'Z').foldl nextKeyHash (UInt32.ofInt (hashAfter 0)) =
        UInt32.ofInt (hashAfter m) := by
  induction m with
  | zero => exact ⟨rfl, rfl⟩
  | succ m ih =>
      have before : m < 2236962 := by omega
      obtain ⟨page, host⟩ := ih before.le
      have more : List.replicate (2 * (m + 1)) 'Z' = List.replicate (2 * m) 'Z' ++ ['Z', 'Z'] := by
        rw [Nat.mul_succ, List.replicate_add]
        rfl
      rw [more, List.foldl_append, List.foldl_append, page, host, List.foldl_cons, List.foldl_cons,
        List.foldl_nil, List.foldl_cons, List.foldl_cons, List.foldl_nil]
      exact nextHash_pair before

/-- The sum that follows has 54 bits, of which the last one is lost. -/
theorem wireHash_longCode {m : Nat} (full : m = 2236962) :
    wireHash (longCode m).val ≠ keyHash (longCode m).val := by
  obtain ⟨page, host⟩ := hash_pairs (m := m) (by omega)
  have begun : ['K', 'B', 'H', 'u', 'A'].foldl nextHash 0 = hashAfter 0 := by decide +kernel
  have begunHost : ['K', 'B', 'H', 'u', 'A'].foldl nextKeyHash 0 = UInt32.ofInt (hashAfter 0) := by
    decide +kernel
  have wire : wireHash (longCode m).val = UInt32.ofInt (nextHash (hashAfter m) 'Z') := by
    rw [wireHash, codeHash, longCode, String.toList_ofList, longChars, List.foldl_append,
      List.foldl_append, begun, page, List.foldl_cons, List.foldl_nil]
  have read : keyHash (longCode m).val = nextKeyHash (UInt32.ofInt (hashAfter m)) 'Z' := by
    rw [keyHash_eq, longCode, String.toList_ofList, longChars, List.foldl_append,
      List.foldl_append, begunHost, host, List.foldl_cons, List.foldl_nil]
  rw [wire, read, full]
  decide +kernel

def mistaken : ControlStream where
  inputs := [.keyEvent kfza true]
  inFlight := []
  arrived := []
  events := [.keyboard "KeyA" true]

/-- A key that the table lacks is taken for another one, and the two hashes of a long code
differ. -/
theorem kfza_not_meant :
    Stepping.run ControlStream.step ControlStream.start
        [.input (.keyEvent kfza true), .arrive 6, .read] = some mistaken ∧
      mistaken.step .read = none ∧ mistaken.events ≠ mistaken.inputs.filterMap Input.meant ∧
      wireHash (longCode 2236962).val ≠ keyHash (longCode 2236962).val :=
  ⟨by decide +kernel, by decide +kernel, by decide +kernel, wireHash_longCode rfl⟩

def keyW : Code := ⟨"KeyW", by decide⟩

def power : Code := ⟨"Power", by decide⟩

/-- A move, a key in two pieces, and a key that the table lacks. -/
def pieces : List Action :=
  [.input (.pointerDelta 3 (-1)), .input (.keyEvent keyW true), .arrive 11, .read,
    .input (.keyEvent power true), .arrive 10]

def afterPieces : ControlStream where
  inputs := [.pointerDelta 3 (-1), .keyEvent keyW true, .keyEvent power true]
  inFlight := []
  arrived := sendKeyEvent keyW true ++ sendKeyEvent power true
  events := [.relativeMouseMove 3 (-1)]

theorem decodes_as_encoded_pieces :
    Stepping.run ControlStream.step ControlStream.start pieces = some afterPieces ∧
      ∃ n t, Stepping.run ControlStream.step afterPieces (List.replicate n .read) = some t ∧
        t.step .read = none ∧ t.events = [.relativeMouseMove 3 (-1), .keyboard "KeyW" true] := by
  have ran : Stepping.run ControlStream.step ControlStream.start pieces = some afterPieces := by
    decide +kernel
  obtain ⟨n, t, reads, waits, events⟩ := (ControlStream.decodes_as_encoded ran).2.1 rfl
  refine ⟨ran, n, t, reads, waits, events.trans ?_⟩
  decide +kernel

end Sample

end Browser

end Qubox.Host
