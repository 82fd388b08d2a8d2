import Qubox.Library.JsonText
import Qubox.Signaling.Operations

/-!
# Canonical JSON and signed bundles

`canonicalize_value` prints a value without spaces, the entries of every object
sorted by their keys. What it prints is the text of the sorted value, so it is the
same for values that differ in the order of entries only, and values with the same
text differ in nothing else.

The parser of `serde_json` refuses what is nested deeper than its recursion limit.
Within the limit it gives the value back, and a payload put in a bundle by
`SignedBundle::new` comes out of `decode`.

The encodings, the signatures and the reading and printing of strings and numbers
are those of other crates and stay parameters.
-/

namespace Qubox

open Signaling (SignedBundleError)

/-! ## Canonical JSON -/

section Canonicalize

variable {N : Type} (T : JsonValue.Tokens N)

mutual

def canonicalizeValue : JsonValue N → List Char
  | .null => "null".toList
  | .bool b => (toString b).toList
  | .number n => T.number n
  | .string s => T.quote s
  | .array items => '[' :: ([','].intercalate (canonicalizeAll items) ++ [']'])
  | .object map =>
      -- the values are printed before the sorting, which only looks at the keys
      let parts := (JsonValue.sortKeys (canonicalizeEntries map)).map fun (key, text) =>
        T.quote key ++ ':' :: text
      '{' :: ([','].intercalate parts ++ ['}'])

def canonicalizeAll : List (JsonValue N) → List (List Char)
  | [] => []
  | v :: items => canonicalizeValue v :: canonicalizeAll items

def canonicalizeEntries : List (String × JsonValue N) → List (String × List Char)
  | [] => []
  | (key, v) :: entries => (key, canonicalizeValue v) :: canonicalizeEntries entries

end

theorem canonicalizeAll_eq (items : List (JsonValue N)) :
    canonicalizeAll T items = items.map (canonicalizeValue T) := by
  induction items with
  | nil => rfl
  | cons v items ih => rw [canonicalizeAll, ih, List.map_cons]

theorem canonicalizeEntries_eq (entries : List (String × JsonValue N)) :
    canonicalizeEntries T entries = entries.map (Prod.map id (canonicalizeValue T)) := by
  induction entries with
  | nil => rfl
  | cons e entries ih => rw [canonicalizeEntries, ih, List.map_cons]; rfl

/-- The object as the source prints it: the entries are sorted, then printed. -/
theorem canonicalizeValue_object (map : List (String × JsonValue N)) :
    canonicalizeValue T (.object map) =
      '{' :: ([','].intercalate ((JsonValue.sortKeys map).map fun e =>
        T.quote e.1 ++ ':' :: canonicalizeValue T e.2) ++ ['}']) := by
  rw [canonicalizeValue, canonicalizeEntries_eq, JsonValue.sortKeys_map, List.map_map]
  rfl

/-- The canonical text is the text of the sorted value. -/
theorem canonicalizeValue_eq (v : JsonValue N) :
    canonicalizeValue T v = JsonValue.print T v.sorted := by
  induction v using JsonValue.nested_induction with
  | null | bool b | number n | string s => rfl
  | array items ih =>
      rw [canonicalizeValue, canonicalizeAll_eq, JsonValue.sorted_array, JsonValue.print,
        JsonValue.printAll_eq, List.map_map, List.map_congr_left ih]
      rfl
  | object map ih =>
      have parts : (JsonValue.sortKeys map).map
          (fun e => T.quote e.1 ++ ':' :: canonicalizeValue T e.2) =
          ((JsonValue.sortKeys map).map (Prod.map id JsonValue.sorted)).map
            (JsonValue.printEntry T) := by
        rw [List.map_map]
        refine List.map_congr_left fun e member => ?_
        rw [ih e (JsonValue.mem_sortKeys.mp member)]
        rfl
      rw [canonicalizeValue_object, parts, JsonValue.sorted_object, JsonValue.sortKeys_map,
        JsonValue.print, JsonValue.printEntries_eq]

/-- The order of entries does not show. -/
theorem canonicalizeValue_congr {v w : JsonValue N} (distinct : v.Distinct)
    (permuted : JsonValue.Permuted v w) : canonicalizeValue T v = canonicalizeValue T w := by
  rw [canonicalizeValue_eq, canonicalizeValue_eq, (permuted.sorted_eq distinct).2]

variable {T}

/-- Within the limit on its depth a value is read back from its canonical text. -/
theorem parse_canonicalizeValue (lawful : T.Lawful) {v : JsonValue N} (distinct : v.Distinct)
    {limit : Nat} (shallow : v.depth ≤ limit) :
    JsonValue.parse T limit (canonicalizeValue T v) = some v.sorted := by
  rw [canonicalizeValue_eq]
  exact JsonValue.parse_print lawful (JsonValue.distinct_sorted distinct)
    (JsonValue.depth_sorted_le.mpr shallow)

/-- Beyond the limit its canonical text is refused. -/
theorem parse_canonicalizeValue_deep (lawful : T.Lawful) {v : JsonValue N}
    (distinct : v.Distinct) {limit : Nat} (deep : limit < v.depth) :
    JsonValue.parse T limit (canonicalizeValue T v) = none := by
  rw [canonicalizeValue_eq]
  apply JsonValue.parse_deep lawful (JsonValue.distinct_sorted distinct)
  exact Nat.not_le.mp (mt JsonValue.depth_sorted_le.mp (Nat.not_le.mpr deep))

/-- Nothing but the order of entries is lost, at any depth. -/
theorem permuted_of_canonicalizeValue_eq (lawful : T.Lawful) {v w : JsonValue N}
    (distinctV : v.Distinct) (distinctW : w.Distinct)
    (same : canonicalizeValue T v = canonicalizeValue T w) : JsonValue.Permuted v w := by
  rw [canonicalizeValue_eq, canonicalizeValue_eq] at same
  have sorted := JsonValue.print_injective lawful (JsonValue.distinct_sorted distinctV)
    (JsonValue.distinct_sorted distinctW) same
  exact JsonValue.permuted_of_sorted_eq sorted

end Canonicalize

/-! ## Signed bundles -/

/-- What a payload type derives: its value, and how it is read from one. -/
structure Serde (N α : Type) where
  toValue : α → Option (JsonValue N)
  fromValue : JsonValue N → Option α

/-- The value is a map at every level, and determines the payload in whatever order
its entries come. -/
structure Serde.Lawful {N α : Type} (serde : Serde N α) : Prop where
  distinct : ∀ a v, serde.toValue a = some v → v.Distinct
  inverse : ∀ a v w, serde.toValue a = some v → JsonValue.Permuted v w → serde.fromValue w = some a

/-- `serde_json` counts down from here at every opening bracket, and refuses the one
that takes it to zero. -/
def recursionLimit : Nat := 128

/-- The nesting that its parser allows. -/
def maxDepth : Nat := recursionLimit - 1

/-- The functions of other crates, for signing keys of type `K`. -/
structure Crates (N K : Type) where
  tokens : JsonValue.Tokens N
  asU64 : N → Option Nat
  encode64 : ByteArray → String
  decode64 : String → Option ByteArray
  verifyingKey : K → PublicKey
  sign : K → ByteArray → ByteArray
  verify : PublicKey → ByteArray → ByteArray → Bool
  /-- The text of its error for a payload. -/
  parseError : ByteArray → String

structure Crates.Lawful {N K : Type} (crates : Crates N K) : Prop where
  tokens : crates.tokens.Lawful
  decode64_encode64 : ∀ bytes, crates.decode64 (crates.encode64 bytes) = some bytes
  size_sign : ∀ key message, (crates.sign key message).size = 64
  verify_sign : ∀ key message,
    crates.verify (crates.verifyingKey key) message (crates.sign key message) = true

section Bundle

variable {N K α : Type} (crates : Crates N K) (serde : Serde N α)

def canonicalJsonBytes (value : α) : Option ByteArray := do
  let v ← serde.toValue value
  return (String.ofList (canonicalizeValue crates.tokens v)).toByteArray

/-- `serde_json::from_slice`. -/
def fromSlice (bytes : ByteArray) : Option α := do
  let text ← String.fromUTF8? bytes
  let v ← JsonValue.parse crates.tokens maxDepth text.toList
  serde.fromValue v

/-- The `v` of an object, cut down to a byte. -/
def schemaVersion : Option (JsonValue N) → UInt8
  | some (.object map) =>
    match map.lookup "v" with
    | some (.number n) => ((crates.asU64 n).map UInt8.ofNat).getD 0
    | _ => 0
  | _ => 0

namespace SignedBundle

def new (value : α) (kid : String) (signingKey : K) : Option SignedBundle := do
  let payload ← canonicalJsonBytes crates serde value
  let sig := crates.sign signingKey payload
  return {
    kid
    v := schemaVersion crates (serde.toValue value)
    payload := crates.encode64 payload
    sig := crates.encode64 sig }

def verifySignature (bundle : SignedBundle) (verifyPk : PublicKey) :
    Except SignedBundleError Unit :=
  match crates.decode64 bundle.payload, crates.decode64 bundle.sig with
  | some payload, some sig =>
    if sig.size ≠ 64 then .error .badSignatureLength
    else if crates.verify verifyPk payload sig then .ok ()
    else .error .signatureMismatch
  | _, _ => .error .badBase64

def decode (bundle : SignedBundle) (verifyPk : PublicKey) : Except SignedBundleError α := do
  bundle.verifySignature crates verifyPk
  match crates.decode64 bundle.payload with
  | none => .error .badBase64
  | some payload =>
    match fromSlice crates serde payload with
    | none => .error (.badPayload (crates.parseError payload))
    | some value => .ok value

end SignedBundle

variable {crates serde}

theorem fromUTF8?_toByteArray (s : String) : String.fromUTF8? s.toByteArray = some s := by
  rw [String.fromUTF8?, dif_pos s.isValidUTF8]
  rfl

/-- The canonical bytes of a payload are read back as the payload. -/
theorem fromSlice_canonicalJsonBytes (lawful : crates.Lawful) (derived : serde.Lawful) {value : α}
    {v : JsonValue N} (serialized : serde.toValue value = some v)
    (shallow : v.depth ≤ maxDepth) :
    ∃ bytes, canonicalJsonBytes crates serde value = some bytes ∧
      fromSlice crates serde bytes = some value := by
  refine ⟨(String.ofList (canonicalizeValue crates.tokens v)).toByteArray, ?_, ?_⟩
  · rw [canonicalJsonBytes, serialized]
    rfl
  · have distinct := derived.distinct value v serialized
    have parsed := parse_canonicalizeValue lawful.tokens distinct shallow
    have back := derived.inverse value v v.sorted serialized (JsonValue.permuted_sorted v)
    simp only [fromSlice, fromUTF8?_toByteArray, String.toList_ofList, parsed, back,
      Option.bind_eq_bind, Option.bind_some]

theorem decode_new (lawful : crates.Lawful) (derived : serde.Lawful) {value : α} {v : JsonValue N}
    (serialized : serde.toValue value = some v) (shallow : v.depth ≤ maxDepth)
    (kid : String) (signingKey : K) :
    ∃ bundle, SignedBundle.new crates serde value kid signingKey = some bundle ∧
      bundle.decode crates serde (crates.verifyingKey signingKey) = .ok value := by
  obtain ⟨bytes, printed, read⟩ := fromSlice_canonicalJsonBytes lawful derived serialized shallow
  refine ⟨_, by rw [SignedBundle.new, printed]; rfl, ?_⟩
  have verified : SignedBundle.verifySignature crates
      ⟨kid, schemaVersion crates (serde.toValue value), crates.encode64 bytes,
        crates.encode64 (crates.sign signingKey bytes)⟩ (crates.verifyingKey signingKey) =
      .ok () := by
    simp only [SignedBundle.verifySignature, lawful.decode64_encode64, lawful.size_sign,
      lawful.verify_sign, ne_eq, not_true, if_false, if_true]
  rw [SignedBundle.decode]
  simp only [verified, lawful.decode64_encode64, read]
  rfl

end Bundle

/-- The canonical text stands for the value, and a bundle for its payload, as long
as the parser allows their depth. What is deeper it refuses. -/
structure Canonical {N K : Type} (crates : Crates N K) : Prop where
  stable : ∀ v w : JsonValue N, v.Distinct → JsonValue.Permuted v w →
    canonicalizeValue crates.tokens v = canonicalizeValue crates.tokens w
  injective : ∀ v w : JsonValue N, v.Distinct → w.Distinct →
    canonicalizeValue crates.tokens v = canonicalizeValue crates.tokens w →
      JsonValue.Permuted v w
  parsed : ∀ v : JsonValue N, v.Distinct → v.depth ≤ maxDepth →
    ∃ w, JsonValue.parse crates.tokens maxDepth
      (canonicalizeValue crates.tokens v) = some w ∧ JsonValue.Permuted v w
  refused : ∀ v : JsonValue N, v.Distinct → maxDepth < v.depth →
    JsonValue.parse crates.tokens maxDepth (canonicalizeValue crates.tokens v) = none
  bundled : ∀ (α : Type) (serde : Serde N α), serde.Lawful → ∀ value v,
    serde.toValue value = some v → v.depth ≤ maxDepth → ∀ kid signingKey,
      ∃ bundle, SignedBundle.new crates serde value kid signingKey = some bundle ∧
        bundle.decode crates serde (crates.verifyingKey signingKey) = .ok value

theorem canonical_of_lawful {N K : Type} {crates : Crates N K} (lawful : crates.Lawful) :
    Canonical crates where
  stable _ _ distinct permuted := canonicalizeValue_congr crates.tokens distinct permuted
  injective _ _ := permuted_of_canonicalizeValue_eq lawful.tokens
  parsed v distinct shallow :=
    ⟨v.sorted, parse_canonicalizeValue lawful.tokens distinct shallow,
      JsonValue.permuted_sorted v⟩
  refused _ distinct deep := parse_canonicalizeValue_deep lawful.tokens distinct deep
  bundled _ _ derived _ _ serialized shallow := decode_new lawful derived serialized shallow

/-! ## A payload that is a value

`serde_json::Value` keeps the keys of its maps sorted. -/

/-- A value of `serde_json`. -/
structure Value (N : Type) where
  value : JsonValue N
  distinct : value.Distinct
  sorted : value.sorted = value

theorem Value.ext {N : Type} {a b : Value N} (same : a.value = b.value) : a = b := by
  cases a
  cases b
  cases same
  rfl

open scoped Classical in
/-- A value is its own payload; its maps are sorted when it is read. -/
noncomputable def valueSerde (N : Type) : Serde N (Value N) where
  toValue a := some a.value
  fromValue w :=
    if distinct : w.Distinct then
      some ⟨w.sorted, JsonValue.distinct_sorted distinct, JsonValue.sorted_sorted distinct⟩
    else none

theorem valueSerde_lawful (N : Type) : (valueSerde N).Lawful := by
  constructor
  · intro a v same
    cases same
    exact a.distinct
  · intro a v w same permuted
    cases same
    obtain ⟨distinct, sorted⟩ := permuted.sorted_eq a.distinct
    rw [valueSerde]
    refine (dif_pos distinct).trans (congrArg some (Value.ext ?_))
    exact sorted.symm.trans a.sorted

namespace Sample

/-! ### Short texts

Numbers of one digit, and strings without control characters. -/

def escape : List Char → List Char
  | [] => []
  | c :: text => if c = '"' ∨ c = '\\' then '\\' :: c :: escape text else c :: escape text

def unescape : List Char → Option (List Char × List Char)
  | [] => none
  | '"' :: rest => some ([], rest)
  | '\\' :: c :: rest => (unescape rest).map (Prod.map (c :: ·) id)
  | c :: rest => (unescape rest).map (Prod.map (c :: ·) id)

theorem unescape_escape (text rest : List Char) :
    unescape (escape text ++ '"' :: rest) = some (text, rest) := by
  induction text with
  | nil => rfl
  | cons c text ih =>
      rw [escape]
      split
      case isTrue special =>
        rw [List.cons_append, List.cons_append, unescape, ih]
        rfl
      case isFalse plain =>
        obtain ⟨quote, slash⟩ := not_or.mp plain
        rw [List.cons_append, unescape, ih]
        · rfl
        · exact quote
        · exact fun _ _ same => absurd same slash

def tokens : JsonValue.Tokens (Fin 10) where
  quote s := '"' :: (escape s.toList ++ ['"'])
  number n := [Char.ofNat (48 + n)]
  readString
    | '"' :: rest => (unescape rest).map (Prod.map String.ofList id)
    | _ => none
  readNumber
    | c :: rest => if c.isDigit then some (Fin.ofNat 10 (c.toNat - 48), rest) else none
    | [] => none

theorem tokens_lawful : tokens.Lawful where
  quote_head _ := rfl
  number_head n := ⟨_, rfl, .inr (by revert n; decide)⟩
  readString_quote s rest := by
    show (unescape ((escape s.toList ++ ['"']) ++ rest)).map _ = _
    rw [List.append_assoc, List.singleton_append, unescape_escape, Option.map_some,
      Prod.map_apply, String.ofList_toList]
    rfl
  readNumber_number n rest _ := by
    have digit : (Char.ofNat (48 + n)).isDigit = true := by
      revert n
      decide
    have value : Fin.ofNat 10 ((Char.ofNat (48 + n)).toNat - 48) = n := by
      revert n
      decide
    show (if (Char.ofNat (48 + n)).isDigit then some (Fin.ofNat 10 _, rest) else none) = _
    rw [if_pos digit, value]

end Sample

namespace Sample

/-! ### One signed payload -/

/-- The canonical text of an object with an array in it. -/
def payloadBytes : ByteArray :=
  ⟨#[123, 34, 97, 34, 58, 91, 50, 93, 44, 34, 98, 34, 58, 49, 125]⟩

/-- Its Ed25519 signature under `publicKey`. -/
def signature : ByteArray :=
  ⟨#[2, 170, 211, 19, 56, 185, 155, 218, 126, 41, 82, 158, 50, 150, 129, 171,
    9, 113, 152, 182, 71, 132, 214, 166, 225, 54, 13, 133, 129, 152, 102, 90,
    27, 183, 142, 67, 105, 162, 35, 125, 234, 189, 210, 191, 149, 46, 11, 105,
    171, 233, 129, 38, 146, 57, 51, 224, 2, 26, 3, 31, 222, 97, 32, 7]⟩

def publicKey : PublicKey := 0xd75a980182b10ab7d54bfed3c964073a0ee172f3daa62325af021a68f707511a

def payload64 : String := "eyJhIjpbMl0sImIiOjF9"

def signature64 : String :=
  "AqrTEzi5m9p-KVKeMpaBqwlxmLZHhNam4TYNhYGYZlobt45DaaIjfeq90r-VLgtpq-mBJpI5M-ACGgMf3mEgBw"

def sameBytes (a b : ByteArray) : Bool := decide (a.data.toList = b.data.toList)

theorem sameBytes_iff {a b : ByteArray} : sameBytes a b = true ↔ a = b := by
  rw [sameBytes, decide_eq_true_iff, Array.toList_inj, ByteArray.ext_iff]

/-- Base64 of the two texts at hand; others are marked and spelled out. -/
def encode64 (bytes : ByteArray) : String :=
  if sameBytes bytes payloadBytes then payload64
  else if sameBytes bytes signature then signature64
  else String.ofList ('!' :: bytes.data.toList.map fun b => Char.ofNat b.toNat)

def decode64 (text : String) : Option ByteArray :=
  if text = payload64 then some payloadBytes
  else if text = signature64 then some signature
  else some ⟨((text.toList.drop 1).map fun c => UInt8.ofNat c.toNat).toArray⟩

theorem ofNat_toNat_char (b : UInt8) : UInt8.ofNat (Char.ofNat b.toNat).toNat = b := by
  have small : b.toNat.isValidChar := by
    have range := b.toNat_lt
    exact .inl (by omega)
  have same : (Char.ofNat b.toNat).toNat = b.toNat := by
    rw [Char.ofNat, dif_pos small]
    rfl
  rw [same, UInt8.ofNat_toNat]

theorem decode64_encode64 (bytes : ByteArray) : decode64 (encode64 bytes) = some bytes := by
  rw [encode64]
  split
  case isTrue same =>
    rw [sameBytes_iff.mp same]
    rfl
  case isFalse =>
    split
    case isTrue same =>
      rw [sameBytes_iff.mp same, decode64, if_neg (by decide), if_pos rfl]
    case isFalse =>
      have marked : ∀ text : String, text.toList.head? ≠ some '!' →
          String.ofList ('!' :: bytes.data.toList.map fun b => Char.ofNat b.toNat) ≠ text := by
        rintro _ other rfl
        rw [String.toList_ofList] at other
        exact other rfl
      rw [decode64, if_neg (marked payload64 (by decide)), if_neg (marked signature64 (by decide)),
        String.toList_ofList, List.drop_one, List.tail_cons, List.map_map]
      have bytewise : bytes.data.toList.map
          ((fun c : Char => UInt8.ofNat c.toNat) ∘ fun b => Char.ofNat b.toNat) =
          bytes.data.toList := by
        refine (List.map_congr_left fun b _ => ?_).trans (List.map_id _)
        exact ofNat_toNat_char b
      rw [bytewise]

/-- Signing with the one key of this installation. -/
def sign (message : ByteArray) : ByteArray :=
  if sameBytes message payloadBytes then signature else ⟨(List.replicate 64 0).toArray⟩

def crates : Crates (Fin 10) Unit where
  tokens
  asU64 n := some n
  encode64
  decode64
  verifyingKey _ := publicKey
  sign _ := sign
  verify key message sig := key = publicKey && sameBytes sig (sign message)
  parseError _ := "recursion limit exceeded"

theorem crates_lawful : crates.Lawful where
  tokens := tokens_lawful
  decode64_encode64 := decode64_encode64
  size_sign _ message := by
    show (sign message).size = 64
    rw [sign]
    split <;> rfl
  verify_sign _ _ := by
    show (decide (publicKey = publicKey) && sameBytes (sign _) (sign _)) = true
    rw [decide_eq_true rfl, sameBytes_iff.mpr rfl]
    rfl

/-- An object with its keys in the wrong order. -/
def unsorted : JsonValue (Fin 10) := .object [("b", .number 1), ("a", .array [.number 2])]

theorem unsorted_distinct : unsorted.Distinct :=
  ⟨by decide, trivial, ⟨trivial, trivial⟩, trivial⟩

def payload : Value (Fin 10) where
  value := unsorted.sorted
  distinct := JsonValue.distinct_sorted unsorted_distinct
  sorted := JsonValue.sorted_sorted unsorted_distinct

/-- Arrays nested `n + 1` deep. -/
def nested : Nat → JsonValue (Fin 10)
  | 0 => .array []
  | n + 1 => .array [nested n]

theorem nested_distinct (n : Nat) : (nested n).Distinct := by
  induction n with
  | zero => trivial
  | succ n ih => exact ⟨ih, trivial⟩

theorem nested_depth (n : Nat) : (nested n).depth = n + 1 := by
  induction n with
  | zero => rfl
  | succ n ih =>
      rw [nested, JsonValue.depth, JsonValue.depthAll, ih, JsonValue.depthAll]
      exact congrArg (· + 1) (Nat.max_eq_left (Nat.zero_le _))

end Sample

/-- The value is read back, and comes out of its bundle; one nested 128 deep is
refused. -/
theorem unsorted_canonical :
    (∃ w, JsonValue.parse Sample.tokens 127 (canonicalizeValue Sample.tokens Sample.unsorted) =
      some w ∧ JsonValue.Permuted Sample.unsorted w) ∧
    JsonValue.parse Sample.tokens 127
      (canonicalizeValue Sample.tokens (Sample.nested 127)) = none ∧
    ∃ bundle, SignedBundle.new Sample.crates (valueSerde (Fin 10)) Sample.payload "k" () =
        some bundle ∧
      bundle.decode Sample.crates (valueSerde (Fin 10)) Sample.publicKey =
        .ok Sample.payload := by
  have canonical : Canonical Sample.crates := canonical_of_lawful Sample.crates_lawful
  have shallow : Sample.unsorted.depth ≤ 127 := by decide
  refine ⟨?_, ?_, ?_⟩
  · exact canonical.parsed Sample.unsorted Sample.unsorted_distinct shallow
  · apply canonical.refused _ (Sample.nested_distinct 127)
    rw [Sample.nested_depth]
    exact Nat.lt_succ_self 127
  · apply canonical.bundled _ _ (valueSerde_lawful (Fin 10)) Sample.payload
    · rfl
    · exact JsonValue.depth_sorted_le.mpr shallow

/-- An array nested 128 deep has a canonical text that cannot be parsed. -/
theorem nested_not_parsed :
    ¬ ∀ v : JsonValue (Fin 10), v.Distinct → ∃ w,
      JsonValue.parse Sample.tokens maxDepth (canonicalizeValue Sample.tokens v) = some w ∧
        JsonValue.Permuted v w := by
  intro parsed
  have distinct := Sample.nested_distinct 127
  obtain ⟨w, back, -⟩ := parsed (Sample.nested 127) distinct
  have deep : maxDepth < (Sample.nested 127).depth := by
    rw [Sample.nested_depth]
    exact Nat.lt_succ_self 127
  rw [parse_canonicalizeValue_deep Sample.tokens_lawful distinct deep] at back
  cases back

end Qubox
