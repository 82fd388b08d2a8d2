import Mathlib.Data.List.Forall2
import Qubox.Library.Bytes

/-!
# JSON documents and derived readers

A document as it is written, with the members of an object in their order, repeated ones
too. A derived reader takes the fields of a structure from an object by their names, or from
an array by their positions, and looks at no other member. From a text it rejects a field
that occurs twice; a value has kept the last occurrence only.
-/

inductive Json where
  | null
  | bool (value : Bool)
  | natural (value : Nat)
  /-- A number that is negative or not an integer. -/
  | number (literal : String)
  | string (value : String)
  | array (items : List Json)
  | object (members : List (String × Json))
  /-- The form of a literal without a value: a number out of range, half of a surrogate pair. -/
  | unreadable (literal : String)

namespace Json

mutual

/-- The document is a value. A reader that skips a member does not need this of it. -/
def readable : Json → Bool
  | .unreadable _ => false
  | .array items => readableItems items
  | .object members => readableMembers members
  | _ => true

def readableItems : List Json → Bool
  | [] => true
  | item :: items => item.readable && readableItems items

def readableMembers : List (String × Json) → Bool
  | [] => true
  | (_, value) :: members => value.readable && readableMembers members

end

/-! ## Fields -/

/-- The last member of a name. -/
def last? (members : List (String × Json)) (name : String) : Option Json :=
  (members.reverse.find? (·.1 = name)).map (·.2)

/-- The member of a name, if there is just one. -/
def only? (members : List (String × Json)) (name : String) : Option Json :=
  match members.filter (·.1 = name) with
  | [member] => some member.2
  | _ => none

/-- `Value::get` -/
def get (json : Json) (name : String) : Option Json :=
  match json with
  | .object members => last? members name
  | _ => none

/-- The fields of a structure, in the order of its declaration. -/
def fieldsBy (pick : List (String × Json) → String → Option Json) (names : List String) :
    Json → Option (List Json)
  | .object members => names.mapM (pick members)
  | .array items => if items.length = names.length then some items else none
  | _ => none

/-- The fields that a reader takes from a value. -/
def fields : List String → Json → Option (List Json) := fieldsBy last?

/-- The fields that a reader takes from a text. -/
def fieldsOnce : List String → Json → Option (List Json) := fieldsBy only?

/-! ## Leaves -/

def asString : Json → Option String
  | .string value => some value
  | _ => none

/-- An unsigned integer below a bound. -/
def asNatural (bound : Nat) : Json → Option Nat
  | .natural value => if value < bound then some value else none
  | _ => none

/-- An array of bytes. -/
def asBytes (count : Nat) : Json → Option Bytes
  | .array items =>
      if items.length = count then items.mapM fun item => (item.asNatural 256).map UInt8.ofNat
      else none
  | _ => none

/-! ## What a reader has seen -/

theorem fields_object {members : List (String × Json)} {names : List String} {found : List Json}
    (read : (Json.object members).fields names = some found) :
    List.Forall₂ (fun name value => (Json.object members).get name = some value) names found := by
  change names.mapM (last? members) = some found at read
  induction names generalizing found with
  | nil =>
      cases read
      exact .nil
  | cons first rest ih =>
      rw [List.mapM_cons] at read
      obtain ⟨value, here, read⟩ := Option.bind_eq_some_iff.mp read
      obtain ⟨values, there, same⟩ := Option.bind_eq_some_iff.mp read
      cases same
      exact .cons here (ih there)

end Json
