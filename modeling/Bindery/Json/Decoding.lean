import Bindery.Json.Reader

/-!
# Typed views of JSON values

What a JSON value may look like where a record, a tagged alternative, a list or a number is
expected. A record is an object whose fields stand in any order, each exactly once, among others
that are ignored; or an array of the fields in their order. An alternative is its name as a string,
or an object with its name as the one key.
-/

namespace Bindery.Json.Value

/-- The text of a string value. -/
def asText? : Value → Option String
  | .string text => text
  | _ => none

/-- The truth value. -/
def asBool? : Value → Option Bool
  | .bool b => some b
  | _ => none

/-- The integer of a number value, if it lies in the range. -/
def asIntIn? (low high : Int) : Value → Option Int
  | .number literal => do
    let n ← (← Number.ofText? literal).toInt?
    guard (low ≤ n ∧ n ≤ high)
    return n
  | _ => none

/-- The natural number of a number value, if it fits the given count of bits. -/
def asNat? (bits : Nat) (value : Value) : Option Nat :=
  (value.asIntIn? 0 (Nat.pow 2 bits - 1)).map Int.toNat

/-- The 32-bit integer of a number value. -/
def asInt32? (value : Value) : Option Int32 :=
  (value.asIntIn? (-0x80000000) 0x7FFFFFFF).map Int32.ofInt

/-- The binary64 value of a number value. -/
def asFloat? : Value → Option Float
  | .number literal => do (← Number.ofText? literal).toFloat?
  | _ => none

/-- The items of an array. -/
def asItems? : Value → Option (List Value)
  | .array items => some items
  | _ => none

/-- The names of an object's fields; nothing if one of them denotes no text. -/
def fieldNames? (fields : List (Option String × Value)) : Option (List (String × Value)) :=
  fields.mapM fun (name, value) => name.map (·, value)

/-- The value of the field of this name, if there is exactly one such field. -/
def uniqueField? (fields : List (String × Value)) (name : String) : Option Value :=
  match fields.filter (·.1 = name) with
  | [(_, value)] => some value
  | _ => none

/-- The values of the named fields of a record, in the order of the names. -/
def asRecord? (names : List String) : Value → Option (List Value)
  | .array items => if items.length = names.length then some items else none
  | .object fields => do
    let fields ← fieldNames? fields
    names.mapM (uniqueField? fields)
  | _ => none

/-- The values of the named fields of a record of which each may be left out; an array may be
shorter than the list of names. -/
def asPartialRecord? (names : List String) : Value → Option (List (Option Value))
  | .array items =>
    if items.length ≤ names.length then
      some (items.map some ++ List.replicate (names.length - items.length) none)
    else none
  | .object fields => do
    let fields ← fieldNames? fields
    names.mapM fun name =>
      match fields.filter (·.1 = name) with
      | [] => some none
      | [(_, value)] => some (some value)
      | _ => none
  | _ => none

/-- The name of an alternative and what comes with it. -/
def asTagged? : Value → Option (String × Option Value)
  | .string (some tag) => some (tag, none)
  | .object [(some tag, content)] => some (tag, some content)
  | _ => none

/-- The name of an alternative that carries nothing: the bare name, or the name with null. -/
def asPlainTag? (value : Value) : Option String :=
  match value.asTagged? with
  | some (tag, none) | some (tag, some .null) => some tag
  | _ => none

end Bindery.Json.Value
