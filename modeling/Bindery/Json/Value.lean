import Bindery.Json.Number
import Bindery.Text.Quoted

/-!
# JSON values

A JSON document as a value: literals are kept as written, fields in the order in which they stand.
A string literal may be well formed and still denote no text, when its escapes leave half of a
surrogate pair alone; such a string holds `none`.
-/

namespace Bindery.Json

/-- A JSON value. -/
inductive Value where
  | null
  | bool (value : Bool)
  | number (literal : String)
  | string (text : Option String)
  | array (items : List Value)
  | object (fields : List (Option String × Value))
deriving Inhabited

/-- How a character is written inside a JSON string: quotation marks, backslashes and control
characters are escaped. -/
def writtenChar (c : Char) : List Char :=
  match c with
  | '"' => ['\\', '"']
  | '\\' => ['\\', '\\']
  | '\n' => ['\\', 'n']
  | '\r' => ['\\', 'r']
  | '\t' => ['\\', 't']
  | _ =>
    if c.toNat = 8 then ['\\', 'b']
    else if c.toNat = 12 then ['\\', 'f']
    else if c.toNat < 16 then ['\\', 'u', '0', '0', '0', Text.hexDigit c.toNat]
    else if c.toNat < 32 then ['\\', 'u', '0', '0', '1', Text.hexDigit (c.toNat - 16)]
    else [c]

/-- A text as a JSON string. -/
def quote (text : String) : String := Text.quoteWith writtenChar text

namespace Value

/-- A string value. -/
def text (s : String) : Value := .string (some s)

/-- An integer value. -/
def int (n : Int) : Value := .number (toString n)

/-- A natural number value. -/
def nat (n : Nat) : Value := .number (toString n)

/-- A binary64 value; JSON has no infinities and no NaN, which become null. -/
def float (x : Float) : Value :=
  match Decimal.Binary64.ofBits x.toBits with
  | .finite .. => .number (numberLayout.text x)
  | _ => .null

/-- An object of named fields. -/
def record (fields : List (String × Value)) : Value :=
  .object (fields.map fun (name, value) => (some name, value))

/-- An object with one field, the form of a tagged value. -/
def tagged (tag : String) (content : Value) : Value := record [(tag, content)]

mutual

/-- The compact text of a value. -/
def render : Value → String
  | .null => "null"
  | .bool true => "true"
  | .bool false => "false"
  | .number literal => literal
  | .string text => quote (text.getD "")
  | .array items => "[" ++ String.intercalate "," (renderItems items) ++ "]"
  | .object fields => "\x7b" ++ String.intercalate "," (renderFields fields) ++ "\x7d"

/-- The compact texts of several values. -/
def renderItems : List Value → List String
  | [] => []
  | item :: items => render item :: renderItems items

/-- The compact texts of several fields. -/
def renderFields : List (Option String × Value) → List String
  | [] => []
  | (name, value) :: fields => (quote (name.getD "") ++ ":" ++ render value) :: renderFields fields

end

end Value

end Bindery.Json
