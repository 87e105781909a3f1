import Bindery.Code.Method
import Bindery.Decimal.Layout
import Bindery.Text.Quoted

/-!
# Listings

The text of generated code, one instruction to a line and the lines of a method indented.
-/

namespace Bindery

/-- Numbers in listings always show that they are no integers: they have a point or an exponent,
and are positional from `10 ^ -4` up to, but not including, `10 ^ 16`. -/
def listingNumbers : Decimal.Layout where
  positional leading := -4 ≤ leading && leading < 16
  pointZero := true
  exponentPlus := false
  tie := .upward

/-- How a character of a string constant is written: quotation marks, backslashes, line breaks and
tabs are escaped. -/
def listedChar (c : Char) : List Char :=
  match c with
  | '"' => ['\\', '"']
  | '\\' => ['\\', '\\']
  | '\n' => ['\\', 'n']
  | '\r' => ['\\', 'r']
  | '\t' => ['\\', 't']
  | _ => [c]

/-- A string constant as it is listed. -/
def listedString (value : String) : String := Text.quoteWith listedChar value

namespace Instruction

/-- The name of the operation, without operands. -/
def mnemonic : Instruction → String
  | pushNull => "pushnull"
  | pushTrue => "pushtrue"
  | pushFalse => "pushfalse"
  | pushString _ => "pushstring"
  | pushInt _ => "pushint"
  | pushDouble _ => "pushdouble"
  | dup => "dup"
  | swap => "swap"
  | getLocal _ => "getlocal"
  | setLocal _ => "setlocal"
  | pushScope => "pushscope"
  | getProperty _ => "getproperty"
  | setProperty _ => "setproperty"
  | getLex _ => "getlex"
  | findPropStrict _ => "findpropstrict"
  | newArray _ => "newarray"
  | newObject _ => "newobject"
  | newFunction _ => "newfunction"
  | callProperty .. => "callproperty"
  | callPropVoid .. => "callpropvoid"
  | constructProp .. => "constructprop"
  | convertString => "convert_s"
  | add => "add"
  | subtract => "subtract"
  | multiply => "multiply"
  | divide => "divide"
  | returnValue => "returnvalue"
  | returnVoid => "returnvoid"

/-- The operands as they follow the mnemonic. -/
def operands : Instruction → String
  | pushString value => " " ++ listedString value
  | pushInt value => " " ++ toString value.toInt
  | pushDouble value => " " ++ listingNumbers.text value
  | getLocal slot | setLocal slot => toString slot
  | getProperty name | setProperty name | getLex name | findPropStrict name => " " ++ name.text
  | newArray count | newObject count => " " ++ toString count
  | newFunction method => " #" ++ toString method
  | callProperty name argCount | callPropVoid name argCount | constructProp name argCount =>
    " " ++ name.text ++ " " ++ toString argCount
  | _ => ""

/-- The text of an instruction. -/
def text (instruction : Instruction) : String := instruction.mnemonic ++ instruction.operands

end Instruction

/-- Lines of a listing, each ended by a line break. -/
def joinLines (lines : List String) : String := String.join (lines.map (· ++ "\n"))

/-- The listing of some code. -/
def listCode (code : List Instruction) : String := joinLines (code.map Instruction.text)

/-- The lines of a method's listing. -/
def Method.lines (handle : MethodHandle) (method : Method) : List String :=
  ["method #" ++ toString handle ++ " " ++ method.name ++
    "(" ++ toString method.paramCount ++ " params) \x7b"] ++
    method.code.map (fun instruction => "  " ++ instruction.text) ++
    ["\x7d"]

/-- The listing of a method. -/
def Method.listing (handle : MethodHandle) (method : Method) : String :=
  joinLines (method.lines handle)

/-- The listing of all methods. -/
def MethodTable.listing (table : MethodTable) : String :=
  joinLines (table.methods.toList.zipIdx.flatMap fun (method, handle) => method.lines handle)

end Bindery
