import Bindery.Code.Method
import Bindery.Json.Decoding

/-!
# Code as JSON

Instructions are written as tagged alternatives. One operand follows its tag directly, two operands
follow as an array.
-/

namespace Bindery

open Json (Value)

namespace Name

def toJson : Name → Value
  | inPublic name => .tagged "Public" (.text name)
  | inPackage package name =>
    .tagged "Qualified" (.record [("package", .text package), ("local", .text name)])
  | runtime => .text "RuntimeIndex"

def ofJson? (value : Value) : Option Name :=
  match value.asTagged? with
  | some ("Public", some content) => content.asText?.map inPublic
  | some ("Qualified", some content) => do
    match ← content.asRecord? ["package", "local"] with
    | [package, name] => return inPackage (← package.asText?) (← name.asText?)
    | _ => none
  | some ("RuntimeIndex", none) | some ("RuntimeIndex", some .null) => some runtime
  | _ => none

end Name

namespace Instruction

/-- The tag of an instruction. -/
def tag : Instruction → String
  | pushNull => "PushNull"
  | pushTrue => "PushTrue"
  | pushFalse => "PushFalse"
  | pushString _ => "PushString"
  | pushInt _ => "PushInt"
  | pushDouble _ => "PushDouble"
  | dup => "Dup"
  | swap => "Swap"
  | getLocal _ => "GetLocal"
  | setLocal _ => "SetLocal"
  | pushScope => "PushScope"
  | getProperty _ => "GetProperty"
  | setProperty _ => "SetProperty"
  | getLex _ => "GetLex"
  | findPropStrict _ => "FindPropStrict"
  | newArray _ => "NewArray"
  | newObject _ => "NewObject"
  | newFunction _ => "NewFunction"
  | callProperty .. => "CallProperty"
  | callPropVoid .. => "CallPropVoid"
  | constructProp .. => "ConstructProp"
  | convertString => "ConvertString"
  | add => "Add"
  | subtract => "Subtract"
  | multiply => "Multiply"
  | divide => "Divide"
  | returnValue => "ReturnValue"
  | returnVoid => "ReturnVoid"

/-- What follows the tag of an instruction that has operands. -/
def jsonOperands? : Instruction → Option Value
  | pushString value => some (.text value)
  | pushInt value => some (.int value.toInt)
  | pushDouble value => some (.float value)
  | getLocal n | setLocal n | newArray n | newObject n | newFunction n => some (.nat n)
  | getProperty name | setProperty name | getLex name | findPropStrict name => some name.toJson
  | callProperty name n | callPropVoid name n | constructProp name n =>
    some (.array [name.toJson, .nat n])
  | _ => none

def toJson (instruction : Instruction) : Value :=
  match instruction.jsonOperands? with
  | some operands => .tagged instruction.tag operands
  | none => .text instruction.tag

/-- The instructions without operands. -/
def plain : List Instruction :=
  [pushNull, pushTrue, pushFalse, dup, swap, pushScope, convertString, add, subtract, multiply,
    divide, returnValue, returnVoid]

/-- A name and a count of arguments. -/
def callOfJson? (value : Value) : Option (Name × Nat) := do
  match ← value.asItems? with
  | [name, count] => return (← Name.ofJson? name, ← count.asNat? 32)
  | _ => none

def ofJson? (value : Value) : Option Instruction := do
  match ← value.asTagged? with
  | ("PushString", some content) => content.asText?.map pushString
  | ("PushInt", some content) => content.asInt32?.map pushInt
  | ("PushDouble", some content) => content.asFloat?.map pushDouble
  | ("GetLocal", some content) => (content.asNat? 32).map getLocal
  | ("SetLocal", some content) => (content.asNat? 32).map setLocal
  | ("GetProperty", some content) => (Name.ofJson? content).map getProperty
  | ("SetProperty", some content) => (Name.ofJson? content).map setProperty
  | ("GetLex", some content) => (Name.ofJson? content).map getLex
  | ("FindPropStrict", some content) => (Name.ofJson? content).map findPropStrict
  | ("NewArray", some content) => (content.asNat? 32).map newArray
  | ("NewObject", some content) => (content.asNat? 32).map newObject
  | ("NewFunction", some content) => (content.asNat? 64).map newFunction
  | ("CallProperty", some content) => (callOfJson? content).map fun (name, n) => callProperty name n
  | ("CallPropVoid", some content) => (callOfJson? content).map fun (name, n) => callPropVoid name n
  | ("ConstructProp", some content) =>
    (callOfJson? content).map fun (name, n) => constructProp name n
  | _ =>
    let tag ← value.asPlainTag?
    plain.find? (·.tag = tag)

end Instruction

/-- Code is written as a record with one field. -/
def codeToJson (code : List Instruction) : Value :=
  .record [("instructions", .array (code.map Instruction.toJson))]

/-- Reads the record of some code. -/
def codeOfJson? (value : Value) : Option (List Instruction) := do
  match ← value.asRecord? ["instructions"] with
  | [instructions] => (← instructions.asItems?).mapM Instruction.ofJson?
  | _ => none

namespace Method

def toJson (method : Method) : Value :=
  .record [("debug_name", .text method.name), ("param_count", .nat method.paramCount),
    ("instructions", codeToJson method.code)]

def ofJson? (value : Value) : Option Method := do
  match ← value.asRecord? ["debug_name", "param_count", "instructions"] with
  | [name, paramCount, code] =>
    return ⟨← name.asText?, ← paramCount.asNat? 32, ← codeOfJson? code⟩
  | _ => none

end Method

end Bindery
