import Bindery.Expr.Basic
import Bindery.Source.Json

/-!
# Expressions as JSON

Records are written with their fields in the order of their declaration; alternatives are tagged
with their name. Reading refuses values that are nested more than 127 levels deep.
-/

namespace Bindery

open Json (Value)

namespace Literal

def toJson : Literal → Value
  | null => .text "Null"
  | bool value => .tagged "Bool" (.bool value)
  | string value => .tagged "String" (.text value)
  | int value => .tagged "Int" (.int value.toInt)
  | number value => .tagged "Number" (.float value)

def ofJson? (value : Value) : Option Literal :=
  match value.asTagged? with
  | some ("Null", none) | some ("Null", some .null) => some null
  | some ("Bool", some content) => content.asBool?.map bool
  | some ("String", some content) => content.asText?.map string
  | some ("Int", some content) => content.asInt32?.map int
  | some ("Number", some content) => content.asFloat?.map number
  | _ => none

end Literal

namespace BinaryOp

/-- The name of an operator. -/
def tag : BinaryOp → String
  | plus => "Plus"
  | minus => "Minus"
  | times => "Multiply"
  | divide => "Divide"

def toJson (op : BinaryOp) : Value := .text op.tag

def ofJson? (value : Value) : Option BinaryOp := do
  let tag ← value.asPlainTag?
  [plus, minus, times, divide].find? (·.tag = tag)

end BinaryOp

namespace Expr

mutual

/-- The JSON value of an expression. -/
def toJson : Expr → Value
  | self span => .tagged "This" (.record [("span", span.toJson)])
  | identifier name span =>
    .tagged "Identifier" (.record [("name", .text name), ("span", span.toJson)])
  | member object name span =>
    .tagged "Member" (.record
      [("object", object.toJson), ("name", .text name), ("span", span.toJson)])
  | index object i span =>
    .tagged "Index" (.record
      [("object", object.toJson), ("index", i.toJson), ("span", span.toJson)])
  | call callee args span =>
    .tagged "Call" (.record
      [("callee", callee.toJson), ("args", .array (toJsonItems args)), ("span", span.toJson)])
  | literal value span =>
    .tagged "Literal" (.record [("value", value.toJson), ("span", span.toJson)])
  | binary op left right span =>
    .tagged "Binary" (.record
      [("op", op.toJson), ("left", left.toJson), ("right", right.toJson), ("span", span.toJson)])
  | concat parts span =>
    .tagged "Concat" (.record [("parts", .array (toJsonItems parts)), ("span", span.toJson)])

/-- The JSON values of several expressions. -/
def toJsonItems : List Expr → List Value
  | [] => []
  | e :: es => e.toJson :: toJsonItems es

end

/-- The fields of each form of expression, by its tag. -/
def fieldNames? : String → Option (List String)
  | "This" => some ["span"]
  | "Identifier" => some ["name", "span"]
  | "Member" => some ["object", "name", "span"]
  | "Index" => some ["object", "index", "span"]
  | "Call" => some ["callee", "args", "span"]
  | "Literal" => some ["value", "span"]
  | "Binary" => some ["op", "left", "right", "span"]
  | "Concat" => some ["parts", "span"]
  | _ => none

/-- A span at a place with so many levels of nesting left. -/
def spanOfJson? (room : Nat) (value : Value) : Option Span :=
  if Span.jsonDepth ≤ room then Span.ofJson? value else none

/-- Reads an expression from a value of at most `room` levels of nesting. An expression takes two
levels, its tag and its fields, and a list of expressions takes one more. A literal and an operator
take at most one level, for which there is always room. -/
def ofJsonWithin? : (room : Nat) → Value → Option Expr
  | room + 3, value => do
    let (tag, content) ← value.asTagged?
    let fields ← (← content).asRecord? (← fieldNames? tag)
    let expr := ofJsonWithin? (room + 1)
    let exprs (value : Value) : Option (List Expr) := do
      (← value.asItems?).mapM (ofJsonWithin? room)
    match tag, fields with
    | "This", [span] => return self (← spanOfJson? (room + 1) span)
    | "Identifier", [name, span] =>
      return identifier (← name.asText?) (← spanOfJson? (room + 1) span)
    | "Member", [object, name, span] =>
      return member (← expr object) (← name.asText?) (← spanOfJson? (room + 1) span)
    | "Index", [object, i, span] =>
      return index (← expr object) (← expr i) (← spanOfJson? (room + 1) span)
    | "Call", [callee, args, span] =>
      return call (← expr callee) (← exprs args) (← spanOfJson? (room + 1) span)
    | "Literal", [value, span] =>
      return literal (← Literal.ofJson? value) (← spanOfJson? (room + 1) span)
    | "Binary", [op, left, right, span] =>
      return binary (← BinaryOp.ofJson? op) (← expr left) (← expr right)
        (← spanOfJson? (room + 1) span)
    | "Concat", [parts, span] =>
      return concat (← exprs parts) (← spanOfJson? (room + 1) span)
    | _, _ => none
  | _, _ => none

/-- The greatest number of levels of nesting that is read. -/
def jsonRoom : Nat := 127

/-- Reads an expression. -/
def ofJson? (value : Value) : Option Expr := ofJsonWithin? jsonRoom value

end Expr

end Bindery
