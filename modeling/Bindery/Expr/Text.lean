import Bindery.Expr.Basic
import Bindery.Decimal.Layout
import Bindery.Text.Quoted

/-!
# The canonical text of expressions

The text under which a binding names its source. An explicit `this.` in front of a name is
dropped, so that `this.title` and `title` name the same source. Operators associate to the left: a
right operand of equal strength keeps its parentheses.
-/

namespace Bindery

/-- Numbers in expressions never use an exponent, and whole ones have no point. -/
def expressionNumbers : Decimal.Layout where
  positional _ := true
  pointZero := false
  exponentPlus := false
  tie := .upward

/-- Inside a string literal an apostrophe is escaped and all else stands for itself. -/
def Literal.writtenChar (c : Char) : List Char := if c = '\'' then ['\\', '\''] else [c]

/-- A literal as it is written in an expression. -/
def Literal.text : Literal → String
  | null => "null"
  | bool true => "true"
  | bool false => "false"
  | string value => "'" ++ Text.escapeWith writtenChar value ++ "'"
  | int value => toString value.toInt
  | number value => expressionNumbers.text value

namespace BinaryOp

/-- The sign of an operator. -/
def text : BinaryOp → String
  | plus => "+"
  | minus => "-"
  | times => "*"
  | divide => "/"

/-- How strongly an operator binds its operands. -/
def strength : BinaryOp → Nat
  | plus | minus => 1
  | times | divide => 2

end BinaryOp

namespace Expr

/-- The strength of expressions that are not built by an operator. -/
def atomStrength : Nat := 3

/-- How strongly the outermost operator of an expression binds. -/
def strength : Expr → Nat
  | binary op .. => op.strength
  | concat .. => BinaryOp.plus.strength
  | _ => atomStrength

/-- The text of an operand, in parentheses when it binds less strongly than its place asks. -/
def enclose (needed actual : Nat) (text : String) : String :=
  if actual < needed then "(" ++ text ++ ")" else text

mutual

/-- The canonical text of an expression. -/
def text : Expr → String
  | self _ => "this"
  | identifier name _ => name
  | member (self _) name _ => name
  | member object name _ => enclose atomStrength object.strength object.text ++ "." ++ name
  | index object i _ => enclose atomStrength object.strength object.text ++ "[" ++ i.text ++ "]"
  | call callee args _ =>
    enclose atomStrength callee.strength callee.text ++
      "(" ++ String.intercalate ", " (argTexts args) ++ ")"
  | literal value _ => value.text
  | binary op left right _ =>
    enclose op.strength left.strength left.text ++ " " ++ op.text ++ " " ++
      enclose (op.strength + 1) right.strength right.text
  | concat [] _ => ""
  | concat (first :: rest) _ => String.intercalate " + " (first.text :: laterTexts rest)

/-- The texts of the arguments of a call. -/
def argTexts : List Expr → List String
  | [] => []
  | arg :: args => arg.text :: argTexts args

/-- The texts of the parts of a concatenation after the first one. -/
def laterTexts : List Expr → List String
  | [] => []
  | part :: parts =>
    enclose (BinaryOp.plus.strength + 1) part.strength part.text :: laterTexts parts

end

/-- The argument texts are the texts of the arguments one by one. -/
theorem argTexts_eq_map (args : List Expr) : argTexts args = args.map text := by
  induction args with
  | nil => simp [argTexts]
  | cons arg args ih => simp [argTexts, ih]

end Expr

end Bindery
