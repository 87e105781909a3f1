import Bindery.Source
import Bindery.Text.Dotted

/-!
# Binding expressions

The expressions that markup attributes may hold: reads of names, properties and elements, calls,
literals, arithmetic and text with embedded expressions.
-/

namespace Bindery

/-- A constant value. -/
inductive Literal where
  | null
  | bool (value : Bool)
  | string (value : String)
  | int (value : Int32)
  | number (value : Float)
deriving Repr, DecidableEq, Inhabited

/-- The operators of arithmetic; `plus` also joins texts. -/
inductive BinaryOp where
  | plus
  | minus
  | times
  | divide
deriving Repr, DecidableEq

/-- An expression, every part of which knows its place in the markup. -/
inductive Expr where
  /-- The document itself. -/
  | self (span : Span)
  | identifier (name : String) (span : Span)
  | member (object : Expr) (name : String) (span : Span)
  | index (object : Expr) (index : Expr) (span : Span)
  | call (callee : Expr) (args : List Expr) (span : Span)
  | literal (value : Literal) (span : Span)
  | binary (op : BinaryOp) (left : Expr) (right : Expr) (span : Span)
  /-- Text with embedded expressions, such as `Hello {user.name}!`. -/
  | concat (parts : List Expr) (span : Span)
deriving Inhabited

/-- Equality of literals as values: numbers compare as numbers do, so that a NaN differs from itself
and the two zeros are equal. -/
def Literal.same : Literal → Literal → Bool
  | number x, number y => x.beq y
  | v, w => v = w

namespace Expr

/-- The stretch of markup that an expression was read from. -/
def span : Expr → Span
  | self span | identifier _ span | member _ _ span | index _ _ span | call _ _ span
  | literal _ span | binary _ _ _ span | concat _ span => span

/-- The same expression at another place; the places of its parts stay. -/
def withSpan (e : Expr) (span : Span) : Expr :=
  match e with
  | self _ => self span
  | identifier name _ => identifier name span
  | member object name _ => member object name span
  | index object i _ => index object i span
  | call callee args _ => call callee args span
  | literal value _ => literal value span
  | binary op left right _ => binary op left right span
  | concat parts _ => concat parts span

/-- Whether the expression is text with embedded expressions. -/
def isConcat : Expr → Bool
  | concat .. => true
  | _ => false

/-- Whether the expression is the document itself. -/
def isSelf : Expr → Bool
  | self _ => true
  | _ => false

/-- Reads along a dotted path such as `user.name`; a path may start with `this`. -/
def path (dotted : String) : Expr :=
  let (first, rest) := Text.pathParts dotted
  let root := if first = "this" then self .unknown else identifier first .unknown
  rest.foldl (fun object name => member object name .unknown) root

mutual

/-- Equality of expressions as values. Their places count. -/
def same : Expr → Expr → Bool
  | self s, self s' => s = s'
  | identifier n s, identifier n' s' => n = n' && s = s'
  | member o n s, member o' n' s' => same o o' && n = n' && s = s'
  | index o i s, index o' i' s' => same o o' && same i i' && s = s'
  | call c as s, call c' as' s' => same c c' && sameAll as as' && s = s'
  | literal v s, literal w s' => v.same w && s = s'
  | binary op l r s, binary op' l' r' s' => op = op' && same l l' && same r r' && s = s'
  | concat ps s, concat ps' s' => sameAll ps ps' && s = s'
  | _, _ => false

/-- Equality of lists of expressions as values. -/
def sameAll : List Expr → List Expr → Bool
  | [], [] => true
  | e :: es, e' :: es' => same e e' && sameAll es es'
  | _, _ => false

end

@[simp] theorem span_withSpan (e : Expr) (span : Span) : (e.withSpan span).span = span := by
  cases e <;> rfl

end Expr

end Bindery
