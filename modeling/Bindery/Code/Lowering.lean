import Bindery.Code.Instruction
import Bindery.Expr.Text
import Bindery.Symbol.Resolver

/-!
# Code of expressions

The code of an expression leaves its value on the stack. It runs with the document in local 0.
Operands are evaluated from left to right. Where some part has no code, the code up to there is
kept and the reason given.
-/

namespace Bindery

/-- Why an expression has no code. -/
inductive LoweringError where
  /-- A call, by its text, of a name that nothing declares. -/
  | unresolvedCallTarget (call : String)
  /-- A name that nothing declares. -/
  | unresolvedReference (name : String)
  /-- An expression, by its text, that is not a method. -/
  | unsupportedCallee (callee : String)
deriving Repr, DecidableEq

/-- The reason as it is reported. -/
def LoweringError.message : LoweringError → String
  | .unresolvedCallTarget call => "cannot resolve the target of call `" ++ call ++ "`"
  | .unresolvedReference name => "cannot resolve `" ++ name ++ "`"
  | .unsupportedCallee callee => "`" ++ callee ++ "` cannot be called"

/-- Some code, and the reason why it is not all. -/
structure Lowered where
  code : List Instruction
  error? : Option LoweringError := none
deriving Repr, DecidableEq

namespace Lowered

/-- Complete code. -/
def done (code : List Instruction) : Lowered := ⟨code, none⟩

/-- No code, for a reason. -/
def failed (error : LoweringError) : Lowered := ⟨[], some error⟩

/-- The code of two parts, the second only if the first is complete. -/
def andThen (first second : Lowered) : Lowered :=
  match first.error? with
  | some _ => first
  | none => ⟨first.code ++ second.code, second.error?⟩

@[simp] theorem done_andThen (code : List Instruction) (second : Lowered) :
    (done code).andThen second = ⟨code ++ second.code, second.error?⟩ := rfl

@[simp] theorem failed_andThen (error : LoweringError) (second : Lowered) :
    (failed error).andThen second = failed error := rfl

end Lowered

namespace Resolver

/-- The code that leaves the object of which a document member is a property: the document, or the
class that declares a static member. -/
def memberHolder (resolver : Resolver) (definition : Definition) : Instruction :=
  if definition.isStatic then
    .getLex (.ofQualified (definition.owner.getD resolver.documentClass))
  else .getLocal 0

/-- The code that reads a name without a receiver. -/
def lowerName (resolver : Resolver) (name : String) : Lowered :=
  match resolver.documentMember? name with
  | some definition => .done [resolver.memberHolder definition, .getProperty (.inPublic name)]
  | none =>
    match resolver.global? name with
    | some definition =>
      if definition.isClass then .done [.getLex (.ofQualified (definition.type.getD name))]
      else .done [.getLex (.inPublic name)]
    | none => .failed (.unresolvedReference name)

/-- The code that leaves the receiver of a call without one. -/
def lowerReceiver (resolver : Resolver) (name : String) (call : String) : Lowered :=
  match resolver.documentMember? name with
  | some definition => .done [resolver.memberHolder definition]
  | none =>
    match resolver.global? name with
    | some _ => .done [.findPropStrict (.inPublic name)]
    | none => .failed (.unresolvedCallTarget call)

end Resolver

/-- The instruction of a literal. -/
def Literal.instruction : Literal → Instruction
  | null => .pushNull
  | bool true => .pushTrue
  | bool false => .pushFalse
  | string value => .pushString value
  | int value => .pushInt value
  | number value => .pushDouble value

/-- The instruction of an operator. -/
def BinaryOp.instruction : BinaryOp → Instruction
  | plus => .add
  | minus => .subtract
  | times => .multiply
  | divide => .divide

namespace Expr

mutual

/-- The code of an expression. -/
def lower (resolver : Resolver) : Expr → Lowered
  | self _ => .done [.getLocal 0]
  | identifier name _ => resolver.lowerName name
  | member (self _) name _ => resolver.lowerName name
  | member object name _ => (lower resolver object).andThen (.done [.getProperty (.inPublic name)])
  | index object i _ =>
    ((lower resolver object).andThen (lower resolver i)).andThen (.done [.getProperty .runtime])
  | call (identifier name s) args span =>
    ((resolver.lowerReceiver name (text (call (identifier name s) args span))).andThen
      (lowerAll resolver args)).andThen (.done [.callProperty (.inPublic name) args.length])
  | call (member (self s) name s') args span =>
    ((resolver.lowerReceiver name (text (call (member (self s) name s') args span))).andThen
      (lowerAll resolver args)).andThen (.done [.callProperty (.inPublic name) args.length])
  | call (member object name _) args _ =>
    ((lower resolver object).andThen (lowerAll resolver args)).andThen
      (.done [.callProperty (.inPublic name) args.length])
  | call callee _ _ => .failed (.unsupportedCallee callee.text)
  | literal value _ => .done [value.instruction]
  | binary op left right _ =>
    ((lower resolver left).andThen (lower resolver right)).andThen (.done [op.instruction])
  | concat parts _ => (Lowered.done [.pushString ""]).andThen (lowerParts resolver parts)

/-- The code that leaves the values of several expressions. -/
def lowerAll (resolver : Resolver) : List Expr → Lowered
  | [] => .done []
  | e :: es => (lower resolver e).andThen (lowerAll resolver es)

/-- The code that appends the values of several expressions to the one on the stack. -/
def lowerParts (resolver : Resolver) : List Expr → Lowered
  | [] => .done []
  | e :: es => ((lower resolver e).andThen (.done [.add])).andThen (lowerParts resolver es)

end

end Expr

end Bindery
