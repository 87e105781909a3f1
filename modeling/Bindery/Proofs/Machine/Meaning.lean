import Bindery.Expr.Text
import Bindery.Proofs.Machine.Basic
import Bindery.Symbol.Resolver

/-!
# The meaning of expressions

What an expression means in a document, said without instructions and without a stack: which
operations its value takes, and in which order. An expression that uses an undeclared name, or
calls something other than a method by its name, has no meaning.
-/

namespace Bindery

variable {m : Type → Type} [Monad m] {V : Type}

namespace Machine

/-- The object that a member of the document belongs to: the document itself, or for a static
member the class that declares it. -/
def holder (machine : Machine m V) (resolver : Resolver) (document : V)
    (definition : Definition) : m V :=
  if definition.isStatic then
    machine.lookUp (.ofQualified (definition.owner.getD resolver.documentClass))
  else pure document

/-- The value of a name. Members of the document come before the names of the scope, and of these
a class is meant by its qualified name. -/
def nameMeaning? (machine : Machine m V) (resolver : Resolver) (document : V) (name : String) :
    Option (m V) :=
  match resolver.documentMember? name, resolver.global? name with
  | some definition, _ => some do
    let object ← machine.holder resolver document definition
    machine.read object (.inPublic name)
  | none, some definition =>
    if definition.isClass then some (machine.lookUp (.ofQualified (definition.type.getD name)))
    else some (machine.lookUp (.inPublic name))
  | none, none => none

/-- The object whose method is called by a name without a receiver. -/
def ownerMeaning? (machine : Machine m V) (resolver : Resolver) (document : V) (name : String) :
    Option (m V) :=
  match resolver.documentMember? name, resolver.global? name with
  | some definition, _ => some (machine.holder resolver document definition)
  | none, some _ => some (machine.findOwner (.inPublic name))
  | none, none => none

/-- A call evaluates its receiver, then its arguments from left to right, and then calls. -/
def callMeaning (machine : Machine m V) (receiver : m V) (name : String) (args : List (m V)) :
    m V := do
  let object ← receiver
  let values ← args.mapM id
  machine.call object (.inPublic name) values

/-- Adds the value of one part to a text. -/
def appendPart (machine : Machine m V) (text : V) (part : m V) : m V := do
  let value ← part
  machine.arithmetic .plus text value

/-- Text with embedded expressions starts empty, and its parts are added from left to right. -/
def concatMeaning (machine : Machine m V) (parts : List (m V)) : m V :=
  parts.foldlM machine.appendPart (machine.constant (.string ""))

end Machine

namespace Expr

mutual

/-- What an expression means in a document. -/
def meaning? (machine : Machine m V) (resolver : Resolver) (document : V) :
    Expr → Option (m V)
  | self _ => some (pure document)
  | identifier name _ => machine.nameMeaning? resolver document name
  | member (self _) name _ => machine.nameMeaning? resolver document name
  | member object name _ => do
    let objectValue ← meaning? machine resolver document object
    some do
      let object ← objectValue
      machine.read object (.inPublic name)
  | index object i _ => do
    let objectValue ← meaning? machine resolver document object
    let indexValue ← meaning? machine resolver document i
    some do
      let object ← objectValue
      let index ← indexValue
      machine.readAt object index
  | call (identifier name _) args _ => do
    let receiver ← machine.ownerMeaning? resolver document name
    let args ← meanings? machine resolver document args
    some (machine.callMeaning receiver name args)
  | call (member (self _) name _) args _ => do
    let receiver ← machine.ownerMeaning? resolver document name
    let args ← meanings? machine resolver document args
    some (machine.callMeaning receiver name args)
  | call (member object name _) args _ => do
    let receiver ← meaning? machine resolver document object
    let args ← meanings? machine resolver document args
    some (machine.callMeaning receiver name args)
  | call _ _ _ => none
  | literal value _ => some (pure (machine.constant value))
  | binary op left right _ => do
    let leftValue ← meaning? machine resolver document left
    let rightValue ← meaning? machine resolver document right
    some do
      let x ← leftValue
      let y ← rightValue
      machine.arithmetic op x y
  | concat parts _ => do
    let parts ← meanings? machine resolver document parts
    some (machine.concatMeaning parts)

/-- What several expressions mean, one by one. -/
def meanings? (machine : Machine m V) (resolver : Resolver) (document : V) :
    List Expr → Option (List (m V))
  | [] => some []
  | e :: es => do
    let first ← meaning? machine resolver document e
    let rest ← meanings? machine resolver document es
    some (first :: rest)

end

end Expr

end Bindery
