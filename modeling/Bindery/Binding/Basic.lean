import Bindery.Destination.Lvalue
import Bindery.Destination.Position

/-!
# Bindings

A binding carries the value of its source to its destination. Either may be missing. Bindings are
recorded in the order in which they are found, and a recorded binding never changes.
-/

namespace Bindery

/-- A recorded binding. -/
structure Binding where
  /-- The position of the binding in the array that holds all of them when the program runs. -/
  slot : Nat
  source : Option Expr
  destination : Option Destination
  /-- Whether the source can be read by its name alone, being a public property of the document. -/
  isSimple : Bool
  span : Span

namespace Binding

/-- The text that names the source. -/
def sourceText (binding : Binding) : Option String := binding.source.map Expr.text

/-- The text that names the destination. -/
def destinationText (binding : Binding) : Option String := binding.destination.map Destination.text

end Binding

/-- The name that an expression reads from the document, with or without `this.`. -/
def Expr.ownName? : Expr → Option String
  | identifier name _ => some name
  | member (self _) name _ => some name
  | _ => none

/-- Whether an expression reads a public instance property of the document. -/
def Expr.isSimpleProperty (resolver : Resolver) (source : Expr) : Bool :=
  match source.ownName?.bind resolver.documentMember? with
  | some definition => definition.isProperty && definition.isPublic && !definition.isStatic
  | none => false

/-- The result of looking at one node: the slot of the binding that it recorded, all bindings, and
what there is to report. -/
structure Recording where
  slot : Option Nat
  bindings : List Binding
  problems : List Problem

namespace Binding

/-- Adds a binding behind those that are there. -/
def record (resolver : Resolver) (source : Option Expr) (destination : Option Destination)
    (span : Span) (bindings : List Binding) : List Binding :=
  bindings ++ [{
    slot := bindings.length
    source, destination
    isSimple := source.any (·.isSimpleProperty resolver)
    span }]

/-- The diagnostic about a two-way binding without a reverse half. -/
def oneWay (span : Span) (message : String) : Problem :=
  { kind := .invalidTwoWayBinding, span, message }

/-- The source and the destination of the reverse half of a two-way binding: what its destination
holds, stored where its source comes from. -/
def reverse (resolver : Resolver) (source : Option Expr) (destination : Option Destination)
    (span : Span) : Except Problem (Expr × Destination) :=
  match source, destination with
  | some source, some destination =>
    match (source.placement resolver false).1 with
    | .resolved back => .ok (destination.toSource, back)
    | .nowhere | .refused =>
      .error (oneWay span
        ("`" ++ source.text ++ "` cannot be assigned to, so the binding cannot be two-way"))
  | _, _ =>
    .error (oneWay span "a two-way binding needs both a source and a resolved destination")

/-- Records a binding and, if it is two-way, its reverse half behind it. -/
def recordBoth (resolver : Resolver) (source : Option Expr) (placement : Placement)
    (reported : List Problem) (twoWay : Bool) (span : Span) (bindings : List Binding) : Recording :=
  let recorded (destination : Option Destination) : Recording :=
    let slot := some bindings.length
    let forward := record resolver source destination span bindings
    if twoWay then
      match reverse resolver source destination span with
      | .ok (back, target) =>
        { slot, bindings := record resolver (some back) (some target) span forward
          problems := reported }
      | .error problem => { slot, bindings := forward, problems := reported ++ [problem] }
    else { slot, bindings := forward, problems := reported }
  match placement with
  | .resolved destination => recorded (some destination)
  | .nowhere => recorded none
  | .refused => { slot := none, bindings, problems := reported }

/-- Records the binding of an embedded expression; other nodes have none. -/
def recordData (resolver : Resolver) (doc : Document) (node : Nat) (bindings : List Binding) :
    Recording :=
  match doc.kind? node with
  | some (.data expr twoWay) =>
    let (placement, problems) := doc.placement node
    recordBoth resolver (some expr) placement problems twoWay (doc.span node) bindings
  | _ => { slot := none, bindings, problems := [] }

/-- Records the binding of a tag that names both ends; other nodes have none. -/
def recordTag (resolver : Resolver) (doc : Document) (node : Nat) (bindings : List Binding) :
    Recording :=
  match doc.kind? node with
  | some (.binding source destination twoWay) =>
    let span := doc.span node
    match source, destination with
    | none, none =>
      { slot := none, bindings
        problems := [{
          kind := .invalidBindingDestination
          span
          message := "Binding tag has neither a source nor a destination" }] }
    | source, none => recordBoth resolver source .nowhere [] twoWay span bindings
    | source, some destination =>
      let (placement, problems) := destination.placement resolver (source.any Expr.isConcat)
      recordBoth resolver source placement problems twoWay span bindings
  | _ => { slot := none, bindings, problems := [] }

end Binding

end Bindery
