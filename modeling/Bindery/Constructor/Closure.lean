import Bindery.Binding.Basic
import Bindery.Code.Lowering
import Bindery.Code.Method
import Bindery.Code.RuntimeName

/-!
# Closures

The methods that constructed code passes to the binding runtime: one that computes the source of a
binding, one that stores a value at its destination, one that computes the arguments of a call, and
one that reads any property of the document.
-/

namespace Bindery

/-- The start of every closure: names are looked up in the document from here on. -/
def Method.entry : List Instruction := [.getLocal 0, .pushScope]

/-- The diagnostic about an expression without code. A name that cannot be resolved has been
reported by the analysis of the expression already. -/
def LoweringError.problem? (error : LoweringError) (expr : Expr) : Option Problem :=
  match error with
  | .unresolvedReference _ => none
  | .unresolvedCallTarget _ | .unsupportedCallee _ =>
    some {
      kind := .internalCodegen
      span := expr.span
      message := error.message ++ " in binding expression `" ++ expr.text ++ "`" }

/-- A closure that could be generated, or else what there is to report. -/
abbrev Closure := Except (Option Problem) Method

namespace Closure

/-- The closure that computes the source of a binding. -/
def getter (resolver : Resolver) (slot : Nat) (source : Expr) : Closure :=
  let lowered := source.lower resolver
  match lowered.error? with
  | some error => .error (error.problem? source)
  | none =>
    .ok {
      name := "_bindingGetter" ++ toString slot
      paramCount := 0
      code := Method.entry ++ lowered.code ++ [.returnValue] }

/-- The code of the arguments of a call, one after the other. -/
def argumentCode (resolver : Resolver) : List Expr → Except (Option Problem) (List Instruction)
  | [] => .ok []
  | arg :: args =>
    let lowered := arg.lower resolver
    match lowered.error? with
    | some error => .error (error.problem? arg)
    | none => (argumentCode resolver args).map (lowered.code ++ ·)

/-- The closure that computes the arguments of a call, as an array. -/
def parameters (resolver : Resolver) (name : String) (args : List Expr) : Closure :=
  (argumentCode resolver args).map fun code =>
    { name := "_" ++ name ++ "Parameters"
      paramCount := 0
      code := Method.entry ++ code ++ [.newArray args.length, .returnValue] }

end Closure

namespace Destination

/-- The code that leaves the object at which the chain of properties starts. -/
def rootCode : DestinationRoot → Instruction
  | .document => .getLocal 0
  | .classObject qualified => .getLex (.ofQualified qualified)

/-- The name of an array element. -/
def elementName (i : Nat) : Name := .inPublic (toString i)

/-- The code that reads one segment further. -/
def readCode (segment : Segment) : List Instruction :=
  match segment.index with
  | some i => [.getProperty (.inPublic segment.name), .getProperty (elementName i)]
  | none => [.getProperty (.inPublic segment.name)]

/-- The code that stores the first argument in the last segment. -/
def storeCode (toText : Bool) (segment : Segment) : List Instruction :=
  let value : List Instruction := if toText then [.getLocal 1, .convertString] else [.getLocal 1]
  match segment.index with
  | some i =>
    [.getProperty (.inPublic segment.name)] ++ value ++ [.setProperty (elementName i)]
  | none => value ++ [.setProperty (.inPublic segment.name)]

/-- The code that reads all segments but the last one and stores the first argument in that. -/
def segmentsCode (toText : Bool) : List Segment → List Instruction
  | [] => []
  | [last] => storeCode toText last
  | segment :: rest => readCode segment ++ segmentsCode toText rest

/-- The closure that stores its argument at a destination. -/
def setter (destination : Destination) (slot : Nat) : Method where
  name := "_bindingSetter" ++ toString slot
  paramCount := 1
  code :=
    Method.entry ++ [rootCode destination.root] ++
      segmentsCode destination.toText destination.segments ++ [.returnVoid]

end Destination

/-- The closure that reads the property of the document that its argument names. -/
def Method.propertyGetter : Method where
  name := "_bindingsPropertyGetter"
  paramCount := 1
  code :=
    Method.entry ++ [.getLocal 0, .getLocal 1, .getProperty RuntimeName.arrayIndex, .returnValue]

/-- What generating code adds to: the methods emitted so far, and what there is to report. -/
structure Emission where
  methods : MethodTable := {}
  problems : List Problem := []

namespace Emission

/-- Emits a method. -/
def emit (method : Method) (out : Emission) : MethodHandle × Emission :=
  let emitted := out.methods.emit method
  (emitted.1, { out with methods := emitted.2 })

/-- Emits a closure, or reports why there is none. -/
def emitClosure (closure : Closure) (out : Emission) : Option MethodHandle × Emission :=
  match closure with
  | .ok method =>
    let emitted := out.emit method
    (some emitted.1, emitted.2)
  | .error problem? => (none, { out with problems := out.problems ++ problem?.toList })

/-- Emits the closure of a binding's source. A binding without a source has none. -/
def emitGetter (resolver : Resolver) (binding : Binding) (out : Emission) :
    Option MethodHandle × Emission :=
  match binding.source with
  | some source => out.emitClosure (Closure.getter resolver binding.slot source)
  | none => (none, out)

/-- Emits the closure of a binding's destination. A binding without a destination has none. -/
def emitSetter (binding : Binding) (out : Emission) : Option MethodHandle × Emission :=
  match binding.destination with
  | some destination =>
    let emitted := out.emit (destination.setter binding.slot)
    (some emitted.1, emitted.2)
  | none => (none, out)

end Emission

end Bindery
