import Bindery.Constructor.Code
import Bindery.Document.Walk

/-!
# Compiling the bindings of a document

The bindings of a document are recorded node by node; then the constructor code is asked for, which
ends the compilation. After that nothing more can be recorded.
-/

namespace Bindery

/-- The progress of one document: the bindings recorded so far, until its code is asked for. -/
structure Compilation where
  config : Config
  resolver : Resolver
  recorded : Option (List Binding) := some []

namespace Compilation

/-- Looks at one node in some way, unless the compilation has ended. -/
def visit (compilation : Compilation) (look : List Binding → Recording) :
    Except Failure (Compilation × List Problem) :=
  match compilation.recorded with
  | none => .error .analysisFinished
  | some bindings =>
    let recording := look bindings
    .ok ({ compilation with recorded := some recording.bindings }, recording.problems)

/-- Records the binding of an embedded expression. -/
def visitData (compilation : Compilation) (doc : Document) (node : Nat) :
    Except Failure (Compilation × List Problem) :=
  compilation.visit (Binding.recordData compilation.resolver doc node)

/-- Records the binding of a tag that names both ends. -/
def visitTag (compilation : Compilation) (doc : Document) (node : Nat) :
    Except Failure (Compilation × List Problem) :=
  compilation.visit (Binding.recordTag compilation.resolver doc node)

/-- Records the binding of a node of either kind; other nodes are passed over. -/
def visitNode (compilation : Compilation) (doc : Document) (node : Nat) :
    Except Failure (Compilation × List Problem) :=
  match doc.kind? node with
  | some (.data ..) => compilation.visitData doc node
  | some (.binding ..) => compilation.visitTag doc node
  | _ => .ok (compilation, [])

/-- Visits some nodes in order, up to the first one that is refused. -/
def visitNodes (compilation : Compilation) (doc : Document) :
    List Nat → Except Failure (Compilation × List Problem)
  | [] => .ok (compilation, [])
  | node :: nodes => do
    let (compilation, first) ← compilation.visitNode doc node
    let (compilation, rest) ← compilation.visitNodes doc nodes
    return (compilation, first ++ rest)

/-- Visits every node of a document. -/
def visitDocument (compilation : Compilation) (doc : Document) :
    Except Failure (Compilation × List Problem) :=
  compilation.visitNodes doc doc.walk

/-- The needed classes that cannot be found. -/
def missingClasses (compilation : Compilation) : List String :=
  compilation.config.requiredClasses.filter fun qualified =>
    (compilation.resolver.class? qualified).isNone

/-- The diagnostic about a needed class that cannot be found. -/
def missingClassProblem (qualified : String) : Problem :=
  { kind := .missingRuntimeClass
    span := .unknown
    message := "data binding requires `" ++ qualified ++ "`, which cannot be found" }

/-- Ends the compilation and generates the constructor code. A document without bindings has
none. -/
def finish (compilation : Compilation) (out : Emission) :
    Except Failure (Option ConstructorCode) × Compilation × Emission :=
  let ended := { compilation with recorded := none }
  match compilation.recorded with
  | none => (.error .analysisFinished, ended, out)
  | some [] => (.ok none, ended, out)
  | some bindings =>
    match compilation.missingClasses with
    | first :: rest =>
      (.error (.missingRuntimeClass first), ended,
        { out with problems := out.problems ++ (first :: rest).map missingClassProblem })
    | [] =>
      let analyzed := Database.ofBindings compilation.resolver bindings
      let out := { out with problems := out.problems ++ analyzed.2 }
      let generated := ConstructorCode.ofDatabase compilation.config compilation.resolver
        analyzed.1 out
      (.ok (some generated.1), ended, generated.2)

end Compilation

/-- Compiles all bindings of a document. The methods and diagnostics join those that are there
already. -/
def Document.compile (doc : Document) (config : Config) (resolver : Resolver) (out : Emission) :
    Except Failure (Option ConstructorCode) × Emission :=
  let start : Compilation := { config, resolver }
  match start.visitDocument doc with
  | .error failure => (.error failure, out)
  | .ok (compilation, problems) =>
    let finished := compilation.finish { out with problems := out.problems ++ problems }
    (finished.1, finished.2.2)

end Bindery
