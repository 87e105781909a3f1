import Bindery.Source

/-!
# Diagnostics

What analysis and code generation report about a document. A diagnostic never stops the
compilation of a document; failures that do are a `Failure`.
-/

namespace Bindery

/-- How grave a diagnostic is. -/
inductive Level where
  | warning
  | error
deriving Repr, DecidableEq

/-- What a diagnostic is about. -/
inductive ProblemKind where
  /-- A source expression names something that does not exist in its scope. -/
  | unresolvedReference
  /-- A destination chain starts at a name that nothing declares. -/
  | unresolvedDestination
  /-- A destination that is not a property chain. -/
  | invalidBindingDestination
  /-- A two-way binding whose reverse half cannot be formed. -/
  | invalidTwoWayBinding
  /-- A data binding at a place from which no destination follows. -/
  | malformedModelTree
  /-- A class that the constructed code needs is missing. -/
  | missingRuntimeClass
  /-- An expression for which no code can be generated. -/
  | internalCodegen
deriving Repr, DecidableEq

/-- The key under which a kind of diagnostic is documented. -/
def ProblemKind.messageKey : ProblemKind → String
  | .unresolvedReference => "binding.unresolvedReference"
  | .unresolvedDestination => "binding.unresolvedDestination"
  | .invalidBindingDestination => "binding.invalidDestination"
  | .invalidTwoWayBinding => "binding.invalidTwoWay"
  | .malformedModelTree => "binding.malformedModelTree"
  | .missingRuntimeClass => "binding.missingRuntimeClass"
  | .internalCodegen => "binding.internalCodegen"

/-- A name that is not found and a reverse half that cannot be formed leave a working binding; all
other kinds are errors. -/
def ProblemKind.defaultLevel : ProblemKind → Level
  | .unresolvedReference | .invalidTwoWayBinding => .warning
  | _ => .error

/-- A diagnostic about a stretch of a document. -/
structure Problem where
  span : Span
  kind : ProblemKind
  message : String
  level : Level := kind.defaultLevel
deriving Repr, DecidableEq

/-- The line that a diagnostic is shown as. -/
def Problem.text (problem : Problem) : String :=
  let level := match problem.level with
    | .warning => "WARNING"
    | .error => "ERROR"
  level ++ " [" ++ problem.kind.messageKey ++ "] " ++ problem.span.start.text ++ ": " ++
    problem.message

/-- What ends the compilation of a whole document, or refuses a step of it. -/
inductive Failure where
  /-- Nothing can be added after the constructor code was asked for. -/
  | analysisFinished
  /-- The first needed class that cannot be found. -/
  | missingRuntimeClass (qualified : String)
deriving Repr, DecidableEq

/-- A failure as it is shown. -/
def Failure.message : Failure → String
  | .analysisFinished => "binding analysis has already been finished for this document"
  | .missingRuntimeClass qualified =>
    "runtime class `" ++ qualified ++ "` cannot be resolved in this project"

end Bindery
