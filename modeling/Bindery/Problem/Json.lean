import Bindery.Problem
import Bindery.Source.Json

/-!
# Diagnostics as JSON

Kinds and levels are written by their names.
-/

namespace Bindery

open Json (Value)

namespace Level

/-- The name of a level. -/
def tag : Level → String
  | warning => "Warning"
  | error => "Error"

def toJson (level : Level) : Value := .text level.tag

def ofJson? (value : Value) : Option Level := do
  let tag ← value.asPlainTag?
  [warning, error].find? (·.tag = tag)

end Level

namespace ProblemKind

/-- The name of a kind of diagnostic. -/
def tag : ProblemKind → String
  | unresolvedReference => "UnresolvedReference"
  | unresolvedDestination => "UnresolvedDestination"
  | invalidBindingDestination => "InvalidBindingDestination"
  | invalidTwoWayBinding => "InvalidTwoWayBinding"
  | malformedModelTree => "MalformedModelTree"
  | missingRuntimeClass => "MissingRuntimeClass"
  | internalCodegen => "InternalCodegen"

/-- All kinds of diagnostics. -/
def all : List ProblemKind :=
  [unresolvedReference, unresolvedDestination, invalidBindingDestination, invalidTwoWayBinding,
    malformedModelTree, missingRuntimeClass, internalCodegen]

/-- The kind of a name. -/
def ofTag? (tag : String) : Option ProblemKind := all.find? (·.tag = tag)

def toJson (kind : ProblemKind) : Value := .text kind.tag

def ofJson? (value : Value) : Option ProblemKind := do ofTag? (← value.asPlainTag?)

end ProblemKind

namespace Problem

def toJson (problem : Problem) : Value :=
  .record [("span", problem.span.toJson), ("kind", problem.kind.toJson),
    ("msg", .text problem.message), ("level", problem.level.toJson)]

def ofJson? (value : Value) : Option Problem := do
  match ← value.asRecord? ["span", "kind", "msg", "level"] with
  | [span, kind, message, level] =>
    return {
      span := ← Span.ofJson? span
      kind := ← ProblemKind.ofJson? kind
      message := ← message.asText?
      level := ← Level.ofJson? level }
  | _ => none

end Problem

end Bindery
