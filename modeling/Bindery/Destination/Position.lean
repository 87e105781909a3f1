import Bindery.Destination.Basic
import Bindery.Document.Basic
import Bindery.Problem

/-!
# Destinations that follow from a place

An embedded expression stores its value where it stands: in a property of the document or of an
instance, or in a property of a data model, which is reached from the model through all the
properties around it.
-/

namespace Bindery

namespace Document

/-- What an upward walk from a model property meets. -/
inductive ModelPath where
  /-- The model, and the segments from it down to the property. -/
  | inside (segments : List Segment)
  /-- A model without an id. -/
  | unnamed
  /-- No model, up to a node without a parent. -/
  | outside
  /-- No end, since nodes name each other as their parents. -/
  | circular
  /-- A node that cannot stand between a model and its properties. -/
  | unexpected

/-- Walks up from a node inside a model, in front of the segments that are already found. A walk of
more steps than there are nodes goes in circles. -/
def modelPath (doc : Document) : (fuel : Nat) → Option Nat → List Segment → ModelPath
  | 0, _, _ => .circular
  | _, none, _ => .outside
  | fuel + 1, some id, segments =>
    match doc.kind? id with
    | some (.modelProperty name index) =>
      modelPath doc fuel (doc.parent? id) ({ name, index } :: segments)
    | some .modelRoot => modelPath doc fuel (doc.parent? id) segments
    | some (.model _) =>
      match doc.id? id with
      | some modelId => .inside ({ name := modelId } :: segments)
      | none => .unnamed
    | _ => .unexpected

/-- The segments of a property that is set on the document or on an instance. -/
def propertySegments? (doc : Document) (property : Nat) (name : String) :
    Option (List Segment) := do
  let owner ← doc.parent? property
  match doc.kind? owner with
  | some (.document _) => return [{ name }]
  | some (.instance ..) => return [{ name := ← doc.id? owner }, { name }]
  | _ => none

/-- The diagnostic about an embedded expression that no destination follows from. -/
def malformed (span : Span) (message : String) : Problem :=
  { kind := .malformedModelTree, span, message }

/-- The destination of an embedded expression. -/
def placement (doc : Document) (node : Nat) : Placement × List Problem :=
  let span := doc.span node
  match doc.kind? node with
  | some (.data expr _) =>
    let resolved (segments : List Segment) : Placement :=
      .resolved { root := .document, segments, toText := expr.isConcat, span }
    match doc.parent? node with
    | none => (.refused, [malformed span "data binding has no parent node"])
    | some parent =>
      match doc.kind? parent with
      | some (.modelProperty ..) =>
        match doc.modelPath (doc.size + 1) (some parent) [] with
        | .inside segments => (resolved segments, [])
        | .unnamed => (.nowhere, [])
        -- A walk in circles never comes to a model, like one that leaves the document.
        | .outside | .circular =>
          (.refused, [malformed span "model property is not inside a Model tag"])
        | .unexpected =>
          (.refused, [malformed span "unexpected tag between a model property and its Model"])
      | some (.model _) | some .modelRoot =>
        (.refused,
          [malformed span "a data binding directly inside a Model tag has no property to bind to"])
      | some (.property name) =>
        match doc.propertySegments? parent name with
        | some segments => (resolved segments, [])
        | none => (.nowhere, [])
      | _ => (.nowhere, [])
  | _ => (.refused, [])

end Document

end Bindery
