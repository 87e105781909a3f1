import Bindery.Destination.Basic
import Bindery.Problem
import Bindery.Symbol.Resolver

/-!
# Explicit destinations

A destination may be given as an expression. It has to be a chain of property names, in which a
property can be followed by one constant element number, and it has to start at a member of the
document or at a class.
-/

namespace Bindery

/-- Marks the last segment of a chain with an element number. Numbers are not negative, and a
segment has at most one. -/
def markLast? (i : Int32) : List Segment → Option (List Segment)
  | [] => none
  | [segment] =>
    if segment.index.isSome ∨ i < 0 then none
    else some [{ segment with index := some i.toInt.toNat }]
  | segment :: segments => (markLast? i segments).map (segment :: ·)

/-- The segments of an expression that is a chain of property names. -/
def Expr.segments? : Expr → Option (List Segment)
  | identifier name _ => some [{ name }]
  | member (self _) name _ => some [{ name }]
  | member object name _ => object.segments?.map (· ++ [{ name }])
  | index object (literal (.int i) _) _ => object.segments?.bind (markLast? i)
  | _ => none

/-- The class that a first segment starts at, when more segments follow. -/
def Resolver.classRoot? (resolver : Resolver) (first : Segment) (rest : List Segment) :
    Option String := do
  let definition ← resolver.global? first.name
  guard (definition.isClass ∧ rest ≠ [] ∧ first.index = none)
  return definition.type.getD first.name

/-- Where a chain of segments starts, and the segments that are left from there. -/
def Resolver.locate? (resolver : Resolver) :
    List Segment → Option (DestinationRoot × List Segment)
  | [] => none
  | first :: rest =>
    if (resolver.documentMember? first.name).isSome then some (.document, first :: rest)
    else (resolver.classRoot? first rest).map fun qualified => (.classObject qualified, rest)

/-- The destination that an expression names. -/
def Expr.placement (resolver : Resolver) (toText : Bool) (expr : Expr) :
    Placement × List Problem :=
  match expr.segments? with
  | none =>
    (.refused, [{
      kind := .invalidBindingDestination
      span := expr.span
      message := "`" ++ expr.text ++ "` is not a property chain that can be assigned to" }])
  | some segments =>
    match resolver.locate? segments with
    | some (root, segments) => (.resolved { root, segments, toText, span := expr.span }, [])
    | none =>
      (.nowhere, [{
        kind := .unresolvedDestination
        span := expr.span
        message := "binding destination `" ++ expr.text ++ "` cannot be resolved" }])

end Bindery
