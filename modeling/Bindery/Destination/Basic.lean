import Bindery.Expr.Text

/-!
# Destinations

Where a binding stores its value: a chain of properties, with array elements on the way, that
starts at the document or at a class.
-/

namespace Bindery

/-- One step of a destination: a property and, behind it, perhaps an array element. -/
structure Segment where
  name : String
  index : Option Nat := none
deriving Repr, DecidableEq, Inhabited

/-- Where a chain of properties starts. -/
inductive DestinationRoot where
  | document
  /-- A class, by its qualified name, for static properties. -/
  | classObject (qualified : String)
deriving Repr, DecidableEq

/-- A chain of properties that can be assigned to. -/
structure Destination where
  root : DestinationRoot
  segments : List Segment
  /-- Whether the value must become a string before it is stored. -/
  toText : Bool
  span : Span
deriving Repr, DecidableEq

/-- A segment as it is written in a chain, an element number between brackets. -/
def Segment.text (segment : Segment) : String :=
  match segment.index with
  | some i => segment.name ++ "[" ++ toString i ++ "]"
  | none => segment.name

namespace Destination

/-- The text under which a binding names its destination. A class is named without its package. -/
def text (destination : Destination) : String :=
  let segments := destination.segments.map Segment.text
  match destination.root with
  | .document => String.intercalate "." segments
  | .classObject qualified => String.intercalate "." (Text.localName qualified :: segments)

/-- The expression that reads one segment further. Element numbers become 32-bit words. -/
def readSegment (object : Option Expr) (segment : Segment) : Expr :=
  let property :=
    match object with
    | some object => .member object segment.name .unknown
    | none => .identifier segment.name .unknown
  match segment.index with
  | some i => .index property (.literal (.int (.ofNat i)) .unknown) .unknown
  | none => property

/-- The expression that reads what is stored at a destination. -/
def toSource (destination : Destination) : Expr :=
  let start :=
    match destination.root with
    | .document => none
    | .classObject qualified => some (Expr.identifier (Text.localName qualified) .unknown)
  let read := destination.segments.foldl
    (fun object segment => some (readSegment object segment)) start
  (read.getD (.self .unknown)).withSpan destination.span

end Destination

/-- What is known of the destination of a binding. -/
inductive Placement where
  | resolved (destination : Destination)
  /-- The binding stands, but its value is stored nowhere. -/
  | nowhere
  /-- There is no binding. -/
  | refused
deriving Repr, DecidableEq

end Bindery
