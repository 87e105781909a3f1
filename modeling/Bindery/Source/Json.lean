import Bindery.Json.Decoding
import Bindery.Source

/-!
# Places as JSON

Positions and spans are written as records, with their fields in the order of their declaration.
-/

namespace Bindery

open Json (Value)

namespace Location

/-- The keys of a position. -/
def fieldNames : List String := ["url", "offset", "line", "col"]

def toJson (location : Location) : Value :=
  .record [("url", .text location.url), ("offset", .nat location.offset),
    ("line", .nat location.line), ("col", .nat location.col)]

def ofJson? (value : Value) : Option Location := do
  match ← value.asRecord? fieldNames with
  | [url, offset, line, col] =>
    return ⟨← url.asText?, ← offset.asNat? 64, ← line.asNat? 64, ← col.asNat? 64⟩
  | _ => none

end Location

namespace Span

def toJson (span : Span) : Value :=
  .record [("start", span.start.toJson), ("end", span.stop.toJson)]

def ofJson? (value : Value) : Option Span := do
  match ← value.asRecord? ["start", "end"] with
  | [start, stop] => return ⟨← Location.ofJson? start, ← Location.ofJson? stop⟩
  | _ => none

/-- The levels of nesting of a written span. -/
def jsonDepth : Nat := 2

end Span

end Bindery
