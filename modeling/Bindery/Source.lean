/-!
# Places in markup files

Diagnostics and expressions carry the stretch of markup that they stem from.
-/

namespace Bindery

/-- A position in a file: its offset from the start, and the same as line and column. -/
structure Location where
  url : String
  offset : Nat
  line : Nat
  col : Nat
deriving Repr, DecidableEq, Inhabited

/-- A stretch of a file. -/
structure Span where
  start : Location
  stop : Location
deriving Repr, DecidableEq, Inhabited

/-- The position of what has none. -/
def Location.unknown : Location := ⟨"", 0, 0, 0⟩

/-- The span of what has none. -/
def Span.unknown : Span := ⟨.unknown, .unknown⟩

/-- Positions are 64-bit words and wrap around. -/
def Location.wordSize : Nat := 0x10000000000000000

/-- The position some columns further on the same line. -/
def Location.advance (start : Location) (columns : Nat) : Location :=
  { start with
    offset := (start.offset + columns) % wordSize
    col := (start.col + columns) % wordSize }

/-- The span of that many columns on one line. -/
def Span.onLine (start : Location) (columns : Nat) : Span := ⟨start, start.advance columns⟩

/-- The text of a position in a diagnostic. -/
def Location.text (location : Location) : String :=
  location.url ++ "@" ++ toString location.line ++ ":" ++ toString location.col

end Bindery
