import Bindery.Destination.Basic
import Mathlib.Data.List.Basic

/-!
# Reading along a chain

An expression may read properties one after the other, each of them perhaps with a constant element
behind it. The expression that reads a destination does so, with the names of the destination in
their order. Its element numbers are 32-bit words, which may be negative. So they are the numbers of
the destination, and the texts of the two are the same, exactly as long as these numbers are small.
-/

namespace Bindery

/-- A property that is read and, behind it, perhaps an element. -/
structure Reading where
  name : String
  number : Option Int32 := none
deriving Repr, DecidableEq

/-- A reading as it is written in an expression. -/
def Reading.text (reading : Reading) : String :=
  match reading.number with
  | some i => reading.name ++ "[" ++ toString i.toInt ++ "]"
  | none => reading.name

/-- The text of readings one after the other. -/
def readingsText (readings : List Reading) : String :=
  String.intercalate "." (readings.map Reading.text)

theorem readingsText_concat {readings : List Reading} (h : readings ≠ []) (reading : Reading) :
    readingsText (readings ++ [reading]) = readingsText readings ++ "." ++ reading.text := by
  rw [readingsText, List.map_append, String.intercalate_append_of_ne_nil (by simpa) (by simp)]
  simp [readingsText]

/-- The number of the last reading is written behind everything else. -/
theorem readingsText_concat_number (readings : List Reading) (name : String) (i : Int32) :
    readingsText (readings ++ [{ name, number := some i }]) =
      readingsText (readings ++ [{ name := name }]) ++ "[" ++ toString i.toInt ++ "]" := by
  by_cases h : readings = []
  · simp [h, readingsText, Reading.text]
  · simp only [readingsText_concat h, Reading.text, String.append_assoc]

/-! ## Expressions -/

/-- An expression reads properties one after the other. It starts with a name, perhaps behind
`this.`. -/
inductive Expr.Reads : Expr → List Reading → Prop
  | name (name : String) (span : Span) : Reads (.identifier name span) [{ name := name }]
  | own (name : String) (selfSpan span : Span) :
    Reads (.member (.self selfSpan) name span) [{ name := name }]
  | member {object : Expr} {readings : List Reading} (name : String) (span : Span) :
    Reads object readings → Reads (.member object name span) (readings ++ [{ name := name }])
  | element {object : Expr} {readings : List Reading} {name : String} (i : Int32)
    (numberSpan span : Span) : Reads object (readings ++ [{ name := name }]) →
    Reads (.index object (.literal (.int i) numberSpan) span)
      (readings ++ [{ name, number := some i }])

namespace Expr

variable {e : Expr} {readings : List Reading}

theorem Reads.ne_nil (h : e.Reads readings) : readings ≠ [] := by
  cases h <;> simp

theorem Reads.ne_self (h : e.Reads readings) (span : Span) : e ≠ self span := by
  cases h <;> simp

/-- Readings bind as strongly as a single name. -/
theorem Reads.strength_eq (h : e.Reads readings) : e.strength = atomStrength := by
  cases h <;> rfl

theorem Reads.withSpan (h : e.Reads readings) (span : Span) : (e.withSpan span).Reads readings := by
  cases h with
  | name name => exact .name name span
  | own name selfSpan => exact .own name selfSpan span
  | member name _ hobject => exact .member name span hobject
  | element i numberSpan _ hobject => exact .element i numberSpan span hobject

/-- An expression is written as its readings are. -/
theorem Reads.text_eq (h : e.Reads readings) : e.text = readingsText readings := by
  induction h with
  | name | own => simp [text, readingsText, Reading.text]
  | @member object readings name span hobject ih =>
    rw [text, hobject.strength_eq, ih, readingsText_concat hobject.ne_nil]
    · simp [enclose, Reading.text]
    · exact fun span => hobject.ne_self span
  | @element object readings name i numberSpan span hobject ih =>
    rw [text, text, hobject.strength_eq, ih, readingsText_concat_number]
    simp [enclose, Literal.text]

end Expr

/-! ## Destinations -/

/-- What is read for a segment: its number becomes a 32-bit word. -/
def Segment.reading (segment : Segment) : Reading :=
  { name := segment.name, number := segment.index.map Int32.ofNat }

/-- The segments in front of a chain that starts at a root: the name of a class without its
package. -/
def DestinationRoot.segments : DestinationRoot → List Segment
  | .document => []
  | .classObject qualified => [{ name := Text.localName qualified }]

namespace Destination

/-- A destination as a chain that starts with a name. -/
def chain (destination : Destination) : List Segment :=
  destination.root.segments ++ destination.segments

/-- Reading one segment further adds its reading. -/
theorem reads_readSegment {object : Expr} {readings : List Reading} (h : object.Reads readings)
    (segment : Segment) :
    (readSegment (some object) segment).Reads (readings ++ [segment.reading]) := by
  obtain ⟨name, index⟩ := segment
  cases index with
  | none => exact h.member name .unknown
  | some i => exact (h.member name .unknown).element (.ofNat i) .unknown .unknown

/-- The first segment of a chain that starts at the document. -/
theorem reads_readSegment_none (segment : Segment) :
    (readSegment none segment).Reads [segment.reading] := by
  obtain ⟨name, index⟩ := segment
  cases index with
  | none => exact .name name .unknown
  | some i =>
    have hname : (Expr.identifier name .unknown).Reads ([] ++ [{ name := name }]) :=
      .name name .unknown
    exact hname.element (.ofNat i) .unknown .unknown

/-- Segments are read one after the other. -/
theorem exists_reads_foldl {object : Expr} {before : List Reading} (h : object.Reads before)
    (segments : List Segment) :
    ∃ e, segments.foldl (fun object segment => some (readSegment object segment)) (some object) =
      some e ∧ e.Reads (before ++ segments.map Segment.reading) := by
  induction segments generalizing object before with
  | nil => exact ⟨object, rfl, by simpa using h⟩
  | cons segment segments ih =>
    obtain ⟨e, hfold, he⟩ := ih (reads_readSegment h segment)
    exact ⟨e, hfold, by simpa using he⟩

/-- The expression that reads a destination reads the segments of its chain. -/
theorem reads_toSource {destination : Destination} (hne : destination.chain ≠ []) :
    destination.toSource.Reads (destination.chain.map Segment.reading) := by
  obtain ⟨root, segments, toText, span⟩ := destination
  cases root with
  | document =>
    cases segments with
    | nil => exact absurd rfl hne
    | cons first rest =>
      obtain ⟨e, hfold, he⟩ := exists_reads_foldl (reads_readSegment_none first) rest
      rw [toSource, List.foldl_cons, hfold]
      exact he.withSpan span
  | classObject qualified =>
    obtain ⟨e, hfold, he⟩ :=
      exists_reads_foldl (.name (Text.localName qualified) .unknown) segments
    rw [toSource, hfold]
    exact he.withSpan span

end Destination

end Bindery
