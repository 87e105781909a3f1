import Bindery.Document.Walk
import Bindery.Proofs.Binding.Visits
import Bindery.Proofs.Decimal.Numerals

/-!
# Element numbers of places

An embedded expression inside a data model has a destination whose element numbers come from the
tree and may be of any size. What reads that destination goes through the same names, but with
element numbers of 32 bits. It has the text of the destination, and is its chain, exactly if all
element numbers are below 2147483648. Otherwise the reverse half of a two-way binding reads another
element than the forward half writes.
-/

namespace Bindery

/-! ## Texts -/

/-- The characters of a reading with a number. -/
theorem Reading.toList_text_some (name : String) (i : Int32) :
    (Reading.text { name, number := some i }).toList =
      name.toList ++ '[' :: ((toString i.toInt).toList ++ [']']) := by
  simp [text]

namespace Segment

/-- An integer is written with digits and, where it is negative, a sign. -/
theorem notMem_toString_int {c : Char} (hc : c.isDigit = false) (hsign : c ≠ '-') (i : Int) :
    c ∉ (toString i).toList := by
  rw [Decimal.toList_toString_int, Decimal.signText]
  split <;> simp [notMem_toDigits hc, hsign]

/-- Where the text of what is read for a segment stands in place of the text of the segment, the
number of the segment is small. -/
theorem index_lt_of_text_reading {segment : Segment} {rest rest' : List Char}
    (h : segment.reading.text.toList ++ rest = segment.text.toList ++ rest') :
    (∀ i ∈ segment.index, i < 0x80000000) ∧ rest = rest' := by
  obtain ⟨name, index⟩ := segment
  cases index with
  | none => exact ⟨by simp, List.append_cancel_left h⟩
  | some i =>
    rw [reading, Option.map_some, Reading.toList_text_some, toList_text_some] at h
    simp only [List.append_assoc, List.cons_append, List.nil_append,
      List.append_cancel_left_eq, List.cons.injEq, true_and] at h
    -- Both numbers go up to the first closing bracket.
    have hrun {digits : List Char} (hnone : ']' ∉ digits) :
        ∀ c ∈ digits, (c != ']') = true :=
      fun c hc => bne_iff_ne.mpr fun heq => hnone (heq ▸ hc)
    obtain ⟨hdigits, hrest⟩ := Text.append_inj_of_run
      (hrun (notMem_toString_int (by decide) (by decide) _))
      (hrun (notMem_toDigits (by decide) i)) (by simp) (by simp) h
    have hnumber : (Int32.ofNat i).toInt = i := by
      refine Decimal.int_eq_of_text_eq (String.toList_inj.mp ?_)
      rw [hdigits, Decimal.toList_toString_int]
      simp [Decimal.signText]
    refine ⟨fun j hj => ?_, (List.cons.inj hrest).2⟩
    obtain rfl := Option.some.inj hj
    have := (Int32.ofNat i).toInt_lt
    omega

end Segment

/-- If a chain is read as it is written, its numbers are small. -/
theorem index_lt_of_readingsText {segments : List Segment}
    (h : readingsText (segments.map Segment.reading) = chainText segments) :
    ∀ segment ∈ segments, ∀ i ∈ segment.index, i < 0x80000000 := by
  induction segments with
  | nil => simp
  | cons segment segments ih =>
    cases segments with
    | nil =>
      have htext : segment.reading.text = segment.text := by
        simpa [readingsText, chainText] using h
      have hlist : segment.reading.text.toList ++ [] = segment.text.toList ++ [] := by rw [htext]
      simpa using (Segment.index_lt_of_text_reading hlist).1
    | cons next more =>
      have htexts {texts : List String} (text : String) (hne : texts ≠ []) :
          (String.intercalate "." (text :: texts)).toList =
            text.toList ++ '.' :: (String.intercalate "." texts).toList := by
        simp [String.intercalate_cons_of_ne_nil hne]
      have hlist := congrArg String.toList h
      simp only [readingsText, chainText, List.map_cons] at hlist
      rw [htexts segment.reading.text (by simp), htexts segment.text (by simp)] at hlist
      obtain ⟨hsegment, hrest⟩ := Segment.index_lt_of_text_reading hlist
      have hmore := ih (String.toList_inj.mp (List.cons.inj hrest).2)
      exact List.forall_mem_cons.mpr ⟨hsegment, hmore⟩

/-- What reads a destination has its text exactly if the element numbers are small. -/
theorem Destination.text_toSource_iff {destination : Destination} (hne : destination.chain ≠ []) :
    destination.toSource.text = destination.text ↔ destination.HasSmallIndexes := by
  constructor
  · intro h
    rw [(reads_toSource hne).text_eq, text_eq] at h
    exact hasSmallIndexes_iff.mpr (index_lt_of_readingsText h)
  · exact text_toSource hne

/-! ## Places -/

namespace Document

/-- **What reads a place.** The expression that reads the destination of an embedded expression goes
through the same names in the same order, with the element numbers as 32-bit words. It has the same
numbers at each step, and the same text, exactly if they are all below 2147483648. -/
theorem reads_toSource_of_placement {doc : Document} {node : Nat} {destination : Destination}
    (h : (doc.placement node).1 = .resolved destination) :
    destination.toSource.Reads (destination.segments.map Segment.reading) ∧
      (destination.toSource.IsChain destination.segments ↔ destination.HasSmallIndexes) ∧
      (destination.toSource.text = destination.text ↔ destination.HasSmallIndexes) := by
  obtain ⟨hroot, hsegments⟩ := root_and_segments_of_placement h
  have hchain : destination.chain = destination.segments := by
    rw [Destination.chain, hroot]
    rfl
  have hne : destination.chain ≠ [] := by rwa [hchain]
  have hreads := Destination.reads_toSource hne
  have hsmall := Destination.isChain_toSource_iff hne
  rw [hchain] at hreads hsmall
  exact ⟨hreads, hsmall, Destination.text_toSource_iff hne⟩

/-- A model with an array, in which an item of this number has a name that is an embedded
expression. -/
def itemDocument (index : Nat) : Document :=
  ofClass "Main"
    |>.add 0 (.model (some "m")) .unknown
    |>.add 1 .modelRoot .unknown
    |>.add 2 (.modelProperty "items" (some index)) .unknown
    |>.add 3 (.modelProperty "name" none) .unknown
    |>.add 4 (.data (.identifier "title" .unknown) true) .unknown

/-- The destination of that expression. -/
def itemPlace (index : Nat) : Destination where
  root := .document
  segments := [{ name := "m" }, { name := "items", index := some index }, { name := "name" }]
  toText := false
  span := .unknown

/-- The name of the third item is read under the text under which it is stored. -/
theorem reads_toSource_of_placement_item :
    ((itemDocument 2).placement 5).1 = .resolved (itemPlace 2) ∧
      (itemPlace 2).toSource.IsChain (itemPlace 2).segments ∧
      (itemPlace 2).toSource.text = "m.items[2].name" := by
  have hplaced : ((itemDocument 2).placement 5).1 = .resolved (itemPlace 2) := by decide
  have hsmall : (itemPlace 2).HasSmallIndexes := by
    simp [Destination.HasSmallIndexes, itemPlace]
  obtain ⟨-, hchain, htext⟩ := reads_toSource_of_placement hplaced
  exact ⟨hplaced, hchain.mpr hsmall, (htext.mpr hsmall).trans (by decide)⟩

/-- An item with the number 4294967296 is stored under that number, but read as the first one. -/
theorem item_read_as_first :
    5 ∈ (itemDocument 4294967296).walk ∧
      ((itemDocument 4294967296).placement 5).1 = .resolved (itemPlace 4294967296) ∧
      (itemPlace 4294967296).text = "m.items[4294967296].name" ∧
      (itemPlace 4294967296).toSource.text = "m.items[0].name" ∧
      (itemPlace 4294967296).toSource.Reads
        [{ name := "m" }, { name := "items", number := some 0 }, { name := "name" }] := by
  have hne : (itemPlace 4294967296).chain ≠ [] := by decide
  exact ⟨by decide, by decide, by decide, by decide, Destination.reads_toSource hne⟩

end Document

end Bindery
