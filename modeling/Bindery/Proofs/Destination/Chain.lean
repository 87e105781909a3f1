import Bindery.Destination.Lvalue
import Bindery.Proofs.Destination.Reading
import Bindery.Symbol.Table
import Mathlib.Data.List.Basic

/-!
# Property chains

What can be assigned to is a chain: a name, followed by further names, each of them perhaps with a
constant element number. The chains and the places where they start are described here apart from
the functions that find them. A destination can be read as a chain as well, and chain and
destination have the same text.
-/

namespace Bindery

/-! ## Expressions -/

/-- An expression is a chain of property names with these segments. -/
inductive Expr.IsChain : Expr → List Segment → Prop
  | name (name : String) (span : Span) : IsChain (.identifier name span) [{ name := name }]
  | own (name : String) (selfSpan span : Span) :
    IsChain (.member (.self selfSpan) name span) [{ name := name }]
  | member {object : Expr} {segments : List Segment} (name : String) (span : Span) :
    IsChain object segments → IsChain (.member object name span) (segments ++ [{ name := name }])
  | element {object : Expr} {segments : List Segment} {name : String} {i : Int32}
    (numberSpan span : Span) : IsChain object (segments ++ [{ name := name }]) → 0 ≤ i →
    IsChain (.index object (.literal (.int i) numberSpan) span)
      (segments ++ [{ name, index := some i.toInt.toNat }])

/-- Only a segment without a number can be marked with one, and only the last one is. -/
theorem markLast?_eq_some_iff {i : Int32} {segments marked : List Segment} :
    markLast? i segments = some marked ↔ 0 ≤ i ∧ ∃ before name,
      segments = before ++ [{ name := name }] ∧
        marked = before ++ [{ name, index := some i.toInt.toNat }] := by
  induction segments generalizing marked with
  | nil => simp [markLast?]
  | cons segment rest ih =>
    cases rest with
    | nil =>
      obtain ⟨name, index⟩ := segment
      rw [markLast?]
      constructor
      · intro h
        split at h
        · simp at h
        · next hmark =>
          obtain ⟨hindex, hi⟩ := not_or.mp hmark
          obtain rfl : index = none := by simpa using hindex
          exact ⟨Int32.not_lt.mp hi, [], name, rfl, (Option.some.inj h).symm⟩
      · rintro ⟨hi, before, name', hbefore, rfl⟩
        cases before with
        | nil =>
          obtain ⟨rfl, rfl⟩ := Segment.mk.inj (List.cons.inj hbefore).1
          simp [Int32.not_lt.mpr hi]
        | cons first before => simp at hbefore
    | cons second rest =>
      rw [markLast?, Option.map_eq_some_iff]
      · constructor
        · rintro ⟨marked', hmarked, rfl⟩
          obtain ⟨hi, before, name, hbefore, rfl⟩ := ih.mp hmarked
          exact ⟨hi, segment :: before, name, by rw [hbefore]; rfl, rfl⟩
        · rintro ⟨hi, before, name, hbefore, rfl⟩
          cases before with
          | nil => simp at hbefore
          | cons first before =>
            obtain ⟨rfl, hrest⟩ := List.cons.inj hbefore
            exact ⟨_, ih.mpr ⟨hi, before, name, hrest, rfl⟩, rfl⟩
      · simp

namespace Expr

variable {e : Expr} {segments : List Segment}

theorem IsChain.ne_nil (h : e.IsChain segments) : segments ≠ [] := by
  cases h <;> simp

theorem IsChain.ne_self (h : e.IsChain segments) (span : Span) : e ≠ self span := by
  cases h <;> simp

/-- The segments of an expression are those of the chain that it is. -/
theorem segments?_eq_some_iff : e.segments? = some segments ↔ e.IsChain segments := by
  constructor
  · intro h
    fun_induction segments? e generalizing segments with
    | case1 name span =>
      obtain rfl := Option.some.inj h
      exact .name name span
    | case2 selfSpan name span =>
      obtain rfl := Option.some.inj h
      exact .own name selfSpan span
    | case3 object name span _ ih =>
      obtain ⟨segments, hobject, rfl⟩ := Option.map_eq_some_iff.mp h
      exact .member name span (ih hobject)
    | case4 object i numberSpan span ih =>
      obtain ⟨marked, hobject, hmark⟩ := Option.bind_eq_some_iff.mp h
      obtain ⟨hi, before, name, rfl, rfl⟩ := markLast?_eq_some_iff.mp hmark
      exact .element numberSpan span (ih hobject) hi
    | case5 => simp at h
  · intro h
    induction h with
    | name | own => rfl
    | member name span hobject ih =>
      rw [segments?, ih]
      · rfl
      · exact fun span => hobject.ne_self span
    | element numberSpan span _ hi ih =>
      rw [segments?, ih]
      exact markLast?_eq_some_iff.mpr ⟨hi, _, _, rfl, rfl⟩

/-- The numbers in a chain are 32-bit words that are not negative. -/
theorem IsChain.index_lt (h : e.IsChain segments) :
    ∀ segment ∈ segments, ∀ i ∈ segment.index, i < 0x80000000 := by
  induction h with
  | name | own => simp
  | member name span _ ih =>
    intro segment hsegment
    rcases List.mem_append.mp hsegment with hsegment | hsegment
    · exact ih segment hsegment
    · simp [List.mem_singleton.mp hsegment]
  | @element object segments name number numberSpan span _ hi ih =>
    intro segment hsegment i hindex
    rcases List.mem_append.mp hsegment with hsegment | hsegment
    · exact ih segment (List.mem_append_left _ hsegment) i hindex
    · rw [List.mem_singleton.mp hsegment] at hindex
      obtain rfl := Option.some.inj hindex
      have := number.toInt_lt
      omega

end Expr

/-! ## Texts -/

/-- The text of segments in a chain. -/
def chainText (segments : List Segment) : String :=
  String.intercalate "." (segments.map Segment.text)

/-- A segment with a small number is read as it is written. -/
theorem Segment.text_reading {segment : Segment} (hindex : ∀ i ∈ segment.index, i < 0x80000000) :
    segment.reading.text = segment.text := by
  obtain ⟨name, index⟩ := segment
  cases index with
  | none => rfl
  | some i =>
    have htext : toString (Int32.ofNat i).toInt = toString i := by
      rw [Int32.toInt_ofNat_of_lt (hindex i rfl)]
      rfl
    simp only [reading, Reading.text, text, Option.map_some, htext]

/-- A chain reads its segments. -/
theorem Expr.IsChain.reads {e : Expr} {segments : List Segment} (h : e.IsChain segments) :
    e.Reads (segments.map Segment.reading) := by
  induction h with
  | name name span => exact .name name span
  | own name selfSpan span => exact .own name selfSpan span
  | member name span _ ih =>
    rw [List.map_append]
    exact ih.member name span
  | @element object segments name i numberSpan span _ hi ih =>
    have hnumber : Int32.ofNat i.toInt.toNat = i := Int32.ofNat_toNatClampNeg i hi
    have hreading : Segment.reading { name, index := some i.toInt.toNat } =
        { name, number := some i } := by
      rw [Segment.reading, Option.map_some, hnumber]
    rw [List.map_append] at ih ⊢
    rw [List.map_singleton, hreading]
    exact ih.element i numberSpan span

/-- What a reading is in a chain. -/
def Reading.segment (reading : Reading) : Segment :=
  { name := reading.name, index := reading.number.map (·.toInt.toNat) }

/-- Readings whose numbers are not negative are a chain. -/
theorem Expr.Reads.isChain {e : Expr} {readings : List Reading} (h : e.Reads readings)
    (hnumber : ∀ reading ∈ readings, ∀ i ∈ reading.number, 0 ≤ i) :
    e.IsChain (readings.map Reading.segment) := by
  induction h with
  | name name span => exact .name name span
  | own name selfSpan span => exact .own name selfSpan span
  | member name span _ ih =>
    rw [List.map_append]
    exact (ih fun reading hmem => hnumber reading (List.mem_append_left _ hmem)).member name span
  | element i numberSpan span _ ih =>
    obtain ⟨hbefore, hlast⟩ := List.forall_mem_append.mp hnumber
    rw [List.map_append] at ih ⊢
    refine (ih (List.forall_mem_append.mpr ⟨hbefore, by simp⟩)).element numberSpan span ?_
    exact hlast _ (List.mem_singleton.mpr rfl) i rfl

/-- A small number is read as it is. -/
theorem Segment.segment_reading {segment : Segment}
    (hindex : ∀ i ∈ segment.index, i < 0x80000000) : segment.reading.segment = segment := by
  obtain ⟨name, index⟩ := segment
  cases index with
  | none => rfl
  | some i =>
    have htoNat : (Int32.ofNat i).toInt.toNat = i := by
      rw [Int32.toInt_ofNat_of_lt (hindex i rfl), Int.toNat_natCast]
    rw [reading, Reading.segment, Option.map_some, Option.map_some, htoNat]

/-- A small number is not negative when it is read. -/
theorem Segment.number_reading_nonneg {segment : Segment}
    (hindex : ∀ i ∈ segment.index, i < 0x80000000) : ∀ i ∈ segment.reading.number, 0 ≤ i := by
  intro number hnumber
  obtain ⟨i, hi, rfl⟩ := Option.map_eq_some_iff.mp hnumber
  rw [Int32.le_iff_toInt_le, Int32.toInt_ofNat_of_lt (hindex i hi)]
  exact Int.natCast_nonneg i

/-- A chain is written as its segments are. -/
theorem Expr.IsChain.text_eq {e : Expr} {segments : List Segment} (h : e.IsChain segments) :
    e.text = chainText segments := by
  rw [h.reads.text_eq, readingsText, List.map_map, chainText]
  congr 1
  exact List.map_congr_left fun segment hsegment =>
    Segment.text_reading (h.index_lt segment hsegment)

/-! ## Plain names -/

/-- A name in which nothing can be taken for a step of a chain. -/
def Segment.IsPlain (segment : Segment) : Prop :=
  '.' ∉ segment.name.toList ∧ '[' ∉ segment.name.toList

instance (segment : Segment) : Decidable segment.IsPlain := inferInstanceAs (Decidable (_ ∧ _))

namespace Segment

/-- The characters of a segment with a number. -/
theorem toList_text_some (name : String) (i : Nat) :
    (Segment.text { name, index := some i }).toList =
      name.toList ++ '[' :: (Nat.toDigits 10 i ++ [']']) := by
  simp [text, Nat.toString_eq_repr, Nat.repr]

theorem notMem_toDigits {c : Char} (hc : c.isDigit = false) (i : Nat) :
    c ∉ Nat.toDigits 10 i := by
  intro hmem
  have := Nat.isDigit_of_mem_toDigits (by decide) (by decide) hmem
  simp [hc] at this

/-- The text of a plain segment holds no dot. -/
theorem IsPlain.notMem_text {segment : Segment} (h : segment.IsPlain) :
    '.' ∉ segment.text.toList := by
  obtain ⟨name, index⟩ := segment
  cases index with
  | none => exact h.1
  | some i =>
    rw [toList_text_some]
    simp [h.1, notMem_toDigits (c := '.') (by decide) i]

/-- Plain segments with the same text are the same. -/
theorem IsPlain.eq_of_text_eq {segment other : Segment} (h : segment.IsPlain)
    (h' : other.IsPlain) (heq : segment.text = other.text) : segment = other := by
  obtain ⟨name, index⟩ := segment
  obtain ⟨name', index'⟩ := other
  have hlist := congrArg String.toList heq
  cases index with
  | none =>
    cases index' with
    | none => rw [show name = name' from heq]
    | some j =>
      rw [toList_text_some] at hlist
      have : '[' ∈ name.toList := by
        rw [show name.toList = _ from hlist]
        simp
      exact absurd this h.2
  | some i =>
    cases index' with
    | none =>
      rw [toList_text_some] at hlist
      have : '[' ∈ name'.toList := by
        rw [show name'.toList = _ from hlist.symm]
        simp
      exact absurd this h'.2
    | some j =>
      have hplain : '[' ∉ name.toList := h.2
      have hrest : '[' ∉ Nat.toDigits 10 i ++ [']'] := by
        simp [notMem_toDigits (c := '[') (by decide) i]
      rw [toList_text_some, toList_text_some,
        List.append_cons_inj_of_notMem hplain hrest] at hlist
      obtain ⟨hname, -, hdigits⟩ := hlist
      have hnumber : i = j := by
        rw [← Nat.ofDigitChars_ten_toDigits (n := i), List.append_cancel_right hdigits,
          Nat.ofDigitChars_ten_toDigits]
      rw [String.ext_iff.mpr hname, hnumber]

end Segment

/-- Chains of plain segments with the same text are the same. -/
theorem eq_of_chainText_eq {segments others : List Segment} (hne : segments ≠ [])
    (hne' : others ≠ []) (h : ∀ segment ∈ segments, segment.IsPlain)
    (h' : ∀ segment ∈ others, segment.IsPlain) (heq : chainText segments = chainText others) :
    segments = others := by
  have hsplit {chain : List Segment} (hchain : chain ≠ [])
      (hplain : ∀ segment ∈ chain, segment.IsPlain) :
      (chainText chain).toList.splitOn '.' = chain.map (fun segment => segment.text.toList) := by
    rw [chainText, String.toList_intercalate, List.map_map]
    refine List.splitOn_intercalate '.' (fun text htext => ?_) (by simpa using hchain)
    obtain ⟨segment, hsegment, rfl⟩ := List.mem_map.mp htext
    exact (hplain segment hsegment).notMem_text
  have hmap := (hsplit hne h).symm.trans
    ((congrArg (·.toList.splitOn '.') heq).trans (hsplit hne' h'))
  clear hne hne' heq hsplit
  induction segments generalizing others with
  | nil => simpa using hmap.symm
  | cons first rest ih =>
    cases others with
    | nil => simp at hmap
    | cons first' rest' =>
      obtain ⟨hfirst, hrest⟩ := List.cons.inj hmap
      rw [(h first List.mem_cons_self).eq_of_text_eq (h' first' List.mem_cons_self)
          (String.ext_iff.mpr hfirst),
        ih (fun s hs => h s (List.mem_cons_of_mem _ hs))
          (fun s hs => h' s (List.mem_cons_of_mem _ hs)) hrest]

/-! ## Destinations -/

namespace Destination

/-- A destination is written as its chain. -/
theorem text_eq (destination : Destination) : destination.text = chainText destination.chain := by
  obtain ⟨root, segments, toText, span⟩ := destination
  cases root <;> rfl

/-- The element numbers of a destination are 32-bit words that are not negative. -/
def HasSmallIndexes (destination : Destination) : Prop :=
  ∀ segment ∈ destination.segments, ∀ i ∈ segment.index, i < 0x80000000

/-- The name of a class has no number, so the numbers of a chain are those of its segments. -/
theorem hasSmallIndexes_iff {destination : Destination} : destination.HasSmallIndexes ↔
    ∀ segment ∈ destination.chain, ∀ i ∈ segment.index, i < 0x80000000 := by
  obtain ⟨root, segments, toText, span⟩ := destination
  cases root <;> simp [HasSmallIndexes, chain, DestinationRoot.segments]

/-- The expression that reads a destination is the chain of the destination, as long as the element
numbers are small. -/
theorem isChain_toSource_iff {destination : Destination} (hne : destination.chain ≠ []) :
    destination.toSource.IsChain destination.chain ↔ destination.HasSmallIndexes := by
  constructor
  · intro h
    exact hasSmallIndexes_iff.mpr h.index_lt
  · intro hindexes
    have hsmall := hasSmallIndexes_iff.mp hindexes
    have hchain := (reads_toSource hne).isChain (List.forall_mem_map.mpr fun segment hsegment =>
      Segment.number_reading_nonneg (hsmall segment hsegment))
    have hsame : (destination.chain.map Segment.reading).map Reading.segment =
        destination.chain := by
      rw [List.map_map]
      exact (List.map_congr_left fun segment hsegment =>
        Segment.segment_reading (hsmall segment hsegment)).trans (List.map_id _)
    rwa [hsame] at hchain

/-- A destination has the text of the expression that reads it. -/
theorem text_toSource {destination : Destination} (hne : destination.chain ≠ [])
    (hindex : destination.HasSmallIndexes) : destination.toSource.text = destination.text := by
  rw [((isChain_toSource_iff hne).mpr hindex).text_eq, text_eq]

end Destination

/-! ## Where chains start -/

/-- A chain starts at a member of the document, or at a class that has no member's name and behind
which more segments follow. The last argument are the segments from there on. -/
inductive Resolver.Locates (resolver : Resolver) :
    List Segment → DestinationRoot → List Segment → Prop
  | document {first : Segment} {definition : Definition} (rest : List Segment) :
    resolver.documentMember? first.name = some definition →
    Locates resolver (first :: rest) .document (first :: rest)
  | classObject {first : Segment} {definition : Definition} {rest : List Segment} :
    resolver.documentMember? first.name = none → resolver.global? first.name = some definition →
    definition.isClass → first.index = none → rest ≠ [] →
    Locates resolver (first :: rest) (.classObject (definition.type.getD first.name)) rest

theorem Resolver.locate?_eq_some_iff {resolver : Resolver} {segments rest : List Segment}
    {root : DestinationRoot} :
    resolver.locate? segments = some (root, rest) ↔ resolver.Locates segments root rest := by
  constructor
  · intro h
    cases segments with
    | nil => simp [locate?] at h
    | cons first more =>
      rw [locate?] at h
      split at h
      · next hmember =>
        obtain ⟨definition, hmember⟩ := Option.isSome_iff_exists.mp hmember
        obtain ⟨rfl, rfl⟩ := Prod.mk.inj (Option.some.inj h)
        exact .document more hmember
      · next hmember =>
        obtain ⟨qualified, hclass, heq⟩ := Option.map_eq_some_iff.mp h
        obtain ⟨rfl, rfl⟩ := Prod.mk.inj heq
        obtain ⟨definition, hglobal, hclass⟩ := Option.bind_eq_some_iff.mp hclass
        by_cases hguard : definition.isClass ∧ more ≠ [] ∧ first.index = none
        · simp only [guard, if_pos hguard, Option.pure_def, Option.bind_eq_bind, Option.bind_some,
            Option.some.injEq] at hclass
          subst hclass
          exact .classObject (by simpa using hmember) hglobal hguard.1 hguard.2.2 hguard.2.1
        · rw [guard, if_neg hguard] at hclass
          exact absurd (show none = some qualified from hclass) (by simp)
  · intro h
    cases h with
    | document rest hmember => simp [locate?, hmember]
    | classObject hmember hglobal hclass hindex hrest =>
      simp [locate?, classRoot?, hmember, hglobal, hclass, hindex, hrest, guard]

/-- Behind the place where a chain starts there is something. -/
theorem Resolver.Locates.ne_nil {resolver : Resolver} {segments rest : List Segment}
    {root : DestinationRoot} (h : resolver.Locates segments root rest) : rest ≠ [] := by
  cases h with
  | document rest _ => exact List.cons_ne_nil _ rest
  | classObject _ _ _ _ hrest => exact hrest

/-- What is left of a chain is its end. -/
theorem Resolver.Locates.isSuffix {resolver : Resolver} {segments rest : List Segment}
    {root : DestinationRoot} (h : resolver.Locates segments root rest) : rest <:+ segments := by
  cases h with
  | document rest _ => exact List.suffix_refl _
  | classObject => exact List.suffix_cons _ _

/-- Every class is found under its own name without the package. -/
def Resolver.FindsClassesLocally (resolver : Resolver) : Prop :=
  ∀ name definition, resolver.global? name = some definition → definition.isClass →
    Text.localName (definition.type.getD name) = name

/-- In a symbol table this can be seen from the names that are visible everywhere. -/
theorem SymbolTable.findsClassesLocally {table : SymbolTable}
    (h : ∀ entry ∈ table.globals, entry.2.isClass →
      Text.localName (entry.2.type.getD entry.1) = entry.1) :
    table.resolver.FindsClassesLocally :=
  fun _ _ hglobal => h _ (Dictionary.mem_of_get? hglobal)

/-- Where classes are found under their own names, the chain is what it was before it was
located. -/
theorem Resolver.Locates.segments_append {resolver : Resolver} {segments rest : List Segment}
    {root : DestinationRoot} (h : resolver.Locates segments root rest)
    (hlocal : resolver.FindsClassesLocally) : root.segments ++ rest = segments := by
  cases h with
  | document rest hmember => rfl
  | @classObject first definition rest _ hglobal hclass hindex _ =>
    obtain ⟨name, index⟩ := first
    obtain rfl : index = none := hindex
    rw [DestinationRoot.segments, hlocal name definition hglobal hclass]
    rfl

/-- An expression names a destination if it is a chain that starts somewhere. -/
theorem Expr.placement_eq_resolved_iff {resolver : Resolver} {toText : Bool} {e : Expr}
    {destination : Destination} :
    (e.placement resolver toText).1 = .resolved destination ↔ ∃ segments, e.IsChain segments ∧
      resolver.Locates segments destination.root destination.segments ∧
      destination.toText = toText ∧ destination.span = e.span := by
  simp only [← segments?_eq_some_iff, ← Resolver.locate?_eq_some_iff]
  unfold placement
  cases e.segments? with
  | none => simp
  | some segments =>
    cases hlocate : resolver.locate? segments with
    | none => simp [hlocate]
    | some located =>
      obtain ⟨root, rest⟩ := located
      obtain ⟨root', rest', toText', span⟩ := destination
      simp [hlocate, and_assoc, eq_comm]

/-- A resolved destination has the chain of the expression that names it. -/
theorem Expr.isChain_of_placement {resolver : Resolver} {toText : Bool} {e : Expr}
    {destination : Destination} (hlocal : resolver.FindsClassesLocally)
    (h : (e.placement resolver toText).1 = .resolved destination) :
    e.IsChain destination.chain := by
  obtain ⟨segments, hchain, hlocates, -, -⟩ := placement_eq_resolved_iff.mp h
  rwa [Destination.chain, hlocates.segments_append hlocal]

/-- A resolved destination has the text of the expression that names it. -/
theorem Expr.text_of_placement {resolver : Resolver} {toText : Bool} {e : Expr}
    {destination : Destination} (hlocal : resolver.FindsClassesLocally)
    (h : (e.placement resolver toText).1 = .resolved destination) :
    destination.text = e.text := by
  rw [(isChain_of_placement hlocal h).text_eq, destination.text_eq]

end Bindery
