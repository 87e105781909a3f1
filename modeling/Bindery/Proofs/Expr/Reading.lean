import Bindery.Proofs.Expr.Endings

/-!
# Canonical texts are read in one way

Two expressions that are written alike are the same, but for what is not written at all, and for
numbers: a whole number may be written like an integer. The proof compares two expressions from the
right to the left. The last operand and what is in front of it are found first, so that the
induction is on the size of both expressions together.
-/

namespace Bindery

/-! ## Comparable expressions -/

/-- Two legible expressions. Numbers in them that are written alike are the same. -/
structure Comparable (e e' : Expr) : Prop where
  legible : ∀ part ∈ e.parts, part.IsLegible
  legible' : ∀ part ∈ e'.parts, part.IsLegible
  numbers : ∀ value span, .literal value span ∈ e.parts →
    ∀ value' span', .literal value' span' ∈ e'.parts → value.isNumber → value'.isNumber →
      value.text = value'.text → value = value'

namespace Comparable

variable {e e' part part' : Expr}

theorem symm (h : Comparable e e') : Comparable e' e where
  legible := h.legible'
  legible' := h.legible
  numbers value span hmem value' span' hmem' hnumber hnumber' htext :=
    (h.numbers value' span' hmem' value span hmem hnumber' hnumber htext.symm).symm

/-- Parts of comparable expressions are comparable. -/
theorem mono (h : Comparable e e') (hparts : part.parts ⊆ e.parts)
    (hparts' : part'.parts ⊆ e'.parts) : Comparable part part' where
  legible := fun _ hmem => h.legible _ (hparts hmem)
  legible' := fun _ hmem => h.legible' _ (hparts' hmem)
  numbers value span hmem value' span' hmem' :=
    h.numbers value span (hparts hmem) value' span' (hparts' hmem')

theorem isLegible (h : Comparable e e') : e.IsLegible := h.legible e e.mem_parts_self

theorem isLegible' (h : Comparable e e') : e'.IsLegible := h.legible' e' e'.mem_parts_self

end Comparable

/-- Wherever both expressions are operands of the same strength, a common text is read as the same
operand, and the same remains. -/
def SameReading (e e' : Expr) : Prop :=
  ∀ needed ≤ Expr.atomStrength, ∀ rest rest', Stops needed rest → Stops needed rest' →
    e.operandBack needed ++ rest = e'.operandBack needed ++ rest' →
      e.bare = e'.bare ∧ rest = rest'

theorem SameReading.symm {e e' : Expr} (h : SameReading e e') : SameReading e' e := by
  intro needed hneeded rest rest' hrest hrest' heq
  obtain ⟨hbare, hrests⟩ := h needed hneeded rest' rest hrest' hrest heq.symm
  exact ⟨hbare.symm, hrests.symm⟩

/-- Without an operator outside, a text is read as a whole. -/
theorem SameReading.back {e e' : Expr} (h : SameReading e e') {rest rest' : List Char}
    (hrest : Stops 1 rest) (hrest' : Stops 1 rest') (heq : e.back ++ rest = e'.back ++ rest') :
    e.bare = e'.bare ∧ rest = rest' := by
  rw [← Expr.operandBack_one, ← Expr.operandBack_one] at heq
  exact h 1 (by decide) rest rest' hrest hrest' heq

/-- Comparable expressions that are smaller than two others are read in one way. -/
def ReadsBelow (e e' : Expr) : Prop :=
  ∀ part part', sizeOf part + sizeOf part' < sizeOf e + sizeOf e' → Comparable part part' →
    SameReading part part'

theorem ReadsBelow.symm {e e' : Expr} (h : ReadsBelow e e') : ReadsBelow e' e := by
  intro part part' hsize hcomparable
  exact (h part' part (by omega) hcomparable.symm).symm

/-! ## The last character -/

namespace Expr

/-- No text of an atom ends with something that can be in front of an operand. -/
theorem exists_back_of_atom {e : Expr} (hlegible : e.IsLegible)
    (hatom : e.strength = atomStrength) :
    ∃ c rest, e.back = c :: rest ∧ c ∉ [' ', '(', '['] := by
  obtain ⟨c, rest, hback, hc⟩ := exists_back_eq hlegible hatom
  refine ⟨c, rest, hback, ?_⟩
  rcases hc with hmark | ⟨-, hword⟩
  · rcases cases_of_mark hmark with ⟨rfl, -⟩ | ⟨rfl, -⟩ | ⟨rfl, -⟩ <;> decide
  · intro hmem
    simp [(Text.eq_false_of_mem_stops hmem).1] at hword

/-- An operand ends like the expression, or with a bracket. -/
theorem exists_operandBack_of_back {e : Expr}
    (h : ∃ c rest, e.back = c :: rest ∧ c ∉ [' ', '(', '[']) (needed : Nat) :
    ∃ c rest, e.operandBack needed = c :: rest ∧ c ∉ [' ', '(', '['] := by
  by_cases hlt : e.strength < needed
  · exact ⟨')', _, operandBack_of_lt hlt, by decide⟩
  · rwa [operandBack_of_le (by omega)]

/-- No text ends with something that can be in front of an operand. -/
theorem exists_back : (e : Expr) → (∀ part ∈ e.parts, part.IsLegible) →
    ∃ c rest, e.back = c :: rest ∧ c ∉ [' ', '(', '[']
  | .binary op left right span, h => by
    have hright := exists_back right fun part hpart => h part (parts_subset_of_right hpart)
    obtain ⟨c, rest, hoperand, hc⟩ := exists_operandBack_of_back hright (op.strength + 1)
    rw [back_binary, hoperand]
    exact ⟨c, _, rfl, hc⟩
  | .self _, h | .identifier .., h | .member .., h | .index .., h | .call .., h
  | .literal .., h => exists_back_of_atom (h _ (mem_parts_self _)) rfl
  | .concat .., h => absurd (h _ (mem_parts_self _)) not_false

/-- In front of an operand there is nothing that ends like one. -/
theorem not_stops_operandBack {e : Expr} (hlegible : ∀ part ∈ e.parts, part.IsLegible)
    (needed strength : Nat) (rest : List Char) :
    ¬Stops needed (e.operandBack strength ++ rest) := by
  obtain ⟨c, more, hoperand, hc⟩ := exists_operandBack_of_back (exists_back e hlegible) strength
  rw [hoperand]
  exact Stops.not_cons hc

end Expr

/-! ## Arguments -/

/-- No argument starts an empty list of arguments. -/
theorem Expr.back_append_ne_paren {e : Expr} (hlegible : ∀ part ∈ e.parts, part.IsLegible)
    (more rest : List Char) : e.back ++ more ≠ '(' :: rest := by
  obtain ⟨c, back, hback, hc⟩ := exists_back e hlegible
  rw [hback]
  rintro heq
  obtain rfl := (List.cons.inj heq).1
  exact hc (by simp)

/-- The arguments of two calls are read in one way if this holds of every two of them. -/
theorem argsBack_append_inj {args args' : List Expr}
    (hreads : ∀ arg ∈ args, ∀ arg' ∈ args', SameReading arg arg')
    (hlegible : ∀ arg ∈ args, ∀ part ∈ arg.parts, part.IsLegible)
    (hlegible' : ∀ arg ∈ args', ∀ part ∈ arg.parts, part.IsLegible) {rest rest' : List Char}
    (h : Expr.argsBack args ++ '(' :: rest = Expr.argsBack args' ++ '(' :: rest') :
    args.map Expr.bare = args'.map Expr.bare ∧ rest = rest' := by
  induction args using List.reverseRecOn generalizing args' with
  | nil =>
    rcases args'.eq_nil_or_concat with rfl | ⟨before', last', rfl⟩
    · exact ⟨rfl, (List.cons.inj h).2⟩
    · rw [List.concat_eq_append, Expr.argsBack_append_singleton, List.append_assoc] at h
      exact absurd h.symm (Expr.back_append_ne_paren (hlegible' last' (by simp)) _ _)
  | append_singleton before last ih =>
    rw [Expr.argsBack_append_singleton, List.append_assoc] at h
    rcases args'.eq_nil_or_concat with rfl | ⟨before', last', rfl⟩
    · exact absurd h (Expr.back_append_ne_paren (hlegible last (by simp)) _ _)
    · rw [List.concat_eq_append] at hreads hlegible' h ⊢
      rw [Expr.argsBack_append_singleton, List.append_assoc] at h
      obtain ⟨hlast, hbefore⟩ := (hreads last (by simp) last' (by simp)).back
        (Expr.stops_argsBefore before rest) (Expr.stops_argsBefore before' rest') h
      have hbefores : before.map Expr.bare = before'.map Expr.bare ∧ rest = rest' := by
        by_cases hnil : before = [] <;> by_cases hnil' : before' = []
        · subst hnil hnil'
          exact ⟨rfl, (List.cons.inj hbefore).2⟩
        · simp [Expr.argsBefore, hnil, hnil'] at hbefore
        · simp [Expr.argsBefore, hnil, hnil'] at hbefore
        · simp only [Expr.argsBefore, hnil, hnil', if_false, List.cons_append] at hbefore
          exact ih (fun arg harg arg' harg' => hreads arg (by simp [harg]) arg' (by simp [harg']))
            (fun arg harg => hlegible arg (by simp [harg]))
            (fun arg harg => hlegible' arg (by simp [harg]))
            (List.cons.inj (List.cons.inj hbefore).2).2
      exact ⟨by rw [List.map_append, List.map_append, hbefores.1, List.map_singleton,
        List.map_singleton, hlast], hbefores.2⟩

/-! ## One step of the comparison -/

/-- Two sums or products in parentheses. -/
theorem Expr.group_append_inj {e e' : Expr} {needed : Nat} (hlt : e.strength < needed)
    (hlt' : e'.strength < needed)
    (hback : ∀ rest rest', Stops 1 rest → Stops 1 rest' → e.back ++ rest = e'.back ++ rest' →
      e.bare = e'.bare ∧ rest = rest') {rest rest' : List Char}
    (heq : e.operandBack needed ++ rest = e'.operandBack needed ++ rest') :
    e.bare = e'.bare ∧ rest = rest' := by
  rw [Expr.operandBack_of_lt hlt, Expr.operandBack_of_lt hlt'] at heq
  obtain ⟨hbare, hrests⟩ := hback ('(' :: rest) ('(' :: rest') (.paren rest) (.paren rest')
    (by simpa using heq)
  exact ⟨hbare, (List.cons.inj hrests).2⟩

/-- Two string literals. -/
theorem Expr.back_string_append_inj {value value' : String} {span span' : Span} {needed : Nat}
    {rest rest' : List Char} (hrest : Stops needed rest) (hrest' : Stops needed rest')
    (heq : (literal (.string value) span).back ++ rest =
      (literal (.string value') span').back ++ rest') : value = value' ∧ rest = rest' := by
  have hbackslash : '\\' ∉ [' ', '(', '['] := by decide
  rw [back_string, back_string] at heq
  obtain ⟨hvalues, hrests⟩ := Literal.writtenBack_append_inj
    (fun c hc hbad => hbackslash (hbad ▸ hrest.head_mem c hc))
    (fun c hc hbad => hbackslash (hbad ▸ hrest'.head_mem c hc))
    (by simpa using heq)
  exact ⟨String.ext (List.reverse_injective hvalues), hrests⟩

section Step

variable {e e' : Expr} (h : Comparable e e') (hreads : ReadsBelow e e')
include h hreads

/-- A sum or product is read as its last operand only if nothing is in front of that. -/
theorem ReadsBelow.not_binary {op : BinaryOp} {left right : Expr} {span : Span}
    (he' : e' = .binary op left right span) {needed : Nat} (hneeded : needed ≤ op.strength)
    (hoperand : e.operandBack needed = e.operandBack (op.strength + 1)) {rest rest' : List Char}
    (hrest : Stops needed rest) :
    e.operandBack needed ++ rest ≠ e'.operandBack needed ++ rest' := by
  subst he'
  intro heq
  have hreading := hreads e right (by simp; omega)
    (h.mono (fun _ hmem => hmem) Expr.parts_subset_of_right)
  rw [hoperand, Expr.operandBack_of_le (e := .binary op left right span) hneeded,
    Expr.back_binary, List.append_assoc] at heq
  obtain ⟨-, rfl⟩ := hreading _ op.strength_lt _ _ (hrest.mono (by omega))
    (.operator op (left.operandBack op.strength ++ rest') (by omega)) heq
  exact Stops.not_operator hneeded hrest

/-- Two operations of equal strength. -/
theorem ReadsBelow.binary {op op' : BinaryOp} {left right left' right' : Expr} {span span' : Span}
    (he : e = .binary op left right span) (he' : e' = .binary op' left' right' span')
    (hstrength : op.strength = op'.strength) {needed : Nat} (hneeded : needed ≤ op.strength)
    {rest rest' : List Char} (hrest : Stops needed rest) (hrest' : Stops needed rest')
    (heq : e.back ++ rest = e'.back ++ rest') : e.bare = e'.bare ∧ rest = rest' := by
  subst he he'
  rw [Expr.back_binary, Expr.back_binary, hstrength, List.append_assoc, List.append_assoc] at heq
  obtain ⟨hrights, hrests⟩ := hreads right right' (by simp; omega)
    (h.mono Expr.parts_subset_of_right Expr.parts_subset_of_right) _ op'.strength_lt _ _
    (.operator op _ (by omega)) (.operator op' _ (by omega)) heq
  obtain ⟨hop, hrests⟩ := List.cons.inj (List.cons.inj hrests).2
  obtain rfl := BinaryOp.sign_inj hop
  obtain ⟨hlefts, hrests⟩ := hreads left left' (by simp; omega)
    (h.mono Expr.parts_subset_of_left Expr.parts_subset_of_left) _ op.strength_lt.le _ _
    (hrest.mono hneeded) (hrest'.mono hneeded) (List.cons.inj hrests).2
  exact ⟨by rw [Expr.bare, Expr.bare, hlefts, hrights], hrests⟩

/-- Parentheses do not enclose both an operand and arguments: something that is called would be in
front. -/
theorem ReadsBelow.group_ne_call {callee : Expr} {args : List Expr} {span : Span}
    (he' : e' = .call callee args span) {needed : Nat} (hlt : e.strength < needed)
    {rest rest' : List Char} (hrest : Stops needed rest) :
    e.operandBack needed ++ rest ≠ e'.back ++ rest' := by
  subst he'
  intro heq
  have hargs (arg : Expr) (harg : arg ∈ args) : arg.parts ⊆ (Expr.call callee args span).parts :=
    Expr.parts_subset_of_mem_args harg
  rw [Expr.operandBack_of_lt hlt, Expr.back_call] at heq
  have hinside : Expr.argsBack [e] ++ '(' :: rest =
      Expr.argsBack args ++ '(' :: (callee.operandBack Expr.atomStrength ++ rest') := by
    simpa [Expr.argsBack, Expr.argTexts, Expr.back] using heq
  have hreading : ∀ arg ∈ [e], ∀ arg' ∈ args, SameReading arg arg' := by
    intro arg harg arg' harg'
    obtain rfl := List.mem_singleton.mp harg
    have hsize := List.sizeOf_lt_of_mem harg'
    exact hreads arg arg' (by simp; omega) (h.mono (fun _ hmem => hmem) (hargs arg' harg'))
  obtain ⟨-, rfl⟩ := argsBack_append_inj hreading (by simpa using h.legible)
    (fun arg harg part hpart => h.legible' part (hargs arg harg hpart)) hinside
  exact Expr.not_stops_operandBack
    (fun part hpart => h.legible' part (Expr.parts_subset_of_callee hpart)) _ _ _ hrest

/-- Two calls. -/
theorem ReadsBelow.call {callee callee' : Expr} {args args' : List Expr} {span span' : Span}
    (he : e = .call callee args span) (he' : e' = .call callee' args' span') {needed : Nat}
    (hneeded : needed ≤ Expr.atomStrength) {rest rest' : List Char} (hrest : Stops needed rest)
    (hrest' : Stops needed rest') (heq : e.back ++ rest = e'.back ++ rest') :
    e.bare = e'.bare ∧ rest = rest' := by
  subst he he'
  have hargs (arg : Expr) (harg : arg ∈ args) : arg.parts ⊆ (Expr.call callee args span).parts :=
    Expr.parts_subset_of_mem_args harg
  have hargs' (arg : Expr) (harg : arg ∈ args') :
      arg.parts ⊆ (Expr.call callee' args' span').parts := Expr.parts_subset_of_mem_args harg
  have hreading : ∀ arg ∈ args, ∀ arg' ∈ args', SameReading arg arg' := by
    intro arg harg arg' harg'
    have hsize := List.sizeOf_lt_of_mem harg
    have hsize' := List.sizeOf_lt_of_mem harg'
    exact hreads arg arg' (by simp; omega) (h.mono (hargs arg harg) (hargs' arg' harg'))
  rw [Expr.back_call, Expr.back_call] at heq
  have hinside : Expr.argsBack args ++ '(' :: (callee.operandBack Expr.atomStrength ++ rest) =
      Expr.argsBack args' ++ '(' :: (callee'.operandBack Expr.atomStrength ++ rest') := by
    simpa using heq
  obtain ⟨hbares, hrests⟩ := argsBack_append_inj hreading
    (fun arg harg part hpart => h.legible part (hargs arg harg hpart))
    (fun arg harg part hpart => h.legible' part (hargs' arg harg hpart)) hinside
  obtain ⟨hcallees, hrests⟩ := hreads callee callee' (by simp; omega)
    (h.mono Expr.parts_subset_of_callee Expr.parts_subset_of_callee) _ le_rfl _ _
    (hrest.mono hneeded) (hrest'.mono hneeded) hrests
  refine ⟨?_, hrests⟩
  rw [Expr.bare, Expr.bare, hcallees, Expr.bareAll_eq_map, Expr.bareAll_eq_map, hbares]

/-- Two reads of elements. -/
theorem ReadsBelow.index {object object' i i' : Expr} {span span' : Span}
    (he : e = .index object i span) (he' : e' = .index object' i' span') {needed : Nat}
    (hneeded : needed ≤ Expr.atomStrength) {rest rest' : List Char} (hrest : Stops needed rest)
    (hrest' : Stops needed rest') (heq : e.back ++ rest = e'.back ++ rest') :
    e.bare = e'.bare ∧ rest = rest' := by
  subst he he'
  rw [Expr.back_index, Expr.back_index] at heq
  have hinside : i.back ++ '[' :: (object.operandBack Expr.atomStrength ++ rest) =
      i'.back ++ '[' :: (object'.operandBack Expr.atomStrength ++ rest') := by
    simpa using heq
  obtain ⟨hindexes, hrests⟩ := (hreads i i' (by simp; omega)
    (h.mono Expr.parts_subset_of_index Expr.parts_subset_of_index)).back (.bracket _) (.bracket _)
    hinside
  obtain ⟨hobjects, hrests⟩ := hreads object object' (by simp; omega)
    (h.mono Expr.parts_subset_of_indexed Expr.parts_subset_of_indexed) _ le_rfl _ _
    (hrest.mono hneeded) (hrest'.mono hneeded) (List.cons.inj hrests).2
  exact ⟨by rw [Expr.bare, Expr.bare, hobjects, hindexes], hrests⟩

/-- Two expressions that end with a word, a number or the name of a member. -/
theorem ReadsBelow.ending {run run' before before' : List Char} (he : Ending e run before)
    (he' : Ending e' run' before') {needed : Nat} (hneeded : needed ≤ Expr.atomStrength)
    {rest rest' : List Char} (hrest : Stops needed rest) (hrest' : Stops needed rest')
    (heq : e.back ++ rest = e'.back ++ rest') : e.bare = e'.bare ∧ rest = rest' := by
  rw [he.back_eq, he'.back_eq, List.append_assoc, List.append_assoc] at heq
  obtain ⟨rfl, hrests⟩ := Text.append_inj_of_run he.wordChars he'.wordChars
    (he.not_wordChar hrest) (he'.not_wordChar hrest') heq
  generalize hrun : run = run' at he'
  -- A word is no run of digits, and only in front of the name of a member there is a point.
  have hpoint : '.' ∉ [' ', '(', '['] := by decide
  cases he with
  | @word _ word hlegible hword =>
    have hnot := (Expr.isWord_of_word hlegible hword).not_digits
    cases he' with
    | @word _ word' hlegible' hword' =>
      obtain rfl : word = word' := String.ext (List.reverse_injective hrun)
      refine ⟨?_, hrests⟩
      rw [Expr.bare_eq_ofWord hlegible hword, Expr.bare_eq_ofWord hlegible' hword']
    | number _ _ _ hdigits' => exact absurd (hrun ▸ hdigits') hnot
    | member =>
      obtain rfl := List.nil_append rest ▸ hrests
      exact absurd hrest (Stops.not_cons hpoint)
  | @number value span _ _ hnumber hback _ hdigits hnumeral =>
    cases he' with
    | word hlegible' hword' =>
      exact absurd (hrun ▸ hdigits) (Expr.isWord_of_word hlegible' hword').not_digits
    | @number value' span' _ _ hnumber' hback' _ _ hnumeral' =>
      obtain ⟨rfl, hremaining⟩ := Text.append_inj_of_run hnumeral hnumeral' hrest.not_numeralChar
        hrest'.not_numeralChar hrests
      have htext : value.text = value'.text :=
        String.ext (List.reverse_injective (by rw [hback, hback', hrun]))
      have hvalue := h.numbers value span (Expr.mem_parts_self _) value' span'
        (Expr.mem_parts_self _) hnumber hnumber' htext
      exact ⟨by rw [Expr.bare, Expr.bare, hvalue], hremaining⟩
    | member hname' => exact absurd (hrun ▸ hdigits) hname'.not_digits
  | @member object name span hname hself =>
    cases he' with
    | word =>
      obtain rfl := List.nil_append rest' ▸ hrests
      exact absurd hrest' (Stops.not_cons hpoint)
    | number _ _ _ hdigits' => exact absurd (hrun ▸ hdigits') hname.not_digits
    | @member object' name' span' hname' hself' =>
      obtain rfl : name = name' := String.ext (List.reverse_injective hrun)
      obtain ⟨hobjects, hrests⟩ := hreads object object' (by simp; omega)
        (h.mono Expr.parts_subset_of_object Expr.parts_subset_of_object) _ le_rfl _ _
        (hrest.mono hneeded) (hrest'.mono hneeded) (List.cons.inj hrests).2
      exact ⟨by rw [Expr.bare_member hself, Expr.bare_member hself', hobjects], hrests⟩

end Step

/-! ## Reading -/

/-- A legible expression is built by one operator or by none. -/
theorem Expr.strength_cases {e : Expr} (hlegible : e.IsLegible) :
    e.strength = atomStrength ∨ ∃ op left right span, e = binary op left right span := by
  cases e with
  | binary op left right span => exact .inr ⟨op, left, right, span, rfl⟩
  | concat => exact absurd hlegible not_false
  | _ => exact .inl rfl

/-- Two expressions that no operator builds have the same mark if their texts end alike. -/
theorem Expr.mark_eq_of_back_append_eq {e e' : Expr} (hlegible : e.IsLegible)
    (hlegible' : e'.IsLegible) (hatom : e.strength = atomStrength)
    (hatom' : e'.strength = atomStrength) {rest rest' : List Char}
    (heq : e.back ++ rest = e'.back ++ rest') : e.mark? = e'.mark? := by
  obtain ⟨c, more, hback, hc⟩ := exists_back_eq hlegible hatom
  obtain ⟨c', more', hback', hc'⟩ := exists_back_eq hlegible' hatom'
  rw [hback, hback'] at heq
  obtain rfl := (List.cons.inj heq).1
  rcases hc with hmark | ⟨hmark, hword⟩ <;> rcases hc' with hmark' | ⟨hmark', hword'⟩
  · rw [hmark, hmark']
  · simp [not_wordChar_of_mark hmark] at hword'
  · simp [not_wordChar_of_mark hmark'] at hword
  · rw [hmark, hmark']

section Reading

variable {e e' : Expr} (h : Comparable e e') (hreads : ReadsBelow e e')
include h hreads

/-- Two expressions that no operator builds. -/
theorem ReadsBelow.atom (hatom : e.strength = Expr.atomStrength)
    (hatom' : e'.strength = Expr.atomStrength) {needed : Nat} (hneeded : needed ≤ Expr.atomStrength)
    {rest rest' : List Char} (hrest : Stops needed rest) (hrest' : Stops needed rest')
    (heq : e.back ++ rest = e'.back ++ rest') : e.bare = e'.bare ∧ rest = rest' := by
  have hmarks := Expr.mark_eq_of_back_append_eq h.isLegible h.isLegible' hatom hatom' heq
  cases hmark : e.mark? with
  | none =>
    obtain ⟨run, before, hending⟩ := Expr.exists_ending h.isLegible hatom hmark
    obtain ⟨run', before', hending'⟩ :=
      Expr.exists_ending h.isLegible' hatom' (hmarks.symm.trans hmark)
    exact hreads.ending h hending hending' hneeded hrest hrest' heq
  | some c =>
    have hmark' := hmarks.symm.trans hmark
    rcases Expr.cases_of_mark hmark with ⟨rfl, callee, args, span, he⟩ |
      ⟨rfl, object, i, span, he⟩ | ⟨rfl, value, span, he⟩
    · rcases Expr.cases_of_mark hmark' with ⟨-, callee', args', span', he'⟩ | ⟨hc, -⟩ | ⟨hc, -⟩
      · exact hreads.call h he he' hneeded hrest hrest' heq
      · exact absurd hc (by decide)
      · exact absurd hc (by decide)
    · rcases Expr.cases_of_mark hmark' with ⟨hc, -⟩ | ⟨-, object', i', span', he'⟩ | ⟨hc, -⟩
      · exact absurd hc (by decide)
      · exact hreads.index h he he' hneeded hrest hrest' heq
      · exact absurd hc (by decide)
    · rcases Expr.cases_of_mark hmark' with ⟨hc, -⟩ | ⟨hc, -⟩ | ⟨-, value', span', he'⟩
      · exact absurd hc (by decide)
      · exact absurd hc (by decide)
      · subst he he'
        obtain ⟨rfl, hrests⟩ := Expr.back_string_append_inj hrest hrest' heq
        exact ⟨by rw [Expr.bare, Expr.bare], hrests⟩

/-- What binds more strongly than an operator is not read as its operation. -/
theorem ReadsBelow.stronger_ne_binary {op : BinaryOp} {left right : Expr} {span : Span}
    (he' : e' = .binary op left right span) (hlt : op.strength < e.strength) {needed : Nat}
    (hneeded : needed ≤ op.strength) {rest rest' : List Char} (hrest : Stops needed rest) :
    e.back ++ rest ≠ e'.back ++ rest' := by
  have hoperand : e.operandBack needed = e.operandBack (op.strength + 1) := by
    rw [Expr.operandBack_of_le (by omega), Expr.operandBack_of_le (by omega)]
  have hne : e.operandBack needed ++ rest ≠ e'.operandBack needed ++ rest' :=
    hreads.not_binary h he' hneeded hoperand hrest
  rwa [Expr.operandBack_of_le (by omega), Expr.operandBack_of_le (by subst he'; exact hneeded)]
    at hne

/-- Two expressions without parentheses around them. -/
theorem ReadsBelow.back {needed : Nat} (hneeded : needed ≤ Expr.atomStrength)
    (hle : needed ≤ e.strength) (hle' : needed ≤ e'.strength) {rest rest' : List Char}
    (hrest : Stops needed rest) (hrest' : Stops needed rest')
    (heq : e.back ++ rest = e'.back ++ rest') : e.bare = e'.bare ∧ rest = rest' := by
  rcases Expr.strength_cases h.isLegible with hatom | ⟨op, left, right, span, he⟩ <;>
    rcases Expr.strength_cases h.isLegible' with hatom' | ⟨op', left', right', span', he'⟩
  · exact hreads.atom h hatom hatom' hneeded hrest hrest' heq
  · have hstrength : e'.strength = op'.strength := by rw [he', Expr.strength]
    exact absurd heq (hreads.stronger_ne_binary h he' (hatom ▸ op'.strength_lt) (by omega) hrest)
  · have hstrength : e.strength = op.strength := by rw [he, Expr.strength]
    exact absurd heq.symm
      (hreads.symm.stronger_ne_binary h.symm he (hatom' ▸ op.strength_lt) (by omega) hrest')
  · have hstrength : e.strength = op.strength := by rw [he, Expr.strength]
    have hstrength' : e'.strength = op'.strength := by rw [he', Expr.strength]
    rcases lt_trichotomy op.strength op'.strength with hlt | hsame | hgt
    · exact absurd heq.symm
        (hreads.symm.stronger_ne_binary h.symm he (by omega) (by omega) hrest')
    · exact hreads.binary h he he' hsame (by omega) hrest hrest' heq
    · exact absurd heq (hreads.stronger_ne_binary h he' (by omega) (by omega) hrest)

/-- An expression in parentheses is not read as one without. -/
theorem ReadsBelow.group_ne_back {needed : Nat} (hlt : e.strength < needed)
    (hle' : needed ≤ e'.strength) {rest rest' : List Char} (hrest : Stops needed rest) :
    e.operandBack needed ++ rest ≠ e'.operandBack needed ++ rest' := by
  rcases Expr.strength_cases h.isLegible' with hatom' | ⟨op', left', right', span', he'⟩
  · intro heq
    rw [Expr.operandBack_of_le hle'] at heq
    have hmark : e'.mark? = some ')' := by
      obtain ⟨c, more, hback, hc⟩ := Expr.exists_back_eq h.isLegible' hatom'
      rw [Expr.operandBack_of_lt hlt, hback] at heq
      obtain rfl : ')' = c := (List.cons.inj heq).1
      rcases hc with hmark | ⟨-, hword⟩
      · exact hmark
      · exact absurd hword (by decide)
    rcases Expr.cases_of_mark hmark with ⟨-, callee, args, span, he'⟩ | ⟨hc, -⟩ | ⟨hc, -⟩
    · exact hreads.group_ne_call h he' hlt hrest heq
    · exact absurd hc (by decide)
    · exact absurd hc (by decide)
  · have hstrength' : e'.strength = op'.strength := by rw [he', Expr.strength]
    refine hreads.not_binary h he' (by omega) ?_ hrest
    rw [Expr.operandBack_of_lt hlt, Expr.operandBack_of_lt (by omega)]

/-- If smaller expressions are read in one way then so are these two. -/
theorem ReadsBelow.sameReading : SameReading e e' := by
  intro needed hneeded rest rest' hrest hrest' heq
  by_cases hlt : e.strength < needed <;> by_cases hlt' : e'.strength < needed
  · refine Expr.group_append_inj hlt hlt' (fun rest rest' hrest hrest' heq => ?_) heq
    exact hreads.back h (by decide) e.strength_pos e'.strength_pos hrest hrest' heq
  · exact absurd heq (hreads.group_ne_back h hlt (by omega) hrest)
  · exact absurd heq.symm (hreads.symm.group_ne_back h.symm hlt' (by omega) hrest')
  · rw [Expr.operandBack_of_le (by omega), Expr.operandBack_of_le (by omega)] at heq
    exact hreads.back h hneeded (by omega) (by omega) hrest hrest' heq

end Reading

/-- Comparable expressions are read in one way. -/
theorem Comparable.sameReading {e e' : Expr} (h : Comparable e e') : SameReading e e' := by
  -- A step may take one expression apart and leave the other, so the sizes are added.
  have hbelow (size : Nat) : ∀ e e', sizeOf e + sizeOf e' = size → Comparable e e' →
      SameReading e e' := by
    induction size using Nat.strong_induction_on with
    | _ size ih =>
      intro e e' hsize hcomparable
      refine ReadsBelow.sameReading hcomparable fun part part' hlt hparts => ?_
      exact ih _ (by omega) part part' rfl hparts
  exact hbelow _ e e' rfl h

namespace Expr

/-- **Canonical texts are unambiguous.** Comparable expressions with the same text are the same, but
for their places and for `this.` in front of names. -/
theorem bare_eq_of_text_eq {e e' : Expr} (h : Comparable e e') (htext : e.text = e'.text) :
    e.bare = e'.bare := by
  have hback : e.back ++ [] = e'.back ++ [] := by rw [back, back, htext]
  exact (h.sameReading.back .start .start hback).1

/-- **The texts of arguments are unambiguous.** -/
theorem bareAll_eq_of_argTexts_eq {args args' : List Expr}
    (h : ∀ arg ∈ args, ∀ arg' ∈ args', Comparable arg arg')
    (hlegible : ∀ arg ∈ args, ∀ part ∈ arg.parts, part.IsLegible)
    (hlegible' : ∀ arg ∈ args', ∀ part ∈ arg.parts, part.IsLegible)
    (htext : String.intercalate ", " (argTexts args) = String.intercalate ", " (argTexts args')) :
    bareAll args = bareAll args' := by
  have hback : argsBack args ++ ['('] = argsBack args' ++ ['('] := by rw [argsBack, argsBack, htext]
  rw [bareAll_eq_map, bareAll_eq_map]
  exact (argsBack_append_inj (fun arg harg arg' harg' => (h arg harg arg' harg').sameReading)
    hlegible hlegible' hback).1

end Expr

end Bindery
