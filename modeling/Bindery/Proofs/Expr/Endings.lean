import Bindery.Proofs.Decimal.Numerals
import Bindery.Proofs.Expr.Backwards
import Bindery.Proofs.Expr.Lookups

/-!
# What canonical texts end with

The text of an expression that no operator builds ends with a closing bracket, a quotation mark, a
name or a number. Whatever it is shows in the last character, or in the last run of characters that
can stand in a name.
-/

namespace Bindery

/-! ## Legible expressions -/

/-- Every literal but an infinity and no number at all. -/
def Literal.IsFinite : Literal → Prop
  | number value => ∃ negative significand exponent,
      Decimal.IsFinite value negative significand exponent
  | _ => True

/-- A number, whole or not. -/
def Literal.isNumber : Literal → Bool
  | int _ | number _ => true
  | _ => false

theorem Literal.isNumeral_text {value : Literal} (hnumber : value.isNumber)
    (hfinite : value.IsFinite) : Decimal.IsNumeral value.text.toList := by
  cases value with
  | null | bool | string => simp [isNumber] at hnumber
  | int value => exact Decimal.isNumeral_int value.toInt
  | number value =>
    obtain ⟨negative, significand, exponent, h⟩ := hfinite
    exact Decimal.isNumeral_text h

namespace Expr

/-- An expression the outermost part of which can be told from others in its text. Text with
embedded expressions is written like a sum. -/
def IsLegible : Expr → Prop
  | identifier name _ | member _ name _ => IsName name
  | literal value _ => value.IsFinite
  | concat .. => False
  | _ => True

/-! ## Words -/

/-- The word that is the whole text of an expression. -/
def word? : Expr → Option String
  | self _ => some "this"
  | identifier name _ | member (self _) name _ => some name
  | literal .null _ => some "null"
  | literal (.bool true) _ => some "true"
  | literal (.bool false) _ => some "false"
  | _ => none

/-- The expression without places that is written as a word. -/
def ofWord (word : String) : Expr :=
  if word = "this" then self .unknown
  else if word = "null" then literal .null .unknown
  else if word = "true" then literal (.bool true) .unknown
  else if word = "false" then literal (.bool false) .unknown
  else identifier word .unknown

theorem ofWord_of_isName {name : String} (h : IsName name) :
    ofWord name = identifier name .unknown := by
  have hkeywords := h.notKeyword
  simp only [List.mem_cons, List.not_mem_nil, or_false, not_or] at hkeywords
  simp [ofWord, hkeywords]

variable {e : Expr} {word : String}

/-- A word is the text of one expression only. -/
theorem bare_eq_ofWord (hlegible : e.IsLegible) (h : e.word? = some word) :
    e.bare = ofWord word := by
  unfold word? at h
  split at h
  · obtain rfl := Option.some.inj h
    rfl
  · obtain rfl := Option.some.inj h
    rw [ofWord_of_isName hlegible, bare]
  · obtain rfl := Option.some.inj h
    rw [ofWord_of_isName hlegible, bare]
  · obtain rfl := Option.some.inj h
    simp [ofWord, bare]
  · obtain rfl := Option.some.inj h
    simp [ofWord, bare]
  · obtain rfl := Option.some.inj h
    simp [ofWord, bare]
  · simp at h

theorem back_of_word (h : e.word? = some word) : e.back = word.toList.reverse := by
  have htext : e.text = word := by
    unfold word? at h
    split at h <;> simp_all [text, Literal.text]
  rw [back, htext]

theorem isWord_of_word (hlegible : e.IsLegible) (h : e.word? = some word) : IsWord word := by
  unfold word? at h
  split at h
  · obtain rfl := Option.some.inj h
    exact ⟨List.all_eq_true.mp (by decide), 't', by decide, by decide⟩
  · obtain rfl := Option.some.inj h
    exact hlegible.toIsWord
  · obtain rfl := Option.some.inj h
    exact hlegible.toIsWord
  · obtain rfl := Option.some.inj h
    exact ⟨List.all_eq_true.mp (by decide), 'n', by decide, by decide⟩
  · obtain rfl := Option.some.inj h
    exact ⟨List.all_eq_true.mp (by decide), 't', by decide, by decide⟩
  · obtain rfl := Option.some.inj h
    exact ⟨List.all_eq_true.mp (by decide), 'f', by decide, by decide⟩
  · simp at h

end Expr

/-- A word is no number. -/
theorem IsWord.not_digits {word : String} (h : IsWord word) :
    ¬∀ c ∈ word.toList.reverse, c.isDigit := by
  intro hdigits
  obtain ⟨c, hc, hinitial⟩ := h.initial
  have hmem : c ∈ word.toList.reverse := List.mem_reverse.mpr (List.mem_of_mem_head? hc)
  simp [hdigits c hmem] at hinitial

/-- What can be in front of an operand stands neither in a name nor in a number. -/
theorem Text.eq_false_of_mem_stops {c : Char} (h : c ∈ [' ', '(', '[']) :
    isWordChar c = false ∧ Decimal.isNumeralChar c = false := by
  simp only [List.mem_cons, List.not_mem_nil, or_false] at h
  rcases h with rfl | rfl | rfl <;> decide

/-- A number does not go on where an operand stops. -/
theorem Stops.not_numeralChar {needed : Nat} {rest : List Char} (h : Stops needed rest) :
    ∀ c ∈ rest.head?, Decimal.isNumeralChar c = false :=
  fun c hc => (Text.eq_false_of_mem_stops (h.head_mem c hc)).2

/-! ## Endings -/

/-- The last run of characters that can stand in a name, and what is in front of it, from the right
to the left. -/
inductive Ending : Expr → List Char → List Char → Prop
  | word {e : Expr} {word : String} (hlegible : e.IsLegible) (h : e.word? = some word) :
    Ending e word.toList.reverse []
  | number {value : Literal} {span : Span} {digits before : List Char} (hnumber : value.isNumber)
      (hback : value.text.toList.reverse = digits ++ before) (hne : digits ≠ [])
      (hdigits : ∀ c ∈ digits, c.isDigit)
      (hnumeral : ∀ c ∈ before, Decimal.isNumeralChar c)
      (hbefore : ∀ c ∈ before.head?, c.isDigit = false) :
    Ending (.literal value span) digits before
  | member {object : Expr} {name : String} {span : Span} (hname : IsName name)
      (hself : ∀ span, object = .self span → False) :
    Ending (.member object name span) name.toList.reverse
      ('.' :: object.operandBack Expr.atomStrength)

namespace Ending

variable {e : Expr} {run before : List Char}

theorem back_eq (h : Ending e run before) : e.back = run ++ before := by
  cases h with
  | word hlegible h => rw [Expr.back_of_word h, List.append_nil]
  | number hnumber hback => rwa [Expr.back, Expr.text]
  | member hname hself => rw [Expr.back_member hself]

theorem wordChars (h : Ending e run before) : ∀ c ∈ run, Text.isWordChar c := by
  cases h with
  | word hlegible h =>
    exact fun c hc => (Expr.isWord_of_word hlegible h).wordChars c (List.mem_reverse.mp hc)
  | number _ _ _ hdigits =>
    intro c hc
    have halphanum : c.isAlphanum := by simp [Char.isAlphanum, hdigits c hc]
    exact Text.isWordChar_of_isAlphanum (.inl halphanum)
  | member hname => exact fun c hc => hname.wordChars c (List.mem_reverse.mp hc)

theorem run_ne_nil (h : Ending e run before) : run ≠ [] := by
  have hword {word : String} (h : IsWord word) : word.toList.reverse ≠ [] := by
    intro hnil
    exact h.not_digits (by simp [hnil])
  cases h with
  | word hlegible h => exact hword (Expr.isWord_of_word hlegible h)
  | number _ _ hne => exact hne
  | member hname => exact hword hname.toIsWord

/-- The run ends where it says. -/
theorem not_wordChar (h : Ending e run before) {needed : Nat} {rest : List Char}
    (hrest : Stops needed rest) : ∀ c ∈ (before ++ rest).head?, Text.isWordChar c = false := by
  have hstop (c : Char) (hc : c ∈ rest.head?) : Text.isWordChar c = false :=
    (Text.eq_false_of_mem_stops (hrest.head_mem c hc)).1
  cases h with
  | word => exact hstop
  | number hnumber hback hne hdigits hnumeral hbefore =>
    cases before with
    | nil => exact hstop
    | cons c before =>
      intro c' hc'
      obtain rfl : c = c' := by simpa using hc'
      have hchar := hnumeral c List.mem_cons_self
      simp only [Decimal.isNumeralChar, hbefore c rfl, Bool.false_or, Bool.or_eq_true,
        decide_eq_true_eq] at hchar
      rcases hchar with rfl | rfl <;> decide
  | member =>
    intro c hc
    obtain rfl : '.' = c := by simpa using hc
    decide

end Ending

/-- The text of a number is taken apart at its last digits. -/
theorem Literal.exists_ending (value : Literal) (hnumber : value.isNumber)
    (hfinite : value.IsFinite) (span : Span) :
    ∃ run before, Ending (.literal value span) run before := by
  have hnumeral := isNumeral_text hnumber hfinite
  obtain ⟨c, hc, hdigit⟩ := hnumeral.exists_getLast
  refine ⟨value.text.toList.reverse.takeWhile Char.isDigit,
    value.text.toList.reverse.dropWhile Char.isDigit,
    .number hnumber List.takeWhile_append_dropWhile.symm ?_ ?_ ?_ ?_⟩
  · rw [← List.head?_reverse] at hc
    obtain ⟨rest, hrest⟩ := List.head?_eq_some_iff.mp hc
    simp [hrest, hdigit]
  · exact List.all_eq_true.mp List.all_takeWhile
  · exact fun c hc => hnumeral.isNumeralChar c
      (List.mem_reverse.mp ((List.dropWhile_sublist _).mem hc))
  · intro c hc
    have hnot := List.head?_dropWhile_not Char.isDigit value.text.toList.reverse
    rwa [Option.mem_def.mp hc] at hnot

/-- The closing bracket or the quotation mark with which the text of an expression ends that no
operator builds. -/
def Expr.mark? : Expr → Option Char
  | call .. => some ')'
  | index .. => some ']'
  | literal (.string _) _ => some '\''
  | _ => none

/-- A mark tells what the expression is. -/
theorem Expr.cases_of_mark {e : Expr} {c : Char} (h : e.mark? = some c) :
    (c = ')' ∧ ∃ callee args span, e = call callee args span) ∨
      (c = ']' ∧ ∃ object i span, e = index object i span) ∨
      (c = '\'' ∧ ∃ value span, e = literal (.string value) span) := by
  cases e with
  | call callee args span => exact .inl ⟨(Option.some.inj h).symm, callee, args, span, rfl⟩
  | index object i span => exact .inr (.inl ⟨(Option.some.inj h).symm, object, i, span, rfl⟩)
  | literal value span =>
    cases value with
    | string value => exact .inr (.inr ⟨(Option.some.inj h).symm, value, span, rfl⟩)
    | _ => simp [mark?] at h
  | _ => simp [mark?] at h

theorem Expr.not_wordChar_of_mark {e : Expr} {c : Char} (h : e.mark? = some c) :
    Text.isWordChar c = false := by
  rcases cases_of_mark h with ⟨rfl, -⟩ | ⟨rfl, -⟩ | ⟨rfl, -⟩ <;> decide

/-- Without a mark, the text ends with a word, a number or the name of a member. -/
theorem Expr.exists_ending {e : Expr} (hlegible : e.IsLegible) (hatom : e.strength = atomStrength)
    (hmark : e.mark? = none) : ∃ run before, Ending e run before := by
  cases e with
  | self | identifier => exact ⟨_, _, .word hlegible rfl⟩
  | member object name =>
    rcases object.eq_self_or_not with ⟨_, rfl⟩ | hself
    · exact ⟨_, _, .word hlegible rfl⟩
    · exact ⟨_, _, .member hlegible hself⟩
  | index | call => simp [mark?] at hmark
  | literal value span =>
    cases value with
    | null => exact ⟨_, _, .word hlegible rfl⟩
    | bool value => cases value <;> exact ⟨_, _, .word hlegible rfl⟩
    | string => simp [mark?] at hmark
    | int value => exact (.int value : Literal).exists_ending rfl hlegible span
    | number value => exact (.number value : Literal).exists_ending rfl hlegible span
  | binary op => exact absurd hatom op.strength_lt.ne
  | concat => exact absurd hlegible not_false

/-- The last character tells the mark. -/
theorem Expr.exists_back_eq {e : Expr} (hlegible : e.IsLegible)
    (hatom : e.strength = atomStrength) : ∃ c rest, e.back = c :: rest ∧
      (e.mark? = some c ∨ e.mark? = none ∧ Text.isWordChar c) := by
  cases hmark : e.mark? with
  | none =>
    obtain ⟨run, before, hending⟩ := exists_ending hlegible hatom hmark
    obtain ⟨c, rest, rfl⟩ := List.exists_cons_of_ne_nil hending.run_ne_nil
    exact ⟨c, rest ++ before, hending.back_eq, .inr ⟨rfl, hending.wordChars c List.mem_cons_self⟩⟩
  | some c =>
    rcases cases_of_mark hmark with ⟨rfl, callee, args, span, rfl⟩ | ⟨rfl, object, i, span, rfl⟩ |
      ⟨rfl, value, span, rfl⟩
    · exact ⟨_, _, back_call .., .inl rfl⟩
    · exact ⟨_, _, back_index .., .inl rfl⟩
    · exact ⟨_, _, back_string .., .inl rfl⟩

end Bindery
