import Bindery.Proofs.Expr.Bare

/-!
# Canonical texts from the right to the left

An apostrophe inside a string literal is written behind a backslash, but a backslash stands for
itself. So a reader who comes from the left cannot tell where a string literal ends. One who comes
from the right can tell where it starts, and meets the operators of equal strength in the order in
which they are nested. This file describes what such a reader sees.
-/

namespace Bindery

/-! ## Words -/

namespace Text

/-- The characters of canonical texts that are not in names. -/
def punctuation : List Char := " '\\.,()[]+-*/".toList

/-- Whether a character can stand in a name. -/
def isWordChar (c : Char) : Bool := c ∉ punctuation

/-- Letters, digits, underscores and dollar signs can stand in a name. -/
theorem isWordChar_of_isAlphanum {c : Char} (h : c.isAlphanum ∨ c = '_' ∨ c = '$') :
    isWordChar c := by
  have hmarks : punctuation.all fun mark => !mark.isAlphanum && mark != '_' && mark != '$' := rfl
  rw [isWordChar, decide_eq_true_eq]
  intro hmem
  have hmark := List.all_eq_true.mp hmarks c hmem
  rcases h with halphanum | rfl | rfl
  · simp [halphanum] at hmark
  · simp at hmark
  · simp at hmark

end Text

/-- A word in a canonical text. It does not start like a number. -/
structure IsWord (word : String) : Prop where
  wordChars : ∀ c ∈ word.toList, Text.isWordChar c
  initial : ∃ c ∈ word.toList.head?, c.isDigit = false

/-- A name that can be told from everything else in a canonical text. -/
structure IsName (name : String) : Prop extends IsWord name where
  notKeyword : name ∉ ["this", "null", "true", "false"]

/-- What consists of letters, digits, underscores and dollar signs and does not start with a digit
is a name, unless it is a keyword. -/
theorem isName_of_forall_isAlphanum {name : String}
    (hchars : ∀ c ∈ name.toList, c.isAlphanum ∨ c = '_' ∨ c = '$')
    (hinitial : ∃ c ∈ name.toList.head?, c.isDigit = false)
    (hkeyword : name ∉ ["this", "null", "true", "false"]) : IsName name where
  wordChars c hc := Text.isWordChar_of_isAlphanum (hchars c hc)
  initial := hinitial
  notKeyword := hkeyword

/-! ## Strings -/

namespace Literal

/-- A character inside a string literal, from the right to the left. -/
def writtenBack (c : Char) : List Char := if c = '\'' then ['\'', '\\'] else [c]

theorem reverse_flatMap_writtenChar (content : List Char) :
    (content.flatMap writtenChar).reverse = content.reverse.flatMap writtenBack := by
  induction content with
  | nil => rfl
  | cons c content ih =>
    have hchar : (writtenChar c).reverse = writtenBack c := by
      by_cases hc : c = '\'' <;> simp [writtenChar, writtenBack, hc]
    simp [ih, hchar]

/-- From the right, the content of a string literal goes up to the first apostrophe that is not
behind a backslash. -/
theorem writtenBack_append_inj {content content' rest rest' : List Char}
    (hrest : ∀ c ∈ rest.head?, c ≠ '\\') (hrest' : ∀ c ∈ rest'.head?, c ≠ '\\')
    (h : content.flatMap writtenBack ++ '\'' :: rest =
      content'.flatMap writtenBack ++ '\'' :: rest') : content = content' ∧ rest = rest' := by
  induction content generalizing content' with
  | nil =>
    cases content' with
    | nil => simpa using h
    | cons c content' =>
      -- An apostrophe inside the content would leave its backslash in front of what remains.
      by_cases hc : c = '\''
      · obtain rfl : rest = '\\' :: (content'.flatMap writtenBack ++ '\'' :: rest') := by
          simpa [writtenBack, hc] using h
        exact absurd rfl (hrest _ rfl)
      · simp [writtenBack, hc, eq_comm] at h
  | cons c content ih =>
    cases content' with
    | nil =>
      by_cases hc : c = '\''
      · obtain rfl : rest' = '\\' :: (content.flatMap writtenBack ++ '\'' :: rest) := by
          simpa [writtenBack, hc, eq_comm] using h
        exact absurd rfl (hrest' _ rfl)
      · simp [writtenBack, hc] at h
    | cons c' content' =>
      by_cases hc : c = '\'' <;> by_cases hc' : c' = '\''
      · have hsame : content.flatMap writtenBack ++ '\'' :: rest =
            content'.flatMap writtenBack ++ '\'' :: rest' := by
          simpa [writtenBack, hc, hc'] using h
        obtain ⟨hcontent, hrests⟩ := ih hsame
        exact ⟨by rw [hc, hc', hcontent], hrests⟩
      · simp [writtenBack, hc, hc', eq_comm] at h
      · simp [writtenBack, hc, hc'] at h
      · have hboth : c = c' ∧ content.flatMap writtenBack ++ '\'' :: rest =
            content'.flatMap writtenBack ++ '\'' :: rest' := by
          simpa [writtenBack, hc, hc'] using h
        obtain ⟨hcontent, hrests⟩ := ih hboth.2
        exact ⟨by rw [hboth.1, hcontent], hrests⟩

end Literal

/-! ## Operands -/

/-- The sign of an operator is a single character. -/
def BinaryOp.sign : BinaryOp → Char
  | plus => '+'
  | minus => '-'
  | times => '*'
  | divide => '/'

theorem BinaryOp.toList_text (op : BinaryOp) : op.text.toList = [op.sign] := by
  cases op <;> rfl

theorem BinaryOp.sign_inj {op op' : BinaryOp} (h : op.sign = op'.sign) : op = op' := by
  cases op <;> cases op' <;> first | rfl | exact absurd h (by decide)

theorem BinaryOp.strength_pos (op : BinaryOp) : 0 < op.strength := by
  cases op <;> decide

theorem BinaryOp.strength_lt (op : BinaryOp) : op.strength < Expr.atomStrength := by
  cases op <;> decide

/-- What can come next, from the right to the left, after an operand of at least some strength. -/
inductive Stops (needed : Nat) : List Char → Prop
  | start : Stops needed []
  | paren (rest : List Char) : Stops needed ('(' :: rest)
  | bracket (rest : List Char) : Stops needed ('[' :: rest)
  | comma (rest : List Char) : Stops needed (' ' :: ',' :: rest)
  | operator (op : BinaryOp) (rest : List Char) (h : op.strength < needed) :
    Stops needed (' ' :: op.sign :: ' ' :: rest)

namespace Stops

variable {needed : Nat} {rest : List Char}

theorem mono {more : Nat} (h : Stops needed rest) (hle : needed ≤ more) : Stops more rest := by
  cases h with
  | start => exact start
  | paren rest => exact paren rest
  | bracket rest => exact bracket rest
  | comma rest => exact comma rest
  | operator op rest hlt => exact operator op rest (by omega)

/-- An operator that binds strongly enough goes on with the operand. -/
theorem not_operator {op : BinaryOp} (hop : needed ≤ op.strength) :
    ¬Stops needed (' ' :: op.sign :: ' ' :: rest) := by
  generalize htext : ' ' :: op.sign :: ' ' :: rest = text
  intro h
  cases h with
  | start | paren | bracket => simp at htext
  | comma =>
    have hsign := (List.cons.inj (List.cons.inj htext).2).1
    cases op <;> exact absurd hsign (by decide)
  | operator op' rest' hlt =>
    have hsign := (List.cons.inj (List.cons.inj htext).2).1
    have hops := BinaryOp.sign_inj hsign
    subst hops
    omega

theorem head_mem (h : Stops needed rest) : ∀ c ∈ rest.head?, c ∈ [' ', '(', '['] := by
  cases h <;> simp

theorem not_cons {c : Char} (hc : c ∉ [' ', '(', '[']) : ¬Stops needed (c :: rest) :=
  fun h => hc (h.head_mem c rfl)

end Stops

namespace Expr

/-- The text of an expression, from the right to the left. -/
def back (e : Expr) : List Char := e.text.toList.reverse

/-- The text of an operand that has to bind with some strength, from the right to the left. -/
def operandBack (needed : Nat) (e : Expr) : List Char :=
  (enclose needed e.strength e.text).toList.reverse

/-- The text of several arguments, from the right to the left. -/
def argsBack (args : List Expr) : List Char :=
  (String.intercalate ", " (argTexts args)).toList.reverse

theorem operandBack_of_le {needed : Nat} {e : Expr} (h : needed ≤ e.strength) :
    e.operandBack needed = e.back := by
  rw [operandBack, enclose, if_neg (by omega), back]

theorem operandBack_of_lt {needed : Nat} {e : Expr} (h : e.strength < needed) :
    e.operandBack needed = ')' :: (e.back ++ ['(']) := by
  rw [operandBack, enclose, if_pos h, back]
  simp

theorem strength_pos (e : Expr) : 0 < e.strength := by
  cases e with
  | binary op => exact op.strength_pos
  | _ => exact Nat.succ_pos _

theorem operandBack_one (e : Expr) : e.operandBack 1 = e.back :=
  operandBack_of_le e.strength_pos

theorem back_binary (op : BinaryOp) (left right : Expr) (span : Span) :
    (binary op left right span).back =
      right.operandBack (op.strength + 1) ++ ' ' :: op.sign :: ' ' ::
        left.operandBack op.strength := by
  simp [back, operandBack, text, BinaryOp.toList_text]

theorem back_index (object i : Expr) (span : Span) :
    (index object i span).back = ']' :: (i.back ++ '[' :: object.operandBack atomStrength) := by
  simp [back, operandBack, text]

theorem back_call (callee : Expr) (args : List Expr) (span : Span) :
    (call callee args span).back =
      ')' :: (argsBack args ++ '(' :: callee.operandBack atomStrength) := by
  simp [back, operandBack, argsBack, text]

theorem back_member {object : Expr} (hself : ∀ span, object = self span → False) (name : String)
    (span : Span) : (member object name span).back =
      name.toList.reverse ++ '.' :: object.operandBack atomStrength := by
  simp [back, operandBack, text_member hself]

theorem back_string (value : String) (span : Span) :
    (literal (.string value) span).back =
      '\'' :: (value.toList.reverse.flatMap Literal.writtenBack ++ ['\'']) := by
  simp [back, text, Literal.text, Literal.reverse_flatMap_writtenChar]

/-- What is in front of the last argument, from the right to the left. -/
def argsBefore (args : List Expr) : List Char :=
  if args = [] then [] else ' ' :: ',' :: argsBack args

/-- From the right, the last argument comes first. -/
theorem argsBack_append_singleton (args : List Expr) (arg : Expr) :
    argsBack (args ++ [arg]) = arg.back ++ argsBefore args := by
  by_cases hargs : args = []
  · subst hargs
    exact (List.append_nil _).symm
  · have hjoin : String.intercalate ", " (argTexts (args ++ [arg])) =
        String.intercalate ", " (argTexts args) ++ ", " ++ arg.text := by
      rw [argTexts_eq_map, argTexts_eq_map, List.map_append,
        String.intercalate_append_of_ne_nil (by simpa) (by simp)]
      simp
    simp [argsBack, argsBefore, hargs, hjoin, back]

/-- Something stops in front of the last argument. -/
theorem stops_argsBefore (args : List Expr) (rest : List Char) :
    Stops 1 (argsBefore args ++ '(' :: rest) := by
  by_cases hargs : args = []
  · simpa [argsBefore, hargs] using Stops.paren rest
  · simpa [argsBefore, hargs] using Stops.comma _

end Expr

end Bindery
