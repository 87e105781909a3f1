import Bindery.Expr.Text
import Bindery.Proofs.Decimal.Rounding

/-!
# Numbers in expressions identify their values

An expression writes a number with the shortest digits and without an exponent. Digits with a point
somewhere spell one number only, so no two finite values are written alike.
-/

namespace Bindery

/-! ## Runs -/

/-- Two texts start with the same run of characters if what follows the runs is not of its sort. -/
theorem Text.append_inj_of_run {p : Char → Bool} {run run' rest rest' : List Char}
    (hrun : ∀ c ∈ run, p c) (hrun' : ∀ c ∈ run', p c) (hrest : ∀ c ∈ rest.head?, p c = false)
    (hrest' : ∀ c ∈ rest'.head?, p c = false) (h : run ++ rest = run' ++ rest') :
    run = run' ∧ rest = rest' := by
  have takeWhile_rest {rest : List Char} (hrest : ∀ c ∈ rest.head?, p c = false) :
      rest.takeWhile p = [] := by
    cases rest with
    | nil => rfl
    | cons c rest => simp [hrest c rfl]
  have hruns := congrArg (List.takeWhile p) h
  rw [List.takeWhile_append_of_pos hrun, List.takeWhile_append_of_pos hrun', takeWhile_rest hrest,
    takeWhile_rest hrest', List.append_nil, List.append_nil] at hruns
  subst hruns
  exact ⟨rfl, List.append_cancel_left h⟩

namespace Decimal

/-! ## Spelled numbers -/

/-- Digits, with or without a point among them, spell a number. -/
inductive Spells : List Char → ℚ → Prop
  | whole (digits : List Char) (hne : digits ≠ []) (hdigits : ∀ c ∈ digits, c.isDigit) :
    Spells digits (Nat.ofDigitChars 10 digits 0)
  | point (digits fraction : List Char) (hne : digits ≠ []) (hne' : fraction ≠ [])
      (hdigits : ∀ c ∈ digits ++ fraction, c.isDigit) :
    Spells (digits ++ '.' :: fraction)
      (Nat.ofDigitChars 10 (digits ++ fraction) 0 / 10 ^ fraction.length)

namespace Spells

variable {text : List Char} {x y : ℚ}

/-- A text spells one number. -/
theorem unique (h : Spells text x) (h' : Spells text y) : x = y := by
  have hpoint : ('.').isDigit = false := by decide
  generalize hsame : text = other at h'
  cases h with
  | whole digits hne hdigits =>
    cases h' with
    | whole => rw [hsame]
    | point digits' fraction' =>
      subst hsame
      exact absurd (hdigits '.' (by simp)) (by simp [hpoint])
  | point digits fraction hne hne' hdigits =>
    cases h' with
    | whole _ _ hdigits' =>
      subst hsame
      exact absurd (hdigits' _ (List.mem_append_right _ List.mem_cons_self)) (by simp [hpoint])
    | point digits' fraction' _ _ hdigits' =>
      obtain ⟨rfl, hrest⟩ := Text.append_inj_of_run
        (fun c hc => hdigits c (List.mem_append_left _ hc))
        (fun c hc => hdigits' c (List.mem_append_left _ hc)) (by simp [hpoint]) (by simp [hpoint])
        hsame
      obtain rfl := (List.cons.inj hrest).2
      rfl

/-- Only digits and a point are used. -/
theorem isDigit_or_point (h : Spells text x) : ∀ c ∈ text, c.isDigit ∨ c = '.' := by
  cases h with
  | whole digits _ hdigits => exact fun c hc => .inl (hdigits c hc)
  | point digits fraction _ _ hdigits =>
    intro c hc
    rcases List.mem_append.mp hc with hc | hc
    · exact .inl (hdigits c (List.mem_append_left _ hc))
    · rcases List.mem_cons.mp hc with rfl | hc
      · exact .inr rfl
      · exact .inl (hdigits c (List.mem_append_right _ hc))

/-- The first character is a digit. -/
theorem exists_head (h : Spells text x) : ∃ c ∈ text.head?, c.isDigit := by
  cases h with
  | whole digits hne hdigits =>
    obtain ⟨c, rest, rfl⟩ := List.exists_cons_of_ne_nil hne
    exact ⟨c, rfl, hdigits c List.mem_cons_self⟩
  | point digits fraction hne _ hdigits =>
    obtain ⟨c, rest, rfl⟩ := List.exists_cons_of_ne_nil hne
    exact ⟨c, rfl, hdigits c (by simp)⟩

/-- The last character is a digit. -/
theorem exists_getLast (h : Spells text x) : ∃ c ∈ text.getLast?, c.isDigit := by
  cases h with
  | whole digits hne hdigits =>
    exact ⟨_, List.getLast?_eq_some_getLast hne, hdigits _ (List.getLast_mem hne)⟩
  | point digits fraction _ hne' hdigits =>
    refine ⟨fraction.getLast hne', ?_, hdigits _ (by simp)⟩
    rw [List.getLast?_append_cons, List.getLast?_cons_of_ne_nil hne',
      List.getLast?_eq_some_getLast hne']
    rfl

end Spells

/-! ## Laid out digits -/

theorem ofDigitChars_zeros (n start : Nat) :
    Nat.ofDigitChars 10 (List.replicate n '0') start = start * 10 ^ n := by
  induction n generalizing start with
  | zero => simp
  | succ n ih =>
    rw [List.replicate_succ, Nat.ofDigitChars_cons, ih, pow_succ]
    simp only [Nat.sub_self, Nat.add_zero]
    ring

theorem isDigit_zeros (n : Nat) : ∀ c ∈ List.replicate n '0', c.isDigit := by
  intro c hc
  obtain rfl := List.eq_of_mem_replicate hc
  decide

section Digits

variable {digits : List Char} (hne : digits ≠ []) (hdigits : ∀ c ∈ digits, c.isDigit)
include hne hdigits

/-- Zeros behind the digits multiply. -/
theorem spells_padded (n : Nat) :
    Spells (digits ++ List.replicate n '0') (Nat.ofDigitChars 10 digits 0 * 10 ^ n) := by
  have hall : ∀ c ∈ digits ++ List.replicate n '0', c.isDigit := fun c hc =>
    (List.mem_append.mp hc).elim (hdigits c) (isDigit_zeros n c)
  have hspelled := Spells.whole (digits ++ List.replicate n '0') (by simp [hne]) hall
  rw [Nat.ofDigitChars_append, ofDigitChars_zeros] at hspelled
  exact_mod_cast hspelled

/-- Zeros between the point and the digits divide. -/
theorem spells_fraction (n : Nat) :
    Spells (['0'] ++ '.' :: (List.replicate n '0' ++ digits))
      (Nat.ofDigitChars 10 digits 0 / 10 ^ (n + digits.length)) := by
  have hall : ∀ c ∈ ['0'] ++ (List.replicate n '0' ++ digits), c.isDigit := by
    intro c hc
    simp only [List.mem_append, List.mem_singleton] at hc
    rcases hc with rfl | hc | hc
    · decide
    · exact isDigit_zeros n c hc
    · exact hdigits c hc
  have hspelled := Spells.point ['0'] (List.replicate n '0' ++ digits) (by simp) (by simp [hne])
    hall
  rw [Nat.ofDigitChars_append, Nat.ofDigitChars_append, ofDigitChars_zeros, List.length_append,
    List.length_replicate] at hspelled
  simpa [Nat.ofDigitChars_cons] using hspelled

/-- A point among the digits divides. -/
theorem spells_split {n : Nat} (hpos : 0 < n) (hlt : n < digits.length) :
    Spells (digits.take n ++ '.' :: digits.drop n)
      (Nat.ofDigitChars 10 digits 0 / 10 ^ (digits.length - n)) := by
  have hspelled := Spells.point (digits.take n) (digits.drop n) (by simp [hne]; omega)
    (by simpa using hlt) (by simpa using hdigits)
  rwa [List.take_append_drop, List.length_drop] at hspelled

end Digits

/-- The digits of a number, laid out without an exponent, spell it at the place of the point. -/
theorem spells_positionalText {layout : Layout} (hlayout : layout.pointZero = false)
    (digits : Nat) (leading : Int) :
    Spells (layout.positionalText (Nat.toDigits 10 digits) leading).toList
      (digits * 10 ^ (leading + 1 - (Nat.toDigits 10 digits).length)) := by
  have hdigits : ∀ c ∈ Nat.toDigits 10 digits, c.isDigit := fun c hc =>
    Nat.isDigit_of_mem_toDigits (by decide) (by decide) hc
  have hvalue : Nat.ofDigitChars 10 (Nat.toDigits 10 digits) 0 = digits :=
    Nat.ofDigitChars_ten_toDigits
  have hne : Nat.toDigits 10 digits ≠ [] := Nat.toDigits_ne_nil
  generalize Nat.toDigits 10 digits = written at *
  simp only [Layout.positionalText]
  split
  · next hnegative =>
    have hspelled := spells_fraction hne hdigits (-leading - 1).toNat
    have hexponent : leading + 1 - written.length =
        -(((-leading - 1).toNat + written.length : Nat) : Int) := by omega
    rw [hexponent, zpow_neg, zpow_natCast, ← div_eq_mul_inv, ← hvalue]
    simpa [Layout.zeros] using hspelled
  · split
    · next hshort =>
      have hspelled := spells_padded hne hdigits (leading.toNat + 1 - written.length)
      have hexponent : leading + 1 - written.length =
          ((leading.toNat + 1 - written.length : Nat) : Int) := by omega
      rw [hexponent, zpow_natCast, ← hvalue]
      simpa [Layout.zeros, hlayout] using hspelled
    · next hlong =>
      have hspelled := spells_split hne hdigits (Nat.succ_pos leading.toNat) (by omega)
      have hexponent : leading + 1 - written.length =
          -((written.length - (leading.toNat + 1) : Nat) : Int) := by omega
      rw [hexponent, zpow_neg, zpow_natCast, ← div_eq_mul_inv, ← hvalue]
      simpa using hspelled

/-! ## Numbers in expressions -/

/-- The number that the written form of a value stands for. -/
def writtenValue (significand : Nat) (exponent : Int) : ℚ :=
  if significand = 0 then 0 else (shortest .upward significand exponent).value

theorem spells_magnitudeText (significand : Nat) (exponent : Int) :
    Spells (expressionNumbers.magnitudeText significand exponent).toList
      (writtenValue significand exponent) := by
  simp only [Layout.magnitudeText, writtenValue]
  split
  · have hzero : Spells ['0'] (Nat.ofDigitChars 10 ['0'] 0) := .whole _ (by simp) (by simp)
    simpa [expressionNumbers, Nat.ofDigitChars_cons] using hzero
  · have hspelled := spells_positionalText (show expressionNumbers.pointZero = false from rfl)
      (shortest .upward significand exponent).digits
      ((shortest .upward significand exponent).exponent +
        (Nat.toDigits 10 (shortest .upward significand exponent).digits).length - 1)
    rwa [sub_add_cancel, add_sub_cancel_right] at hspelled

/-- Values without sign that are written alike are the same. -/
theorem eq_of_writtenValue_eq {significand significand' : Nat} {exponent exponent' : Int}
    (hcanonical : Binary64.Canonical significand exponent)
    (hcanonical' : Binary64.Canonical significand' exponent')
    (h : writtenValue significand exponent = writtenValue significand' exponent') :
    significand = significand' ∧ exponent = exponent' := by
  have hzero {exponent : Int} (hcanonical : Binary64.Canonical 0 exponent) :
      exponent = Binary64.minExponent := by
    rcases hcanonical.2.2 with hfull | hleast
    · exact absurd hfull (by decide)
    · exact hleast
  simp only [writtenValue] at h
  split at h
  · next hsignificand =>
    subst hsignificand
    split at h
    · next hsignificand' =>
      subst hsignificand'
      exact ⟨rfl, (hzero hcanonical).trans (hzero hcanonical').symm⟩
    · next hpos' =>
      exact absurd h (value_shortest_pos .upward (Nat.pos_of_ne_zero hpos') exponent').ne
  · next hpos =>
    split at h
    · exact absurd h (value_shortest_pos .upward (Nat.pos_of_ne_zero hpos) exponent).ne'
    · next hpos' =>
      exact eq_of_value_shortest_eq (Nat.pos_of_ne_zero hpos) (Nat.pos_of_ne_zero hpos')
        hcanonical hcanonical' h

/-- The sign of a number. -/
def signText (negative : Bool) : List Char := if negative then ['-'] else []

/-- The sign can be told from the digits. -/
theorem signText_append_inj {negative negative' : Bool} {text text' : List Char} {x y : ℚ}
    (h : Spells text x) (h' : Spells text' y)
    (heq : signText negative ++ text = signText negative' ++ text') :
    negative = negative' ∧ text = text' := by
  obtain ⟨c, hc, hdigit⟩ := h.exists_head
  obtain ⟨c', hc', hdigit'⟩ := h'.exists_head
  have hminus : ('-').isDigit = false := by decide
  cases negative <;> cases negative'
  · exact ⟨rfl, heq⟩
  · obtain rfl : text = '-' :: text' := heq
    obtain rfl : '-' = c := by simpa using hc
    simp [hminus] at hdigit
  · obtain rfl : '-' :: text = text' := heq
    obtain rfl : '-' = c' := by simpa using hc'
    simp [hminus] at hdigit'
  · exact ⟨rfl, (List.cons.inj heq).2⟩

/-- The text of a number, whole or not. -/
def IsNumeral (text : List Char) : Prop :=
  ∃ negative digits x, Spells digits x ∧ text = signText negative ++ digits

/-- The characters in the texts of numbers. -/
def isNumeralChar (c : Char) : Bool := c.isDigit || c = '.' || c = '-'

namespace IsNumeral

variable {text : List Char} (h : IsNumeral text)
include h

theorem isNumeralChar : ∀ c ∈ text, isNumeralChar c := by
  obtain ⟨negative, digits, x, hspelled, rfl⟩ := h
  intro c hc
  rcases List.mem_append.mp hc with hc | hc
  · cases negative <;> simp_all [signText, Decimal.isNumeralChar]
  · rcases hspelled.isDigit_or_point c hc with hdigit | rfl
    · simp [Decimal.isNumeralChar, hdigit]
    · rfl

theorem exists_getLast : ∃ c ∈ text.getLast?, c.isDigit := by
  obtain ⟨negative, digits, x, hspelled, rfl⟩ := h
  obtain ⟨c, hc, hdigit⟩ := hspelled.exists_getLast
  refine ⟨c, ?_, hdigit⟩
  rw [List.getLast?_append, Option.mem_def.mp hc]
  rfl

end IsNumeral

/-- The digits of a natural number spell it. -/
theorem spells_toDigits (n : Nat) : Spells (Nat.toDigits 10 n) n := by
  have hspelled := Spells.whole (Nat.toDigits 10 n) Nat.toDigits_ne_nil fun c hc =>
    Nat.isDigit_of_mem_toDigits (by decide) (by decide) hc
  rwa [Nat.ofDigitChars_ten_toDigits] at hspelled

/-- The text of an integer is its sign and the digits of its magnitude. -/
theorem toList_toString_int (i : Int) :
    (toString i).toList = signText (i < 0) ++ Nat.toDigits 10 i.natAbs := by
  cases i with
  | ofNat n => simp [signText, toString, Int.repr]
  | negSucc n => simp [signText, toString, Int.repr]

theorem isNumeral_int (i : Int) : IsNumeral (toString i).toList :=
  ⟨_, _, _, spells_toDigits i.natAbs, toList_toString_int i⟩

/-- Integers that are written alike are the same. -/
theorem int_eq_of_text_eq {i j : Int} (h : toString i = toString j) : i = j := by
  have hlist := congrArg String.toList h
  rw [toList_toString_int, toList_toString_int] at hlist
  have hspelled := spells_toDigits i.natAbs
  obtain ⟨hsign, hdigits⟩ := signText_append_inj hspelled (spells_toDigits j.natAbs) hlist
  rw [hdigits] at hspelled
  have habs : i.natAbs = j.natAbs := by exact_mod_cast hspelled.unique (spells_toDigits j.natAbs)
  have hnegative : i < 0 ↔ j < 0 := by simpa using hsign
  omega

/-- A finite value and the parts of its word. -/
def IsFinite (x : Float) (negative : Bool) (significand : Nat) (exponent : Int) : Prop :=
  Binary64.ofBits x.toBits = .finite negative significand exponent

theorem toList_text {x : Float} {negative : Bool} {significand : Nat} {exponent : Int}
    (h : IsFinite x negative significand exponent) :
    (expressionNumbers.text x).toList = signText negative ++
      (expressionNumbers.magnitudeText significand exponent).toList := by
  rw [Layout.text, h]
  cases negative <;> simp [signText]

theorem isNumeral_text {x : Float} {negative : Bool} {significand : Nat} {exponent : Int}
    (h : IsFinite x negative significand exponent) :
    IsNumeral (expressionNumbers.text x).toList :=
  ⟨negative, _, _, spells_magnitudeText significand exponent, toList_text h⟩

/-- **Finite values that are written alike in expressions are the same.** -/
theorem eq_of_text_eq {x y : Float} {negative negative' : Bool} {significand significand' : Nat}
    {exponent exponent' : Int} (hx : IsFinite x negative significand exponent)
    (hy : IsFinite y negative' significand' exponent')
    (h : expressionNumbers.text x = expressionNumbers.text y) : x = y := by
  have hlist := congrArg String.toList h
  rw [toList_text hx, toList_text hy] at hlist
  have hspelled := spells_magnitudeText significand exponent
  have hspelled' := spells_magnitudeText significand' exponent'
  obtain ⟨rfl, hmagnitude⟩ := signText_append_inj hspelled hspelled' hlist
  rw [hmagnitude] at hspelled
  obtain ⟨rfl, rfl⟩ := eq_of_writtenValue_eq (Binary64.ofBits_eq_finite hx).1
    (Binary64.ofBits_eq_finite hy).1 (hspelled.unique hspelled')
  have hbits := Binary64.eq_of_ofBits_eq_finite hx hy
  obtain ⟨⟨bits, valid⟩⟩ := x
  obtain ⟨⟨bits', valid'⟩⟩ := y
  obtain rfl : bits = bits' := hbits
  rfl

end Decimal

end Bindery
