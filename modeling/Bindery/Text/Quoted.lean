/-!
# Quoted text

Three output formats quote text, each with its own list of characters that must be written
another way: the instruction listing, the JSON writer and the summary of a binding database. A
quoting rule is a function from a character to its written form; writing a text applies the rule
to every character.
-/

namespace Bindery.Text

/-- The text with every character replaced by its written form. -/
def escapeWith (written : Char → List Char) (text : String) : String :=
  String.ofList (text.toList.flatMap written)

/-- The escaped text between two quotation marks. -/
def quoteWith (written : Char → List Char) (text : String) : String :=
  "\"" ++ escapeWith written text ++ "\""

/-- The hexadecimal digit of a value below sixteen, in lower case. -/
def hexDigit (n : Nat) : Char :=
  if n < 10 then Char.ofNat ('0'.toNat + n) else Char.ofNat ('a'.toNat + (n - 10))

/-- The hexadecimal digits of a number, at least one and at most `places`. -/
def hexDigits : (places : Nat) → Nat → List Char
  | 0, _ => []
  | places + 1, n =>
    if n < 16 then [hexDigit n] else hexDigits places (n / 16) ++ [hexDigit (n % 16)]

@[simp] theorem toList_escapeWith (written : Char → List Char) (text : String) :
    (escapeWith written text).toList = text.toList.flatMap written := by
  simp [escapeWith]

/-- Escaping works character by character, so it distributes over joining. -/
theorem escapeWith_append (written : Char → List Char) (s t : String) :
    escapeWith written (s ++ t) = escapeWith written s ++ escapeWith written t := by
  simp [escapeWith]

end Bindery.Text
