/-!
# Dotted names

A qualified name such as `mx.binding.Binding` is a package and a local name joined by its last
dot; a property path such as `user.name` is a list of parts. The two splits used on them are
defined here on characters, by recursion on the text.
-/

namespace Bindery.Text

/-- The text before and after the last `c`, or nothing when `c` does not occur. -/
def splitLast (c : Char) : List Char → Option (List Char × List Char)
  | [] => none
  | x :: rest =>
    match splitLast c rest with
    | some (before, after) => some (x :: before, after)
    | none => if x = c then some ([], rest) else none

/-- The parts between the occurrences of `c`; there is one more part than there are `c`. -/
def splitEach (c : Char) : List Char → List Char × List (List Char)
  | [] => ([], [])
  | x :: rest =>
    let (part, parts) := splitEach c rest
    if x = c then ([], part :: parts) else (x :: part, parts)

/-- The package and the local name of a dotted name that has a package. -/
def packageAndLocal? (qualified : String) : Option (String × String) :=
  (splitLast '.' qualified.toList).map fun (before, after) =>
    (String.ofList before, String.ofList after)

/-- The part of a dotted name after its last dot; all of it when it has none. -/
def localName (qualified : String) : String :=
  match packageAndLocal? qualified with
  | some (_, name) => name
  | none => qualified

/-- The first part of a dotted path and the parts after it. -/
def pathParts (dotted : String) : String × List String :=
  let (first, rest) := splitEach '.' dotted.toList
  (String.ofList first, rest.map String.ofList)

/-- Splitting at the last `c` takes the text apart around that `c`. -/
theorem eq_of_splitLast {c : Char} {text before after : List Char}
    (h : splitLast c text = some (before, after)) : text = before ++ c :: after := by
  induction text generalizing before with
  | nil => simp [splitLast] at h
  | cons x rest ih =>
    rw [splitLast] at h
    split at h
    · next b a hrest =>
      simp only [Option.some.injEq, Prod.mk.injEq] at h
      obtain ⟨rfl, rfl⟩ := h
      simp [ih hrest]
    · split at h
      · next hx =>
        simp only [Option.some.injEq, Prod.mk.injEq] at h
        obtain ⟨rfl, rfl⟩ := h
        simp [hx]
      · simp at h

/-- The text after the last `c` holds no further `c`, and a text that cannot be split holds none. -/
theorem splitLast_eq_none_iff {c : Char} {text : List Char} :
    splitLast c text = none ↔ c ∉ text := by
  induction text with
  | nil => simp [splitLast]
  | cons x rest ih =>
    rw [splitLast]
    split
    · next b a hrest =>
      have : c ∈ rest := by simp [eq_of_splitLast hrest]
      simp [this]
    · next hrest =>
      have := ih.mp hrest
      by_cases hx : x = c
      · simp [hx]
      · simp [hx, this, Ne.symm hx]

end Bindery.Text
