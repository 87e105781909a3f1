import Bindery.Proofs.Expr.Reading

/-!
# Exact expressions

An expression is exact if its text says all of it that counts. Two things stand in the way: text
with embedded expressions is written like a sum, and a floating-point number that is whole like an
integer. Without either, two expressions are written alike exactly if they are the same but for
their places and for `this.` in front of names. Strings can hold anything, also quotation marks, and
backslashes at their ends.
-/

namespace Bindery

/-- Whether a literal is no floating-point number. -/
def Literal.IsExact : Literal → Prop
  | number _ => False
  | _ => True

namespace Expr

/-- The expressions that are built from the document, names that can be told from everything else
and literals but for floating-point numbers, by reading members and elements, by calls and by
arithmetic. -/
inductive IsExact : Expr → Prop where
  | self (span : Span) : IsExact (self span)
  | identifier {name : String} (hname : IsName name) (span : Span) : IsExact (identifier name span)
  | member {object : Expr} {name : String} (hobject : IsExact object) (hname : IsName name)
      (span : Span) : IsExact (member object name span)
  | index {object i : Expr} (hobject : IsExact object) (hindex : IsExact i) (span : Span) :
      IsExact (index object i span)
  | call {callee : Expr} {args : List Expr} (hcallee : IsExact callee)
      (hargs : ∀ arg ∈ args, IsExact arg) (span : Span) : IsExact (call callee args span)
  | literal {value : Literal} (hvalue : value.IsExact) (span : Span) : IsExact (literal value span)
  | binary {left right : Expr} (op : BinaryOp) (hleft : IsExact left) (hright : IsExact right)
      (span : Span) : IsExact (binary op left right span)

variable {e e' part : Expr}

/-- All parts of an exact expression are exact. -/
theorem IsExact.of_mem_parts (h : e.IsExact) (hpart : part ∈ e.parts) : part.IsExact := by
  induction h with
  | self span =>
    obtain rfl := List.mem_singleton.mp hpart
    exact .self span
  | identifier hname span =>
    obtain rfl := List.mem_singleton.mp hpart
    exact .identifier hname span
  | literal hvalue span =>
    obtain rfl := List.mem_singleton.mp hpart
    exact .literal hvalue span
  | member hobject hname span ih =>
    rcases List.mem_cons.mp hpart with rfl | hinner
    · exact .member hobject hname span
    · exact ih hinner
  | index hobject hindex span ihobject ihindex =>
    rw [parts, List.mem_cons, List.mem_append] at hpart
    rcases hpart with rfl | hinner | hinner
    · exact .index hobject hindex span
    · exact ihobject hinner
    · exact ihindex hinner
  | call hcallee hargs span ihcallee ihargs =>
    rw [parts, List.mem_cons, List.mem_append, mem_partsAll] at hpart
    rcases hpart with rfl | hinner | ⟨arg, harg, hinner⟩
    · exact .call hcallee hargs span
    · exact ihcallee hinner
    · exact ihargs arg harg hinner
  | binary op hleft hright span ihleft ihright =>
    rw [parts, List.mem_cons, List.mem_append] at hpart
    rcases hpart with rfl | hinner | hinner
    · exact .binary op hleft hright span
    · exact ihleft hinner
    · exact ihright hinner

theorem IsExact.isLegible (h : e.IsExact) : e.IsLegible := by
  cases h with
  | identifier hname | member _ hname => exact hname
  | @literal value hvalue =>
    cases value with
    | number => exact hvalue.elim
    | _ => trivial
  | _ => trivial

/-- The numbers in exact expressions are integers. -/
theorem IsExact.exists_int {value : Literal} {span : Span} (h : e.IsExact)
    (hmem : .literal value span ∈ e.parts) (hnumber : value.isNumber) : ∃ i, value = .int i := by
  cases h.of_mem_parts hmem with
  | literal hvalue =>
    cases value with
    | int i => exact ⟨i, rfl⟩
    | number => exact hvalue.elim
    | null | bool | string => simp [Literal.isNumber] at hnumber

/-- Exact expressions can be compared by their texts. -/
theorem IsExact.comparable (h : e.IsExact) (h' : e'.IsExact) : Comparable e e' where
  legible _ hmem := (h.of_mem_parts hmem).isLegible
  legible' _ hmem := (h'.of_mem_parts hmem).isLegible
  numbers value span hmem value' span' hmem' hnumber hnumber' htext := by
    obtain ⟨i, rfl⟩ := h.exists_int hmem hnumber
    obtain ⟨j, rfl⟩ := h'.exists_int hmem' hnumber'
    rw [Int32.toInt_inj.mp (Decimal.int_eq_of_text_eq htext)]

/-- **The texts of exact expressions are unambiguous.** Two of them are written alike exactly if
they are the same but for their places and for `this.` in front of names. -/
theorem text_eq_iff_bare_eq (h : e.IsExact) (h' : e'.IsExact) :
    e.text = e'.text ↔ e.bare = e'.bare := by
  constructor
  · exact bare_eq_of_text_eq (h.comparable h')
  · intro hbare
    rw [← text_bare e, hbare, text_bare e']

/-- A call with two strings is not written like one with a single string, although the first of them
ends with a backslash and the single one holds what separates two strings. -/
theorem text_eq_iff_bare_eq_quoted :
    let string (value : String) : Expr := .literal (.string value) .unknown
    let two := call (.identifier "f" .unknown) [string "a\\", string "b"] .unknown
    let one := call (.member (.self .unknown) "f" .unknown) [string "a', 'b"] .unknown
    two.IsExact ∧ one.IsExact ∧ two.text = "f('a\\', 'b')" ∧ one.text = "f('a\\', \\'b')" ∧
      (two.text = one.text ↔ two.bare = one.bare) ∧ two.bare ≠ one.bare := by
  intro string two one
  have hname : IsName "f" :=
    isName_of_forall_isAlphanum (by simp) ⟨'f', by decide, by decide⟩ (by decide)
  have hstring (value : String) : (string value).IsExact :=
    .literal (show (Literal.string value).IsExact from trivial) _
  have htwo : two.IsExact := by
    refine .call (.identifier hname _) ?_ _
    simp only [List.forall_mem_cons]
    exact ⟨hstring _, hstring _, by simp⟩
  have hone : one.IsExact := by
    refine .call (.member (.self _) hname _) ?_ _
    simp only [List.forall_mem_cons]
    exact ⟨hstring _, by simp⟩
  refine ⟨htwo, hone, by decide, by decide, text_eq_iff_bare_eq htwo hone, ?_⟩
  simp [two, one, string, bare, bareAll]

end Expr

end Bindery
