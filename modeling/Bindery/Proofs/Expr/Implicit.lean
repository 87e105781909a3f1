import Bindery.Proofs.Expr.Bare
import Bindery.Proofs.Expr.Lookups

/-!
# Expressions without an explicit document

A member of the document may be named with or without `this.` in front of it. Both ways have the
same normal form, in which every member of the document is named by itself. Unlike the bare form of
an expression, this one keeps all places. The normal form has the text, the code and the
destination of the expression.
-/

namespace Bindery

namespace Expr

/-! ## Explicit names -/

section Prefixed

variable (resolver : Resolver)

mutual

/-- An expression in which some names of document members have been prefixed with `this.`, each of
them at its place. -/
inductive Prefixed : Expr → Expr → Prop
  | this {name : String} {span : Span} (start : Span) :
    (resolver.documentMember? name).isSome →
      Prefixed (.identifier name span) (.member (.self start) name span)
  | self {span : Span} : Prefixed (.self span) (.self span)
  | identifier {name : String} {span : Span} :
    Prefixed (.identifier name span) (.identifier name span)
  | member {object object' : Expr} {name : String} {span : Span} :
    Prefixed object object' → Prefixed (.member object name span) (.member object' name span)
  | index {object object' i i' : Expr} {span : Span} :
    Prefixed object object' → Prefixed i i' →
      Prefixed (.index object i span) (.index object' i' span)
  | call {callee callee' : Expr} {args args' : List Expr} {span : Span} :
    Prefixed callee callee' → PrefixedAll args args' →
      Prefixed (.call callee args span) (.call callee' args' span)
  | literal {value : Literal} {span : Span} : Prefixed (.literal value span) (.literal value span)
  | binary {op : BinaryOp} {left left' right right' : Expr} {span : Span} :
    Prefixed left left' → Prefixed right right' →
      Prefixed (.binary op left right span) (.binary op left' right' span)
  | concat {parts parts' : List Expr} {span : Span} :
    PrefixedAll parts parts' → Prefixed (.concat parts span) (.concat parts' span)

/-- Several expressions in which some names of document members have been prefixed. -/
inductive PrefixedAll : List Expr → List Expr → Prop
  | nil : PrefixedAll [] []
  | cons {e e' : Expr} {es es' : List Expr} :
    Prefixed e e' → PrefixedAll es es' → PrefixedAll (e :: es) (e' :: es')

end

mutual

/-- An expression without `this.` in front of the names of document members. -/
def implicit : Expr → Expr
  | .self span => .self span
  | .identifier name span => .identifier name span
  | .member object name span =>
    if object.isSelf ∧ (resolver.documentMember? name).isSome then .identifier name span
    else .member (implicit object) name span
  | .index object i span => .index (implicit object) (implicit i) span
  | .call callee args span => .call (implicit callee) (implicitAll args) span
  | .literal value span => .literal value span
  | .binary op left right span => .binary op (implicit left) (implicit right) span
  | .concat parts span => .concat (implicitAll parts) span

/-- Several expressions without `this.` in front of the names of document members. -/
def implicitAll : List Expr → List Expr
  | [] => []
  | e :: es => implicit e :: implicitAll es

end

/-- The document itself is not named by a member. -/
theorem Prefixed.isSelf_eq {resolver : Resolver} {e e' : Expr} (h : e.Prefixed resolver e') :
    e.isSelf = e'.isSelf := by
  cases h <;> rfl

mutual

/-- Prefixed names do not show in the normal form. -/
theorem implicit_eq_of_prefixed {resolver : Resolver} : (e : Expr) → {e' : Expr} →
    Prefixed resolver e e' → e.implicit resolver = e'.implicit resolver
  | .self _, _, .self | .literal .., _, .literal | .identifier .., _, .identifier => rfl
  | .identifier name span, _, .this start hmember => by simp [implicit, isSelf, hmember]
  | .member object name span, _, .member hobject => by
    rw [implicit, implicit, hobject.isSelf_eq, implicit_eq_of_prefixed object hobject]
  | .index object i span, _, .index hobject hi => by
    rw [implicit, implicit, implicit_eq_of_prefixed object hobject, implicit_eq_of_prefixed i hi]
  | .call callee args span, _, .call hcallee hargs => by
    rw [implicit, implicit, implicit_eq_of_prefixed callee hcallee,
      implicitAll_eq_of_prefixed args hargs]
  | .binary op left right span, _, .binary hleft hright => by
    rw [implicit, implicit, implicit_eq_of_prefixed left hleft,
      implicit_eq_of_prefixed right hright]
  | .concat parts span, _, .concat hparts => by
    rw [implicit, implicit, implicitAll_eq_of_prefixed parts hparts]

theorem implicitAll_eq_of_prefixed {resolver : Resolver} : (es : List Expr) → {es' : List Expr} →
    PrefixedAll resolver es es' → implicitAll resolver es = implicitAll resolver es'
  | [], _, .nil => rfl
  | e :: es, _, .cons he hes => by
    rw [implicitAll, implicitAll, implicit_eq_of_prefixed e he, implicitAll_eq_of_prefixed es hes]

end

end Prefixed

/-! ## The normal form -/

section Implicit

variable (resolver : Resolver)

theorem implicitAll_eq_map (es : List Expr) :
    implicitAll resolver es = es.map (implicit resolver) := by
  induction es with
  | nil => rfl
  | cons e es ih => rw [implicitAll, ih, List.map_cons]

@[simp] theorem length_implicitAll (es : List Expr) :
    (implicitAll resolver es).length = es.length := by
  rw [implicitAll_eq_map, List.length_map]

/-- A member of the document is named by itself, any other one behind its object. -/
theorem implicit_member_cases (object : Expr) (name : String) (span : Span) :
    (∃ start, object = self start ∧ (resolver.documentMember? name).isSome ∧
        (member object name span).implicit resolver = identifier name span) ∨
      (member object name span).implicit resolver =
        member (object.implicit resolver) name span := by
  rw [implicit]
  split
  · next h =>
    obtain ⟨start, rfl⟩ : ∃ start, object = self start := by
      cases object <;> simp [isSelf] at h ⊢
    exact .inl ⟨start, rfl, h.2, rfl⟩
  · exact .inr rfl

/-- Nothing but the document itself becomes it. -/
theorem implicit_ne_self {object : Expr} (hself : ∀ span, object = self span → False)
    (span : Span) : object.implicit resolver ≠ self span := by
  cases object with
  | self other => exact absurd rfl (hself other)
  | member inner name place =>
    rcases implicit_member_cases resolver inner name place with ⟨_, -, -, h⟩ | h <;> simp [h]
  | _ => simp [implicit]

@[simp] theorem span_implicit (e : Expr) : (e.implicit resolver).span = e.span := by
  cases e with
  | member object name place =>
    rcases implicit_member_cases resolver object name place with ⟨_, -, -, h⟩ | h <;>
      simp [h, span]
  | _ => simp [implicit, span]

@[simp] theorem isConcat_implicit (e : Expr) : (e.implicit resolver).isConcat = e.isConcat := by
  cases e with
  | member object name place =>
    rcases implicit_member_cases resolver object name place with ⟨_, -, -, h⟩ | h <;>
      simp [h, isConcat]
  | _ => simp [implicit, isConcat]

@[simp] theorem ownName?_implicit (e : Expr) : (e.implicit resolver).ownName? = e.ownName? := by
  cases e with
  | member object name place =>
    rcases implicit_member_cases resolver object name place with ⟨start, rfl, -, h⟩ | h
    · rw [h]; rfl
    · rw [h]
      rcases object.eq_self_or_not with ⟨_, rfl⟩ | hself
      · rfl
      · rw [ownName?_member hself, ownName?_member (implicit_ne_self resolver hself)]
  | _ => simp [implicit, ownName?]

mutual

/-- The normal form has the same bare form. -/
@[simp] theorem bare_implicit : (e : Expr) → (e.implicit resolver).bare = e.bare
  | .self _ | .identifier .. | .literal .. => by simp [implicit]
  | .member object name span => by
    rcases implicit_member_cases resolver object name span with ⟨start, rfl, -, h⟩ | h
    · rw [h, bare, bare]
    · rw [h]
      rcases object.eq_self_or_not with ⟨_, rfl⟩ | hself
      · rw [implicit]
      · rw [bare_member hself, bare_member (implicit_ne_self resolver hself), bare_implicit object]
  | .index object i _ => by simp [implicit, bare, bare_implicit object, bare_implicit i]
  | .call callee args _ => by simp [implicit, bare, bare_implicit callee, bareAll_implicitAll args]
  | .binary _ left right _ => by simp [implicit, bare, bare_implicit left, bare_implicit right]
  | .concat parts _ => by simp [implicit, bare, bareAll_implicitAll parts]

theorem bareAll_implicitAll : (es : List Expr) → bareAll (implicitAll resolver es) = bareAll es
  | [] => rfl
  | e :: es => by rw [implicitAll, bareAll, bareAll, bare_implicit e, bareAll_implicitAll es]

end

@[simp] theorem text_implicit (e : Expr) : (e.implicit resolver).text = e.text := by
  rw [← text_bare, bare_implicit, text_bare]

@[simp] theorem argTexts_implicitAll (es : List Expr) :
    argTexts (implicitAll resolver es) = argTexts es := by
  rw [← argTexts_bareAll, bareAll_implicitAll, argTexts_bareAll]

@[simp] theorem lower_implicit (e : Expr) :
    (e.implicit resolver).lower resolver = e.lower resolver := by
  rw [← lower_bare, bare_implicit, lower_bare]

@[simp] theorem isSimpleProperty_implicit (e : Expr) :
    (e.implicit resolver).isSimpleProperty resolver = e.isSimpleProperty resolver := by
  rw [isSimpleProperty, isSimpleProperty, ownName?_implicit]

/-! ## Destinations -/

/-- A literal and nothing else becomes this literal. -/
theorem implicit_eq_literal_iff {e : Expr} {value : Literal} {span : Span} :
    e.implicit resolver = literal value span ↔ e = literal value span := by
  cases e with
  | member object name place =>
    rcases implicit_member_cases resolver object name place with ⟨_, -, -, h⟩ | h <;> simp [h]
  | _ => simp [implicit]

/-- The segments of a member of anything but the document itself. -/
theorem segments?_member {object : Expr} (hself : ∀ span, object = self span → False)
    (name : String) (span : Span) :
    (member object name span).segments? = object.segments?.map (· ++ [{ name }]) := by
  rw [segments?]
  exact hself

/-- Only an integer can number an element of a destination. -/
theorem segments?_index_of_ne {object i : Expr}
    (hi : ∀ value span, i ≠ literal (.int value) span) (span : Span) :
    (index object i span).segments? = none := by
  cases i with
  | literal value place =>
    cases value with
    | int value => exact absurd rfl (hi value place)
    | _ => rfl
  | _ => rfl

theorem segments?_implicit : (e : Expr) → (e.implicit resolver).segments? = e.segments?
  | .self _ | .identifier .. | .literal .. | .call .. | .binary .. | .concat .. => by
    simp [implicit, segments?]
  | .member object name span => by
    rcases implicit_member_cases resolver object name span with ⟨start, rfl, -, h⟩ | h
    · rw [h, segments?, segments?]
    · rw [h]
      rcases object.eq_self_or_not with ⟨_, rfl⟩ | hself
      · rw [implicit]
      · rw [segments?_member hself, segments?_member (implicit_ne_self resolver hself),
          segments?_implicit object]
  | .index object i span => by
    rw [implicit]
    by_cases hi : ∃ value place, i = literal (.int value) place
    · obtain ⟨value, place, rfl⟩ := hi
      rw [implicit, segments?, segments?, segments?_implicit object]
    · have hne : ∀ value place, i ≠ literal (.int value) place :=
        fun value place h => hi ⟨value, place, h⟩
      rw [segments?_index_of_ne hne, segments?_index_of_ne]
      exact fun value place h => hne value place ((implicit_eq_literal_iff resolver).mp h)

/-- The destination of an expression does not depend on whether members are named by themselves. -/
@[simp] theorem placement_implicit (toText : Bool) (e : Expr) :
    (e.implicit resolver).placement resolver toText = e.placement resolver toText := by
  simp [placement, segments?_implicit]

end Implicit

end Expr

end Bindery
