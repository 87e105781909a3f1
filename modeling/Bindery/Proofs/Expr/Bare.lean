import Bindery.Proofs.Machine.Lowering

/-!
# Expressions without what is not written

Neither the place of an expression in the markup nor an explicit `this.` in front of a name shows in
its canonical text. Neither has a part in its code.
-/

namespace Bindery

namespace Expr

mutual

/-- An expression without its places and without `this.` in front of names. -/
def bare : Expr → Expr
  | self _ => self .unknown
  | identifier name _ => identifier name .unknown
  | member (self _) name _ => identifier name .unknown
  | member object name _ => member (bare object) name .unknown
  | index object i _ => index (bare object) (bare i) .unknown
  | call callee args _ => call (bare callee) (bareAll args) .unknown
  | literal value _ => literal value .unknown
  | binary op left right _ => binary op (bare left) (bare right) .unknown
  | concat elements _ => concat (bareAll elements) .unknown

/-- Several expressions without their places and without `this.` in front of names. -/
def bareAll : List Expr → List Expr
  | [] => []
  | e :: es => bare e :: bareAll es

end

theorem bareAll_eq_map (es : List Expr) : bareAll es = es.map bare := by
  induction es with
  | nil => rfl
  | cons e es ih => rw [bareAll, ih, List.map_cons]

@[simp] theorem length_bareAll (es : List Expr) : (bareAll es).length = es.length := by
  rw [bareAll_eq_map, List.length_map]

/-- The member of anything but the document itself stays one. -/
theorem bare_member {object : Expr} (hself : ∀ span, object = self span → False) (name : String)
    (span : Span) : (member object name span).bare = member object.bare name .unknown := by
  rw [bare]
  exact hself

/-- Nothing but the document itself becomes it. -/
theorem bare_ne_self {object : Expr} (hself : ∀ span, object = self span → False) (span : Span) :
    object.bare ≠ self span := by
  cases object with
  | self other => exact absurd rfl (hself other)
  | member inner name =>
    rcases inner.eq_self_or_not with ⟨_, rfl⟩ | hinner
    · simp [bare]
    · simp [bare_member hinner]
  | _ => simp [bare]

@[simp] theorem strength_bare (e : Expr) : e.bare.strength = e.strength := by
  cases e with
  | member object name =>
    rcases object.eq_self_or_not with ⟨_, rfl⟩ | hself
    · rfl
    · rw [bare_member hself]
      rfl
  | _ => simp [bare, strength]

/-! ## Texts -/

/-- The text of a member of anything but the document itself. -/
theorem text_member {object : Expr} (hself : ∀ span, object = self span → False) (name : String)
    (span : Span) : (member object name span).text =
      enclose atomStrength object.strength object.text ++ "." ++ name := by
  rw [text]
  exact hself

mutual

@[simp] theorem text_bare : (e : Expr) → e.bare.text = e.text
  | .self _ | .identifier .. | .literal .. => by simp [bare, text]
  | .member object name _ => by
    rcases object.eq_self_or_not with ⟨_, rfl⟩ | hself
    · simp [bare, text]
    · rw [bare_member hself, text_member hself, text_member (bare_ne_self hself), text_bare object,
        strength_bare]
  | .index object i _ => by simp [bare, text, text_bare object, text_bare i]
  | .call callee args _ => by simp [bare, text, text_bare callee, argTexts_bareAll args]
  | .binary _ left right _ => by simp [bare, text, text_bare left, text_bare right]
  | .concat [] _ => by simp [bare, bareAll, text]
  | .concat (first :: rest) _ => by
    simp [bare, bareAll, text, text_bare first, laterTexts_bareAll rest]

theorem argTexts_bareAll : (es : List Expr) → argTexts (bareAll es) = argTexts es
  | [] => rfl
  | e :: es => by rw [bareAll, argTexts, argTexts, text_bare e, argTexts_bareAll es]

theorem laterTexts_bareAll : (es : List Expr) → laterTexts (bareAll es) = laterTexts es
  | [] => rfl
  | e :: es => by
    rw [bareAll, laterTexts, laterTexts, text_bare e, strength_bare, laterTexts_bareAll es]

end

/-! ## Code -/

section Code

variable (resolver : Resolver)

/-- Only a name or a member of something can be called. -/
theorem lower_call_other {callee : Expr} (hname : ∀ name span, callee ≠ identifier name span)
    (hmember : ∀ object name span, callee ≠ member object name span) (args : List Expr)
    (span : Span) :
    (call callee args span).lower resolver = .failed (.unsupportedCallee callee.text) := by
  cases callee with
  | identifier name s => exact absurd rfl (hname name s)
  | member object name s => exact absurd rfl (hmember object name s)
  | _ => simp [lower]

mutual

/-- The code of an expression does not depend on what is not written. -/
@[simp] theorem lower_bare : (e : Expr) → e.bare.lower resolver = e.lower resolver
  | .self _ | .identifier .. | .literal .. => by simp [bare, lower]
  | .member object name _ => by
    rcases object.eq_self_or_not with ⟨_, rfl⟩ | hself
    · simp [bare, lower]
    · rw [bare_member hself, lower_member hself, lower_member (bare_ne_self hself),
        lower_bare object]
  | .index object i _ => by simp [bare, lower, lower_bare object, lower_bare i]
  | .call (.identifier name s) args span => by
    have htext := text_bare (call (identifier name s) args span)
    simp only [bare] at htext
    simp [bare, lower, htext, lowerAll_bareAll args]
  | .call (.member object name s) args span => by
    rcases object.eq_self_or_not with ⟨start, rfl⟩ | hself
    · have htext := text_bare (call (member (self start) name s) args span)
      simp only [bare] at htext
      simp [bare, lower, htext, lowerAll_bareAll args]
    · rw [bare, bare_member hself, lower_call_member hself,
        lower_call_member (bare_ne_self hself), lower_bare object, lowerAll_bareAll args,
        length_bareAll]
  | .call (.self _) _ _ | .call (.index ..) _ _ | .call (.call ..) _ _ | .call (.literal ..) _ _
  | .call (.binary ..) _ _ | .call (.concat ..) _ _ => by
    rw [bare, lower_call_other resolver (by simp [bare]) (by simp [bare]),
      lower_call_other resolver (by simp) (by simp), text_bare]
  | .binary _ left right _ => by simp [bare, lower, lower_bare left, lower_bare right]
  | .concat elements _ => by simp [bare, lower, lowerParts_bareAll elements]

theorem lowerAll_bareAll : (es : List Expr) → lowerAll resolver (bareAll es) = lowerAll resolver es
  | [] => rfl
  | e :: es => by rw [bareAll, lowerAll, lowerAll, lower_bare e, lowerAll_bareAll es]

theorem lowerParts_bareAll :
    (es : List Expr) → lowerParts resolver (bareAll es) = lowerParts resolver es
  | [] => rfl
  | e :: es => by rw [bareAll, lowerParts, lowerParts, lower_bare e, lowerParts_bareAll es]

end

end Code

end Expr

end Bindery
