import Bindery.Binding.Basic
import Bindery.Proofs.Machine.Lowering

/-!
# What the code of an expression looks up

The code of an expression fails at the first name that it needs and that nothing declares, or at the
first call of something that is not a method. The names are found in the expression alone, in the
order in which code generation comes to them. The members of other objects are not among them: code
generation reads and calls whatever member it is asked for.
-/

namespace Bindery

/-! ## Parts -/

namespace Expr

mutual

/-- An expression and all expressions inside it. -/
def parts : Expr → List Expr
  | self span => [self span]
  | identifier name span => [identifier name span]
  | member object name span => member object name span :: parts object
  | index object i span => index object i span :: (parts object ++ parts i)
  | call callee args span => call callee args span :: (parts callee ++ partsAll args)
  | literal value span => [literal value span]
  | binary op left right span => binary op left right span :: (parts left ++ parts right)
  | concat elements span => concat elements span :: partsAll elements

/-- All expressions inside several expressions. -/
def partsAll : List Expr → List Expr
  | [] => []
  | e :: es => parts e ++ partsAll es

end

theorem mem_parts_self (e : Expr) : e ∈ e.parts := by
  cases e <;> simp [parts]

theorem mem_partsAll {part : Expr} {es : List Expr} :
    part ∈ partsAll es ↔ ∃ e ∈ es, part ∈ e.parts := by
  induction es with
  | nil => simp [partsAll]
  | cons e es ih => simp [partsAll, ih]

theorem parts_subset_of_object {object : Expr} {name : String} {span : Span} :
    object.parts ⊆ (member object name span).parts := by
  simp [parts]

theorem parts_subset_of_indexed {object i : Expr} {span : Span} :
    object.parts ⊆ (index object i span).parts := by
  simp [parts]

theorem parts_subset_of_index {object i : Expr} {span : Span} :
    i.parts ⊆ (index object i span).parts := by
  simp [parts]

theorem parts_subset_of_left {op : BinaryOp} {left right : Expr} {span : Span} :
    left.parts ⊆ (binary op left right span).parts := by
  simp [parts]

theorem parts_subset_of_right {op : BinaryOp} {left right : Expr} {span : Span} :
    right.parts ⊆ (binary op left right span).parts := by
  simp [parts]

theorem parts_subset_of_callee {callee : Expr} {args : List Expr} {span : Span} :
    callee.parts ⊆ (call callee args span).parts := by
  simp [parts]

theorem parts_subset_of_mem_args {callee arg : Expr} {args : List Expr} {span : Span}
    (h : arg ∈ args) : arg.parts ⊆ (call callee args span).parts := by
  intro part hpart
  have hargs := mem_partsAll.mpr ⟨arg, h, hpart⟩
  simp [parts, hargs]

/-- An expression that reads one name of the document has no calls inside it. -/
theorem ownName?_eq_none_of_call {callee : Expr} {args : List Expr} {span : Span} {e : Expr}
    (h : call callee args span ∈ e.parts) : e.ownName? = none := by
  cases e with
  | identifier name => simp [parts] at h
  | member object name => cases object <;> simp_all [parts, ownName?]
  | _ => rfl

end Expr

/-! ## Look-ups -/

/-- Whether a name that is used without a receiver stands for something. -/
def Resolver.declares (resolver : Resolver) (name : String) : Bool :=
  (resolver.documentMember? name).isSome || (resolver.global? name).isSome

theorem Resolver.declares_eq_false_iff {resolver : Resolver} {name : String} :
    resolver.declares name = false ↔
      resolver.documentMember? name = none ∧ resolver.global? name = none := by
  simp [declares]

/-- Something that code generation needs in order to go on. -/
inductive Lookup where
  /-- A name that is read. -/
  | read (name : String)
  /-- A name that is called, in the call of this text. -/
  | target (name : String) (call : String)
  /-- A method, where an expression of this text is called that is none. -/
  | method (callee : String)

namespace Lookup

/-- Why a look-up fails, if it does. -/
def error? (resolver : Resolver) : Lookup → Option LoweringError
  | read name => if resolver.declares name then none else some (.unresolvedReference name)
  | target name call => if resolver.declares name then none else some (.unresolvedCallTarget call)
  | method callee => some (.unsupportedCallee callee)

/-- Only a name that is read is reported as such. -/
theorem error?_eq_unresolvedReference {resolver : Resolver} {lookup : Lookup} {name : String}
    (h : lookup.error? resolver = some (.unresolvedReference name)) :
    lookup = .read name ∧ resolver.declares name = false := by
  cases lookup with
  | read other =>
    simp only [error?] at h
    split at h
    · simp at h
    · next hdeclares =>
      obtain rfl := LoweringError.unresolvedReference.inj (Option.some.inj h)
      exact ⟨rfl, eq_false_of_ne_true hdeclares⟩
  | target other call =>
    simp only [error?] at h
    split at h <;> simp at h
  | method callee => simp [error?] at h

end Lookup

namespace Expr

theorem not_isSelf {e : Expr} (h : ∀ span, e = self span → False) : ¬e.isSelf := by
  cases e with
  | self span => exact absurd rfl (h span)
  | _ => exact Bool.false_ne_true

/-- A member of anything but the document itself is no name of the document. -/
theorem ownName?_member {object : Expr} (hself : ∀ span, object = self span → False) (name : String)
    (span : Span) : (member object name span).ownName? = none := by
  cases object with
  | self span => exact absurd rfl (hself span)
  | _ => rfl

/-- Whether an expression is a member of an object. -/
def isMember : Expr → Bool
  | member .. => true
  | _ => false

mutual

/-- What the code of an expression looks up, in order. What is called without being a method stops
code generation at once. -/
def lookups : Expr → List Lookup
  | self _ | literal .. => []
  | identifier name _ => [.read name]
  | member object name _ => if object.isSelf then [.read name] else lookups object
  | index object i _ => lookups object ++ lookups i
  | call callee args span =>
    (match callee.ownName? with
      | some name => [.target name (text (call callee args span))]
      | none => (if callee.isMember then [] else [.method callee.text]) ++ lookups callee) ++
      lookupsAll args
  | binary _ left right _ => lookups left ++ lookups right
  | concat elements _ => lookupsAll elements

/-- What the code of several expressions looks up, in order. -/
def lookupsAll : List Expr → List Lookup
  | [] => []
  | e :: es => lookups e ++ lookupsAll es

end

theorem mem_lookupsAll {lookup : Lookup} {es : List Expr} :
    lookup ∈ lookupsAll es ↔ ∃ e ∈ es, lookup ∈ e.lookups := by
  induction es with
  | nil => simp [lookupsAll]
  | cons e es ih => simp [lookupsAll, ih]

section Calls

variable {callee : Expr} {args : List Expr} {span : Span} {lookup : Lookup}

mutual

/-- What a call looks up is looked up wherever the call stands inside an expression. -/
theorem mem_lookups_of_call (hlookup : lookup ∈ (call callee args span).lookups) : (e : Expr) →
    call callee args span ∈ e.parts → lookup ∈ e.lookups
  | .self _, h | .identifier .., h | .literal .., h => by simp [parts] at h
  | .member object _ _, h => by
    have hmem : call callee args span ∈ object.parts := by simpa [parts] using h
    have hobject := mem_lookups_of_call hlookup object hmem
    cases object with
    | self => simp [parts] at hmem
    | _ =>
      rw [lookups, if_neg (by simp [isSelf])]
      exact hobject
  | .index object i _, h => by
    have hmem : call callee args span ∈ object.parts ∨ call callee args span ∈ i.parts := by
      simpa [parts] using h
    rw [lookups, List.mem_append]
    exact hmem.imp (mem_lookups_of_call hlookup object) (mem_lookups_of_call hlookup i)
  | .call inner others _, h => by
    rw [parts, List.mem_cons, List.mem_append] at h
    rcases h with heq | hinner | hargs
    · rwa [← heq]
    · have hmem := mem_lookups_of_call hlookup inner hinner
      rw [lookups, List.mem_append, ownName?_eq_none_of_call hinner]
      exact .inl (List.mem_append_right _ hmem)
    · rw [lookups, List.mem_append]
      exact .inr (mem_lookupsAll_of_call hlookup others hargs)
  | .binary _ left right _, h => by
    have hmem : call callee args span ∈ left.parts ∨ call callee args span ∈ right.parts := by
      simpa [parts] using h
    rw [lookups, List.mem_append]
    exact hmem.imp (mem_lookups_of_call hlookup left) (mem_lookups_of_call hlookup right)
  | .concat elements _, h => by
    rw [lookups]
    exact mem_lookupsAll_of_call hlookup elements (by simpa [parts] using h)

theorem mem_lookupsAll_of_call (hlookup : lookup ∈ (call callee args span).lookups) :
    (es : List Expr) → call callee args span ∈ partsAll es → lookup ∈ lookupsAll es
  | e :: es, h => by
    rw [lookupsAll, List.mem_append]
    rw [partsAll, List.mem_append] at h
    exact h.imp (mem_lookups_of_call hlookup e) (mem_lookupsAll_of_call hlookup es)

end

/-- A call of a name of the document looks up the name. -/
theorem target_mem_lookups {name : String} (hname : callee.ownName? = some name) :
    .target name (text (call callee args span)) ∈ (call callee args span).lookups := by
  simp [lookups, hname]

/-- What a call reads without a receiver is read by its arguments, or by what is called if that is
not itself a name of the document. -/
theorem read_mem_lookups_call_iff {name : String} :
    .read name ∈ (call callee args span).lookups ↔
      callee.ownName? = none ∧ .read name ∈ callee.lookups ∨ .read name ∈ lookupsAll args := by
  rw [lookups, List.mem_append]
  cases callee.ownName? with
  | some other => simp
  | none => cases callee.isMember <;> simp

theorem mem_lookups_of_mem_args {arg : Expr} (h : arg ∈ args) (hlookup : lookup ∈ arg.lookups) :
    lookup ∈ (call callee args span).lookups := by
  have hargs := mem_lookupsAll.mpr ⟨arg, h, hlookup⟩
  simp [lookups, hargs]

end Calls

end Expr

/-! ## Failures -/

/-- Of two parts, the first one that fails gives the reason. -/
theorem Lowered.error?_andThen (first second : Lowered) :
    (first.andThen second).error? = first.error?.or second.error? := by
  cases h : first.error? <;> simp [andThen, h]

namespace Resolver

variable (resolver : Resolver)

theorem error?_lowerName (name : String) :
    (resolver.lowerName name).error? = (Lookup.read name).error? resolver := by
  cases hmember : resolver.documentMember? name with
  | some definition => simp [lowerName, Lookup.error?, declares, hmember, Lowered.done]
  | none =>
    cases hglobal : resolver.global? name with
    | some definition =>
      cases hclass : definition.isClass <;>
        simp [lowerName, Lookup.error?, declares, hmember, hglobal, hclass, Lowered.done]
    | none => simp [lowerName, Lookup.error?, declares, hmember, hglobal, Lowered.failed]

theorem error?_lowerReceiver (name call : String) :
    (resolver.lowerReceiver name call).error? = (Lookup.target name call).error? resolver := by
  cases hmember : resolver.documentMember? name with
  | some definition => simp [lowerReceiver, Lookup.error?, declares, hmember, Lowered.done]
  | none =>
    cases hglobal : resolver.global? name <;>
      simp [lowerReceiver, Lookup.error?, declares, hmember, hglobal, Lowered.done, Lowered.failed]

end Resolver

namespace Expr

variable (resolver : Resolver)

mutual

/-- The code of an expression fails with the reason of the first look-up that fails. -/
theorem error?_lower : (e : Expr) →
    (e.lower resolver).error? = e.lookups.findSome? (·.error? resolver)
  | .self _ | .literal .. => by
    rw [lower, lookups]
    rfl
  | .identifier name _ => by
    rw [lower, lookups, resolver.error?_lowerName]
    simp
  | .member object name _ => by
    rcases object.eq_self_or_not with ⟨_, rfl⟩ | hself
    · rw [lower, lookups, resolver.error?_lowerName]
      simp [isSelf]
    · rw [lower_member hself, lookups, if_neg (not_isSelf hself), Lowered.error?_andThen,
        error?_lower object]
      exact Option.or_none
  | .index object i _ => by
    rw [lower, lookups, Lowered.error?_andThen, Lowered.error?_andThen, error?_lower object,
      error?_lower i, List.findSome?_append]
    exact Option.or_none
  | .call (.identifier name s) args span => by
    rw [lower, lookups, Lowered.error?_andThen, Lowered.error?_andThen,
      resolver.error?_lowerReceiver, error?_lowerAll args, List.findSome?_append]
    simp [ownName?, Lowered.done]
  | .call (.member object name _) args _ => by
    rcases object.eq_self_or_not with ⟨_, rfl⟩ | hself
    · rw [lower, lookups, Lowered.error?_andThen, Lowered.error?_andThen,
        resolver.error?_lowerReceiver, error?_lowerAll args, List.findSome?_append]
      simp [ownName?, Lowered.done]
    · rw [lower_call_member hself, lookups, lookups, if_neg (not_isSelf hself),
        ownName?_member hself, Lowered.error?_andThen, Lowered.error?_andThen, error?_lower object,
        error?_lowerAll args, List.findSome?_append]
      simp [isMember, Lowered.done]
  | .call (.self _) _ _ | .call (.index ..) _ _ | .call (.call ..) _ _
  | .call (.literal ..) _ _ | .call (.binary ..) _ _ | .call (.concat ..) _ _ => by
    rw [lower.eq_def, lookups]
    simp [ownName?, isMember, Lowered.failed, Lookup.error?]
  | .binary _ left right _ => by
    rw [lower, lookups, Lowered.error?_andThen, Lowered.error?_andThen, error?_lower left,
      error?_lower right, List.findSome?_append]
    exact Option.or_none
  | .concat elements _ => by
    rw [lower, lookups, Lowered.error?_andThen, error?_lowerParts elements]
    rfl

theorem error?_lowerAll : (es : List Expr) →
    (lowerAll resolver es).error? = (lookupsAll es).findSome? (·.error? resolver)
  | [] => by
    rw [lowerAll, lookupsAll]
    rfl
  | e :: es => by
    rw [lowerAll, lookupsAll, Lowered.error?_andThen, error?_lower e, error?_lowerAll es,
      List.findSome?_append]

theorem error?_lowerParts : (es : List Expr) →
    (lowerParts resolver es).error? = (lookupsAll es).findSome? (·.error? resolver)
  | [] => by
    rw [lowerParts, lookupsAll]
    rfl
  | e :: es => by
    rw [lowerParts, lookupsAll, Lowered.error?_andThen, Lowered.error?_andThen, error?_lower e,
      error?_lowerParts es, List.findSome?_append]
    simp [Lowered.done]

end

end Expr

end Bindery
