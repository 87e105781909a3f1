import Bindery.Binding.Basic
import Bindery.Proofs.Destination.Storing
import Mathlib.Data.List.Chain

/-!
# Destinations there and back

An expression can be given as a destination exactly if it is a path: a name, perhaps behind `this.`,
and then further names and constant elements, of which no two follow each other. The destination
that it names can be read again. Where classes are found under their own names, the expression that
reads it has the same text and names the same destination.
-/

namespace Bindery

/-! ## Paths -/

/-- One step further along a path. -/
inductive PathStep where
  | property (name : String) (span : Span)
  | element (number : Int32) (numberSpan span : Span)

namespace PathStep

/-- The expression that goes one step further than another one. -/
def extend (object : Expr) : PathStep → Expr
  | property name span => .member object name span
  | element number numberSpan span => .index object (.literal (.int number) numberSpan) span

/-- Whether a step leads to an element. -/
def isElement : PathStep → Bool
  | property .. => false
  | element .. => true

/-- A step to an element whose number is not negative, or to a property. -/
def IsNonnegative : PathStep → Prop
  | property .. => True
  | element number .. => 0 ≤ number

/-- Steps to properties and to elements whose numbers are not negative, of which no two follow each
other. -/
structure AreAllowed (steps : List PathStep) : Prop where
  nonnegative : ∀ step ∈ steps, step.IsNonnegative
  apart : steps.IsChain fun step next => ¬(step.isElement ∧ next.isElement)

theorem areAllowed_nil : AreAllowed [] := ⟨by simp, by simp⟩

/-- A further step is allowed if it does not lead from an element to an element. -/
theorem areAllowed_concat_iff {steps : List PathStep} {step : PathStep} :
    AreAllowed (steps ++ [step]) ↔ AreAllowed steps ∧ step.IsNonnegative ∧
      ∀ last ∈ steps.getLast?, ¬(last.isElement ∧ step.isElement) := by
  constructor
  · rintro ⟨hnonnegative, hapart⟩
    obtain ⟨hsteps, hstep⟩ := List.forall_mem_append.mp hnonnegative
    obtain ⟨hbefore, -, hlast⟩ := List.isChain_append.mp hapart
    exact ⟨⟨hsteps, hbefore⟩, hstep step (List.mem_singleton.mpr rfl),
      fun last hmem => hlast last hmem step rfl⟩
  · rintro ⟨⟨hsteps, hbefore⟩, hstep, hlast⟩
    refine ⟨List.forall_mem_append.mpr ⟨hsteps, by simpa using hstep⟩,
      List.isChain_append.mpr ⟨hbefore, by simp, fun last hmem next hnext => ?_⟩⟩
    obtain rfl := Option.some.inj hnext
    exact hlast last hmem

end PathStep

/-- An expression is a path: a name, perhaps behind `this.`, and then steps to properties and to
elements whose numbers are not negative, of which no two follow each other. -/
def Expr.IsPath (e : Expr) : Prop :=
  ∃ (start : Expr) (steps : List PathStep), start.ownName?.isSome ∧ PathStep.AreAllowed steps ∧
    e = steps.foldl PathStep.extend start

namespace Expr

/-- An expression that reads a name from the document is a chain of that name alone. -/
theorem isChain_of_ownName? {e : Expr} {name : String} (h : e.ownName? = some name) :
    e.IsChain [{ name := name }] := by
  unfold ownName? at h
  split at h
  · obtain rfl := Option.some.inj h
    exact .name _ _
  · obtain rfl := Option.some.inj h
    exact .own _ _ _
  · simp at h

/-- A chain is a path. Its last step leads to an element only if the last segment has a number. -/
theorem IsChain.exists_steps {e : Expr} {segments : List Segment} (h : e.IsChain segments) :
    ∃ (start : Expr) (steps : List PathStep), start.ownName?.isSome ∧ PathStep.AreAllowed steps ∧
      e = steps.foldl PathStep.extend start ∧ ∀ step ∈ steps.getLast?, step.isElement →
        ∀ segment ∈ segments.getLast?, segment.index.isSome := by
  induction h with
  | name name span => exact ⟨.identifier name span, [], rfl, PathStep.areAllowed_nil, rfl, by simp⟩
  | own name selfSpan span =>
    exact ⟨.member (.self selfSpan) name span, [], rfl, PathStep.areAllowed_nil, rfl, by simp⟩
  | member name span _ ih =>
    obtain ⟨start, steps, hstart, hallowed, rfl, -⟩ := ih
    refine ⟨start, steps ++ [.property name span], hstart, ?_, ?_, ?_⟩
    · exact PathStep.areAllowed_concat_iff.mpr ⟨hallowed, trivial, fun _ _ hboth => nomatch hboth.2⟩
    · rw [List.foldl_concat]
      rfl
    · simp [PathStep.isElement]
  | @element object segments name i numberSpan span _ hi ih =>
    obtain ⟨start, steps, hstart, hallowed, rfl, hlast⟩ := ih
    refine ⟨start, steps ++ [.element i numberSpan span], hstart, ?_, ?_, ?_⟩
    · refine PathStep.areAllowed_concat_iff.mpr ⟨hallowed, hi, fun last hmem hboth => ?_⟩
      have hindex := hlast last hmem hboth.1 { name := name } (by simp)
      exact absurd hindex (by simp)
    · rw [List.foldl_concat]
      rfl
    · simp

/-- A path is a chain. Its last segment has a number only if the last step leads to an element. -/
theorem exists_isChain_foldl {start : Expr} {first : String} (hstart : start.ownName? = some first)
    {steps : List PathStep} (hallowed : PathStep.AreAllowed steps) :
    ∃ before last, (steps.foldl PathStep.extend start).IsChain (before ++ [last]) ∧
      (last.index.isSome → ∃ step ∈ steps.getLast?, step.isElement) := by
  induction steps using List.reverseRecOn with
  | nil => exact ⟨[], { name := first }, isChain_of_ownName? hstart, by simp⟩
  | append_singleton steps step ih =>
    obtain ⟨hsteps, hstep, hlast⟩ := PathStep.areAllowed_concat_iff.mp hallowed
    obtain ⟨before, ⟨name, index⟩, hchain, hindex⟩ := ih hsteps
    rw [List.foldl_concat]
    cases step with
    | property name' span => exact ⟨_, { name := name' }, hchain.member name' span, by simp⟩
    | element i numberSpan span =>
      have hnone : index = none := by
        by_contra hsome
        obtain ⟨last, hmem, helement⟩ := hindex (Option.isSome_iff_ne_none.mpr hsome)
        exact hlast last hmem ⟨helement, rfl⟩
      subst hnone
      exact ⟨before, _, hchain.element numberSpan span hstep, by simp [PathStep.isElement]⟩

/-- The paths are the expressions that have segments. -/
theorem isPath_iff {e : Expr} : e.IsPath ↔ ∃ segments, e.segments? = some segments := by
  simp only [segments?_eq_some_iff]
  constructor
  · rintro ⟨start, steps, hstart, hallowed, rfl⟩
    obtain ⟨first, hfirst⟩ := Option.isSome_iff_exists.mp hstart
    obtain ⟨before, last, hchain, -⟩ := exists_isChain_foldl hfirst hallowed
    exact ⟨_, hchain⟩
  · rintro ⟨segments, hchain⟩
    obtain ⟨start, steps, hstart, hallowed, heq, -⟩ := hchain.exists_steps
    exact ⟨start, steps, hstart, hallowed, heq⟩

/-- An expression is refused as a destination exactly if it is no path. -/
theorem placement_eq_refused_iff {resolver : Resolver} {toText : Bool} {e : Expr} :
    (e.placement resolver toText).1 = .refused ↔ ¬e.IsPath := by
  rw [isPath_iff]
  unfold placement
  cases e.segments? with
  | none => simp
  | some segments => cases hlocate : resolver.locate? segments <;> simp [hlocate]

/-! ## There and back -/

/-- Nothing is reported about an expression that names a destination. -/
theorem placement_eq_of_resolved {resolver : Resolver} {toText : Bool} {e : Expr}
    {destination : Destination} (h : (e.placement resolver toText).1 = .resolved destination) :
    e.placement resolver toText = (.resolved destination, []) := by
  unfold placement at h ⊢
  cases hsegments : e.segments? with
  | none => simp [hsegments] at h
  | some segments =>
    cases hlocate : resolver.locate? segments with
    | none => simp [hsegments, hlocate] at h
    | some located => simpa [hsegments, hlocate] using h

/-- **There and back.** If classes are found under their own names, a destination that an expression
names has the text of the expression. The expression that reads it has that text again and names the
same destination, without anything to report. Exactly the expressions that are no paths are refused
as destinations. -/
theorem placement_toSource {resolver : Resolver} (hlocal : resolver.FindsClassesLocally)
    (toText : Bool) (e : Expr) :
    (∀ destination, (e.placement resolver toText).1 = .resolved destination →
      destination.text = e.text ∧ destination.toSource.text = e.text ∧
        destination.toSource.placement resolver toText = (.resolved destination, [])) ∧
      ((e.placement resolver toText).1 = .refused ↔ ¬e.IsPath) := by
  refine ⟨fun destination h => ?_, placement_eq_refused_iff⟩
  obtain ⟨segments, -, hlocates, htoText, -⟩ := placement_eq_resolved_iff.mp h
  obtain ⟨hne, hindexes⟩ := segments_of_placement h
  have hchain : destination.chain = segments := hlocates.segments_append hlocal
  have hne' : destination.chain ≠ [] := by simp [Destination.chain, hne]
  have htext := text_of_placement hlocal h
  have hback := (Destination.isChain_toSource_iff hne').mpr hindexes
  have hspan : destination.toSource.span = destination.span := span_withSpan _ _
  refine ⟨htext, (Destination.text_toSource hne' hindexes).trans htext, ?_⟩
  refine placement_eq_of_resolved (placement_eq_resolved_iff.mpr ?_)
  exact ⟨destination.chain, hback, hchain ▸ hlocates, htoText, hspan.symm⟩

/-- A document beside a class in a package. -/
def roundTripTable : SymbolTable := (SymbolTable.ofDocument "Main").declareClass "app.Model" none

/-- Where the chain stands in the markup. -/
def roundTripSpan : Span := .onLine ⟨"Main.mxml", 40, 3, 12⟩ 19

/-- The element `Model.items[2]`. -/
def roundTripItem : Expr :=
  index (member (identifier "Model" .unknown) "items" .unknown) (literal (.int 2) .unknown) .unknown

/-- The destination that `Model.items[2].name` names. -/
def roundTripDestination : Destination where
  root := .classObject "app.Model"
  segments := [{ name := "items", index := some 2 }, { name := "name" }]
  toText := true
  span := roundTripSpan

/-- The name of an item is named again by what reads it. An element of an item is no destination. -/
theorem placement_toSource_item :
    let resolver := roundTripTable.resolver
    let element := index roundTripItem (literal (.int 3) .unknown) .unknown
    resolver.FindsClassesLocally ∧
      ((member roundTripItem "name" roundTripSpan).placement resolver true).1 =
        .resolved roundTripDestination ∧
      roundTripDestination.toSource.text = "Model.items[2].name" ∧
      roundTripDestination.toSource.placement resolver true =
        (.resolved roundTripDestination, []) ∧
      (element.placement resolver true).1 = .refused ∧ ¬element.IsPath := by
  intro resolver element
  have hlocal : resolver.FindsClassesLocally := SymbolTable.findsClassesLocally (by decide)
  have hplaced : ((member roundTripItem "name" roundTripSpan).placement resolver true).1 =
      .resolved roundTripDestination := by decide
  have hrefused : (element.placement resolver true).1 = .refused := by decide
  obtain ⟨-, htext, hback⟩ := (placement_toSource hlocal true _).1 _ hplaced
  exact ⟨hlocal, hplaced, htext.trans (by decide), hback, hrefused,
    (placement_toSource hlocal true element).2.mp hrefused⟩

end Expr

end Bindery
