import Bindery.Proofs.Constructor.Explanation

/-!
# What is done about undeclared names

A name of the document that is called is looked up by code generation only, one that is read by the
analysis as well. If nothing declares it then a diagnostic about the source is sure to appear, and
the binding is constructed without a getter. Two gaps remain: a method of another object is never
looked up, and behind `this.` code generation finds what is outside the document.
-/

namespace Bindery

/-! ## Calls of unknown names -/

/-- A recorded binding is read by its name only if its source is a name of the document. -/
theorem Recorded.isSimple_eq_false {bindings : List Binding} (h : Recorded bindings)
    {binding : Binding} (hmem : binding ∈ bindings) {source : Expr}
    (hsource : binding.source = some source) (hname : source.ownName? = none) :
    binding.isSimple = false := by
  induction h with
  | nil => simp at hmem
  | record resolver other destination span _ ih =>
    rw [Binding.record, List.mem_append, List.mem_singleton] at hmem
    rcases hmem with hmem | rfl
    · exact ih hmem
    · obtain rfl : other = some source := hsource
      simp [Expr.isSimpleProperty, hname]

/-- **A call of a name that nothing declares is reported.** Wherever a source calls a name of the
document, with or without `this.`, that stands for nothing at all, something is reported about that
source: by the analysis, if code generation fails at another name before, or by code generation.
(Methods of other objects are not looked up by code generation.) -/
theorem Document.reported_of_undeclared_target {doc : Document} {config : Config}
    {resolver : Resolver} {out out' : Emission} {code : ConstructorCode}
    (h : doc.compile config resolver out = (.ok (some code), out')) {binding : Binding}
    (hbinding : binding ∈ code.database.bindings) {source callee : Expr} {args : List Expr}
    {span : Span} (hsource : binding.source = some source)
    (hcall : .call callee args span ∈ source.parts) {name : String}
    (hname : callee.ownName? = some name) (hmember : resolver.documentMember? name = none)
    (hglobal : resolver.global? name = none) :
    ∃ problem ∈ out'.problems,
      problem ∈ binding.sourceProblems resolver ∧ problem.kind = .unresolvedReference ∨
        problem ∈ binding.getterProblems resolver ∧ problem.kind = .internalCodegen := by
  obtain ⟨start, hcompiled⟩ := Document.exists_compiled h
  obtain ⟨recorded, -, hproblems⟩ := Document.problems_compile h
  have hsimple : binding.isSimple = false :=
    hcompiled.records.recorded.isSimple_eq_false hbinding hsource
      (Expr.ownName?_eq_none_of_call hcall)
  have hdeclares : resolver.declares name = false :=
    Resolver.declares_eq_false_iff.mpr ⟨hmember, hglobal⟩
  have hlookup := Expr.mem_lookups_of_call (Expr.target_mem_lookups hname) source hcall
  have herror : (source.lower resolver).error? ≠ none :=
    Expr.error?_lower_ne_none hlookup (by simp [Lookup.error?, hdeclares])
  have hgetter : ∃ problem?,
      Closure.getter resolver binding.slot source = .error problem? := by
    obtain ⟨error, herror⟩ := Option.ne_none_iff_exists'.mp herror
    exact ⟨error.problem? source, by simp [Closure.getter, herror]⟩
  obtain ⟨problem?, hgetter⟩ := hgetter
  -- Code generation may have stopped at another name before, which the analysis reports.
  rcases Binding.reported_of_getter_error hsource hsimple hgetter with
    ⟨problem, hmem, hkind⟩ | ⟨problem, hmem, hkind⟩
  · have hlog := List.mem_flatMap.mpr ⟨binding, hbinding, hmem⟩
    exact ⟨problem, by simp [hproblems, hlog], .inl ⟨hmem, hkind⟩⟩
  · have hlog := List.mem_flatMap.mpr ⟨binding, hbinding, hmem⟩
    exact ⟨problem, by simp [hproblems, hlog], .inr ⟨hmem, hkind⟩⟩

/-- The table of a document with a total. -/
def totalTable : SymbolTable :=
  runtimeTable.declareOwnMember { name := "total", kind := .variable, type := some "int" }

/-- The sum of `total` and what `lost()` returns. -/
def lostSource : Expr :=
  .binary .plus (Expr.path "total") (.call (Expr.path "lost") [] .unknown) .unknown

/-- A document with nothing but this sum. -/
def lostDocument : Document :=
  (Document.ofClass "Main").add 0 (.binding (some lostSource) none false) .unknown

/-- The call of `lost` inside the sum is reported by code generation. -/
theorem Document.reported_of_undeclared_target_lost :
    ∃ code out' binding, lostDocument.compile {} totalTable.resolver {} = (.ok (some code), out') ∧
      binding ∈ code.database.bindings ∧ binding.source = some lostSource ∧
      ∃ problem ∈ out'.problems,
        problem ∈ binding.sourceProblems totalTable.resolver ∧
            problem.kind = .unresolvedReference ∨
          problem ∈ binding.getterProblems totalTable.resolver ∧
            problem.kind = .internalCodegen := by
  obtain ⟨code, out', hcompile, -⟩ :
      ∃ code out', lostDocument.compile {} totalTable.resolver {} = (.ok (some code), out') ∧
        code.database.bindings.length = 1 :=
    Document.exists_code (by decide +kernel)
  obtain ⟨start, hcompiled⟩ := Document.exists_compiled hcompile
  obtain ⟨visited, problems, hvisit, hrecorded⟩ := hcompiled.records
  have hvisited : Compilation.visitDocument { config := {}, resolver := totalTable.resolver }
      lostDocument = .ok (⟨{}, totalTable.resolver,
        some [⟨0, some lostSource, none, false, .unknown⟩]⟩, []) := rfl
  obtain ⟨rfl, rfl⟩ := Prod.mk.inj (Except.ok.inj (hvisited.symm.trans hvisit))
  have hbinding : ⟨0, some lostSource, none, false, .unknown⟩ ∈ code.database.bindings := by
    rw [← Option.some.inj hrecorded]
    exact List.mem_cons_self
  have hcall : .call (Expr.path "lost") [] .unknown ∈ lostSource.parts := by
    simp [lostSource, Expr.parts]
  have hname : (Expr.path "lost").ownName? = some "lost" := rfl
  exact ⟨code, out', _, hcompile, hbinding, rfl,
    Document.reported_of_undeclared_target hcompile hbinding rfl hcall hname (by decide +kernel)
      (by decide +kernel)⟩

/-- The table of a document with a label, which has no members. -/
def labelTable : SymbolTable :=
  (runtimeTable.declareClass "Label" none).declareOwnMember
    { name := "label", kind := .variable, type := some "Label" }

/-- A document with what `label.missing()` returns. -/
def missingDocument : Document :=
  (Document.ofClass "Main").add 0
    (.binding (some (.call (Expr.path "label.missing") [] .unknown)) none false) .unknown

/-- A call of a method that the declared class of its receiver does not have is not reported. -/
theorem Document.unknown_method_unreported :
    (labelTable.resolver.documentMember? "label").map (·.type) = some (some "Label") ∧
      (labelTable.resolver.class? "Label").isSome ∧
      labelTable.resolver.member? "Label" "missing" = none ∧
      ∃ code out', missingDocument.compile {} labelTable.resolver {} = (.ok (some code), out') ∧
        code.database.bindings.map Binding.sourceText = [some "label.missing()"] ∧
        out'.problems = [] := by
  refine ⟨by decide +kernel, by decide +kernel, by decide +kernel, ?_⟩
  obtain ⟨code, out', hcompile, htext⟩ :
      ∃ code out', missingDocument.compile {} labelTable.resolver {} = (.ok (some code), out') ∧
        code.database.bindings.map Binding.sourceText = [some "label.missing()"] :=
    Document.exists_code (by decide +kernel)
  have hproblems : (missingDocument.compile {} labelTable.resolver {}).2.problems = [] := by
    decide +kernel
  rw [hcompile] at hproblems
  exact ⟨code, out', hcompile, htext, hproblems⟩

/-! ## Names that are reported -/

namespace Expr

variable {resolver : Resolver} {e : Expr}

/-- A source that is read by its name has code. -/
theorem error?_lower_of_isSimpleProperty (h : e.isSimpleProperty resolver) :
    (e.lower resolver).error? = none := by
  cases hname : e.ownName? with
  | none => simp [isSimpleProperty, hname] at h
  | some name =>
    cases hmember : resolver.documentMember? name with
    | none => simp [isSimpleProperty, hname, hmember] at h
    | some definition =>
      have hcode : (resolver.lowerName name).error? = none := by
        simp [Resolver.lowerName, hmember, Lowered.done]
      rcases ownName?_eq_some_iff.mp hname with ⟨span, rfl⟩ | ⟨start, span, rfl⟩
      · rwa [lower]
      · rwa [lower]

end Expr

/-- A binding whose source has no code is constructed without a getter. -/
theorem RuntimeObject.exists_binding_eq {config : Config} {resolver : Resolver} {binding : Binding}
    {source : Expr} (hsource : binding.source = some source) (hsimple : binding.isSimple = false)
    (herror : (source.lower resolver).error? ≠ none) (out : Emission) :
    ∃ setter, (RuntimeObject.binding config resolver binding out).1 =
      object config.bindingClass 5
        [.getLocal 0, .pushNull, setter, stringOrNull binding.destinationText,
          stringOrNull binding.sourceText] := by
  obtain ⟨error, herror⟩ := Option.ne_none_iff_exists'.mp herror
  have hgetter : (out.emitGetter resolver binding).1 = none := by
    simp [Emission.emitGetter, hsource, Closure.getter, herror, Emission.emitClosure]
  simp only [RuntimeObject.binding, hsimple, Bool.false_eq_true, if_false, hgetter]
  exact ⟨_, rfl⟩

/-- **No getter reads a name that has been reported.** Analysing an expression reports exactly the
places at which it reads a name that nothing declares. If one of them is a name of the document,
with or without `this.`, then the expression has no code, and a binding with this source is
constructed without a getter; where the name follows `this.`, it must not be visible without it. -/
theorem Expr.getter_missing_of_reported (resolver : Resolver) (e : Expr) :
    (∀ slot state, (WatchContext.analyze ⟨resolver, slot⟩ e state).2.problems =
        state.problems ++ (e.undeclared resolver).map Expr.undeclaredProblem) ∧
      ∀ place ∈ e.undeclared resolver, ∀ name, place.ownName? = some name →
        (∀ start span, place = .member (.self start) name span →
          resolver.global? name = none) →
        (e.lower resolver).error? ≠ none ∧
          ∀ (config : Config) (binding : Binding) (out : Emission), binding.source = some e →
            binding.isSimple = e.isSimpleProperty resolver →
            ∃ setter, (RuntimeObject.binding config resolver binding out).1 =
              RuntimeObject.object config.bindingClass 5
                [.getLocal 0, .pushNull, setter,
                  RuntimeObject.stringOrNull binding.destinationText,
                  RuntimeObject.stringOrNull binding.sourceText] := by
  refine ⟨fun slot state => WatchContext.problems_analyze _ e state,
    fun place hmem name hplace hglobal => ?_⟩
  obtain ⟨hread, hundeclared⟩ := mem_undeclared.mp hmem
  have hdeclares := not_declares_of_isUndeclared hplace hundeclared hglobal
  have hlookup : .read name ∈ e.lookups := (read_mem_lookups_iff e).mpr ⟨place, hread, hplace⟩
  have herror : (e.lower resolver).error? ≠ none :=
    error?_lower_ne_none hlookup (by simp [Lookup.error?, hdeclares])
  refine ⟨herror, fun config binding out hsource hsimple => ?_⟩
  have hnot : ¬e.isSimpleProperty resolver := fun h => herror (error?_lower_of_isSimpleProperty h)
  exact RuntimeObject.exists_binding_eq hsource (hsimple.trans (eq_false_of_ne_true hnot)) herror
    out

/-- The sum of `total` and `missing` has no code, since `missing` is reported. -/
theorem Expr.getter_missing_of_reported_sum :
    let e := Expr.binary .plus (Expr.path "total") (Expr.path "missing") .unknown
    e.undeclared totalTable.resolver = [Expr.path "missing"] ∧
      (e.lower totalTable.resolver).error? ≠ none ∧
      ∃ setter, (RuntimeObject.binding {} totalTable.resolver ⟨0, some e, none, false, .unknown⟩
          {}).1 =
        RuntimeObject.object "mx.binding.Binding" 5
          [.getLocal 0, .pushNull, setter, .pushNull, .pushString "total + missing"] := by
  intro e
  have htotal : (Expr.path "total").isUndeclared totalTable.resolver = false := by decide +kernel
  have hmissing : (Expr.path "missing").isUndeclared totalTable.resolver = true := by
    decide +kernel
  have hplaces : e.places = [Expr.path "total", Expr.path "missing"] := rfl
  have hundeclared : e.undeclared totalTable.resolver = [Expr.path "missing"] := by
    simp [Expr.undeclared, hplaces, htotal, hmissing]
  have hmem : Expr.path "missing" ∈ e.undeclared totalTable.resolver := by simp [hundeclared]
  obtain ⟨herror, hbinding⟩ := (Expr.getter_missing_of_reported totalTable.resolver e).2 _ hmem
    "missing" rfl nofun
  exact ⟨hundeclared, herror, hbinding {} ⟨0, some e, none, false, .unknown⟩ {} rfl rfl⟩

/-- The table of a document next to which a status is visible. -/
def statusTable : SymbolTable :=
  runtimeTable.declareGlobal { name := "status", kind := .variable, type := some "String" }

/-- Behind `this.`, a name is reported that only stands for something outside the document, but the
getter reads what is outside. -/
theorem Expr.global_read_after_report :
    let e := Expr.path "this.status"
    (WatchContext.analyze ⟨statusTable.resolver, 0⟩ e {}).2.problems.map Problem.kind =
        [.unresolvedReference] ∧
      e.undeclared statusTable.resolver = [e] ∧ e.ownName? = some "status" ∧
      e.lower statusTable.resolver = .done [.getLex (.inPublic "status")] := by
  have hundeclared : (Expr.path "this.status").isUndeclared statusTable.resolver = true := by
    decide +kernel
  have hplaces : (Expr.path "this.status").places = [Expr.path "this.status"] := rfl
  refine ⟨by decide +kernel, ?_, rfl, by rfl⟩
  simp [Expr.undeclared, hplaces, hundeclared]

end Bindery
