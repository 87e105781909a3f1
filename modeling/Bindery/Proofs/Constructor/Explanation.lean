import Bindery.Proofs.Constructor.Log
import Bindery.Proofs.Constructor.WatcherGraph
import Bindery.Proofs.Watch.Origins
import Bindery.Symbol.Table

/-!
# Why closures are missing

A binding or a watched call of a compiled document may be constructed with null where a closure
should be, since some expression has no code. Code generation reports this itself, except where a
name that is read is not declared: it then relies on the analysis of the source, which has looked at
the same names before.
-/

namespace Bindery

/-! ## Failures of code generation -/

/-- All failures are reported by code generation, but for a name that is read and not declared. -/
theorem LoweringError.unresolvedReference_or_problem? (error : LoweringError) (expr : Expr) :
    (∃ name, error = .unresolvedReference name) ∨
      ∃ problem, error.problem? expr = some problem ∧ problem.kind = .internalCodegen := by
  cases error with
  | unresolvedReference name => exact .inl ⟨name, rfl⟩
  | unresolvedCallTarget call | unsupportedCallee callee => exact .inr ⟨_, rfl, rfl⟩

namespace Expr

variable {resolver : Resolver} {e : Expr} {name : String}

/-- Where code generation fails at a name, it looks the name up and nothing declares it. -/
theorem read_of_error (h : (e.lower resolver).error? = some (.unresolvedReference name)) :
    .read name ∈ e.lookups ∧ resolver.declares name = false := by
  rw [error?_lower] at h
  obtain ⟨lookup, hmem, herror⟩ := List.exists_of_findSome?_eq_some h
  obtain ⟨rfl, hname⟩ := Lookup.error?_eq_unresolvedReference herror
  exact ⟨hmem, hname⟩

/-- Where code generation fails at a name, the analysis reports it. -/
theorem exists_undeclared_of_error
    (h : (e.lower resolver).error? = some (.unresolvedReference name)) :
    ∃ place ∈ e.undeclared resolver, place.ownName? = some name := by
  obtain ⟨hmem, hname⟩ := read_of_error h
  exact exists_undeclared_of_read hmem hname

/-- Code generation fails where something that it looks up is missing. -/
theorem error?_lower_ne_none {lookup : Lookup} (hmem : lookup ∈ e.lookups)
    (herror : lookup.error? resolver ≠ none) : (e.lower resolver).error? ≠ none := by
  rw [error?_lower]
  intro hnone
  exact herror (List.findSome?_eq_none_iff.mp hnone lookup hmem)

end Expr

namespace Closure

variable {resolver : Resolver}

/-- A source without a closure has no code. -/
theorem error_of_getter {slot : Nat} {source : Expr} {problem? : Option Problem}
    (h : getter resolver slot source = .error problem?) :
    ∃ error, (source.lower resolver).error? = some error ∧ problem? = error.problem? source := by
  simp only [getter] at h
  split at h
  · next error herror => exact ⟨error, herror, (Except.error.inj h).symm⟩
  · simp at h

/-- Arguments without a closure are such that one of them has no code. -/
theorem error_of_parameters {called : String} {args : List Expr} {problem? : Option Problem}
    (h : parameters resolver called args = .error problem?) :
    ∃ arg ∈ args, ∃ error, (arg.lower resolver).error? = some error ∧
      problem? = error.problem? arg := by
  have hcode : argumentCode resolver args = .error problem? := by
    unfold parameters at h
    cases hargs : argumentCode resolver args with
    | error other => simpa [hargs, Except.map] using h
    | ok code => simp [hargs, Except.map] at h
  clear h
  induction args with
  | nil => simp [argumentCode] at hcode
  | cons arg args ih =>
    simp only [argumentCode] at hcode
    split at hcode
    · next error herror =>
      exact ⟨arg, List.mem_cons_self, error, herror, (Except.error.inj hcode).symm⟩
    · cases hargs : argumentCode resolver args with
      | ok code => simp [hargs, Except.map] at hcode
      | error other =>
        obtain rfl : other = problem? := by simpa [hargs, Except.map] using hcode
        obtain ⟨failing, hmem, hfailing⟩ := ih hargs
        exact ⟨failing, List.mem_cons_of_mem _ hmem, hfailing⟩

end Closure

/-! ## Reports about one binding -/

/-- Some diagnostic among several is of a kind. -/
def SomeOfKind (kind : ProblemKind) (problems : List Problem) : Prop :=
  ∃ problem ∈ problems, problem.kind = kind

namespace Binding

variable {resolver : Resolver} {binding : Binding} {source : Expr}

theorem someOfKind_sourceProblems (hsource : binding.source = some source) {place : Expr}
    (hplace : place ∈ source.undeclared resolver) :
    SomeOfKind .unresolvedReference (binding.sourceProblems resolver) := by
  rw [sourceProblems_eq hsource]
  exact ⟨place.undeclaredProblem, List.mem_map_of_mem hplace, rfl⟩

/-- A source that has no closure is reported, by the analysis or by code generation. -/
theorem reported_of_getter_error (hsource : binding.source = some source)
    (hsimple : binding.isSimple = false) {problem? : Option Problem}
    (h : Closure.getter resolver binding.slot source = .error problem?) :
    SomeOfKind .unresolvedReference (binding.sourceProblems resolver) ∨
      SomeOfKind .internalCodegen (binding.getterProblems resolver) := by
  obtain ⟨error, herror, rfl⟩ := Closure.error_of_getter h
  rcases error.unresolvedReference_or_problem? source with ⟨name, rfl⟩ | ⟨problem, hproblem, hkind⟩
  · obtain ⟨place, hplace, -⟩ := Expr.exists_undeclared_of_error herror
    exact .inl (someOfKind_sourceProblems hsource hplace)
  · refine .inr ⟨problem, ?_, hkind⟩
    simp [getterProblems, getterClosure?, hsimple, hsource, h, Closure.problems, hproblem]

end Binding

/-- A call whose arguments have no closure is reported by code generation, or by the analysis of any
source that contains it. -/
theorem Watched.reported_of_parameters_error {resolver : Resolver} {watched : Watched}
    {args : List Expr} (hkind : watched.kind = .function args) {problem? : Option Problem}
    (h : Closure.parameters resolver watched.name args = .error problem?) {binding : Binding}
    {source callee : Expr} {span : Span} (hsource : binding.source = some source)
    (hcall : .call callee args span ∈ source.parts) :
    SomeOfKind .unresolvedReference (binding.sourceProblems resolver) ∨
      SomeOfKind .internalCodegen (watched.parameterProblems resolver) := by
  obtain ⟨arg, harg, error, herror, rfl⟩ := Closure.error_of_parameters h
  rcases error.unresolvedReference_or_problem? arg with ⟨name, rfl⟩ | ⟨problem, hproblem, hkind'⟩
  · obtain ⟨hread, hname⟩ := Expr.read_of_error herror
    have hlookup := Expr.mem_lookups_of_call (Expr.mem_lookups_of_mem_args harg hread) source hcall
    obtain ⟨place, hplace, -⟩ := Expr.exists_undeclared_of_read hlookup hname
    exact .inl (Binding.someOfKind_sourceProblems hsource hplace)
  · refine .inr ⟨problem, ?_, hkind'⟩
    simp [parameterProblems, hkind, h, Closure.problems, hproblem]

/-! ## Whole documents -/

/-- Whatever closure is missing from the objects that a run has constructed, something reported
about a source or by code generation explains it. -/
structure ConstructorCode.Explained (code : ConstructorCode) (config : Config) (resolver : Resolver)
    (after : Memory) (objects items : List Datum) : Prop where
  /-- A binding may be constructed without a getter, though it has a source that is not read by its
  name. -/
  getter : ∀ binding ∈ code.database.bindings, ∃ object getter setter,
    objects[binding.slot]? = some object ∧
      object.IsRecord after.Holds config.bindingClass
        [.document, getter, setter, .ofText? binding.destinationText,
          .ofText? binding.sourceText] ∧
      (getter = .null → binding.source.isSome → binding.isSimple = false →
        SomeOfKind .unresolvedReference (binding.sourceProblems resolver) ∨
          SomeOfKind .internalCodegen (binding.getterProblems resolver))
  /-- A watched call may be constructed without parameters. -/
  parameters : ∀ watcher ∈ code.database.builtWatchers, ∀ called,
    watcher.watched.kind = .function called → ∃ object parameters events listeners,
      items[watcher.slot]? = some object ∧
        object.IsRecord after.Holds config.functionReturnWatcherClass
          [.string watcher.watched.name, .document, parameters, events, listeners, .null,
            .bool false] ∧
        (parameters = .null →
          (∃ arg ∈ called, (arg.lower resolver).error? ≠ none) ∧
            ((∃ binding ∈ code.database.bindings, ∃ source ∈ binding.source,
                (∃ callee span, .call callee called span ∈ source.parts) ∧
                SomeOfKind .unresolvedReference (binding.sourceProblems resolver)) ∨
              SomeOfKind .internalCodegen (watcher.watched.parameterProblems resolver)))

/-- Only a closure that could not be generated is null. -/
theorem Datum.IsClosure.exists_error {emitted : MethodHandle → Method → Prop} {closure : Closure}
    (h : Datum.IsClosure emitted .null (some closure)) : ∃ problem?, closure = .error problem? := by
  cases closure with
  | error problem? => exact ⟨problem?, rfl⟩
  | ok method =>
    obtain ⟨handle, hnull, -⟩ := h
    simp at hnull

/-- In lists that are related member by member, every position of the first has a counterpart. -/
theorem exists_getElem?_of_forall₂ {α β : Type} {R : α → β → Prop} {l : List α} {l' : List β}
    (h : List.Forall₂ R l l') {i : Nat} {x : α} (hx : l[i]? = some x) :
    ∃ y, l'[i]? = some y ∧ R x y := by
  obtain ⟨hi, rfl⟩ := List.getElem?_eq_some_iff.mp hx
  have hi' : i < l'.length := h.length_eq ▸ hi
  exact ⟨l'[i], List.getElem?_eq_getElem hi', h.get hi hi'⟩

/-- The arguments of a watched call are those of a call in the source of some binding. -/
theorem Compiled.exists_call {doc : Document} {config : Config} {resolver : Resolver}
    {out out' start : Emission} {code : ConstructorCode}
    (h : Compiled doc config resolver out out' code start) {watcher : Watcher}
    (hmem : watcher ∈ code.database.watchers) {called : List Expr}
    (hkind : watcher.watched.kind = .function called) :
    ∃ binding ∈ code.database.bindings, ∃ source ∈ binding.source,
      ∃ callee span, .call callee called span ∈ source.parts := by
  rw [h.database_eq] at hmem
  obtain ⟨path, hpath⟩ := Database.mem_watchers_iff.mp hmem
  obtain ⟨binding, hbinding, source, hsource, callee, span, hcall, -⟩ :=
    Database.exists_call_of_atPath (Database.atPath_ofBindings_iff.mpr hpath) hkind
  exact ⟨binding, hbinding, source, hsource, callee, span, hcall⟩

/-- What a run leaves is explained. -/
theorem Compiled.explained {doc : Document} {config : Config} {resolver : Resolver}
    {out out' start : Emission} {code : ConstructorCode}
    (h : Compiled doc config resolver out out' code start) {before after : Memory}
    {bindings watchers : Nat} {objects items : List Datum}
    (hrebuilt : (code.context config resolver).Rebuilt before after out' bindings watchers objects
      items) : code.Explained config resolver after objects items where
  getter binding hmem := by
    obtain ⟨object, hobject, getter, setter, hgetter, -, hrecord⟩ :=
      exists_getElem?_of_forall₂ hrebuilt.isBinding (h.records.recorded.getElem?_slot hmem)
    refine ⟨object, getter, setter, hobject, hrecord, ?_⟩
    rintro rfl hsome hsimple
    obtain ⟨source, hsource⟩ := Option.isSome_iff_exists.mp hsome
    rw [Binding.getterClosure?, hsimple, hsource] at hgetter
    obtain ⟨problem?, herror⟩ := hgetter.exists_error
    exact Binding.reported_of_getter_error hsource hsimple herror
  parameters watcher hbuilt called hkind := by
    have hslot :=
      (h.separate hrebuilt).slot_lt watcher (code.database.sublist_builtWatchers.mem hbuilt)
    obtain ⟨listeners, -, hwatcher⟩ := hrebuilt.isWatcher watcher hbuilt
    rw [hkind] at hwatcher
    obtain ⟨events, parameters, -, hparameters, hrecord⟩ := hwatcher
    refine ⟨_, parameters, events, listeners, Datum.getElem?_eq_getD hslot, hrecord, ?_⟩
    rintro rfl
    obtain ⟨problem?, herror⟩ := hparameters.exists_error
    obtain ⟨arg, harg, error, hlower, -⟩ := Closure.error_of_parameters herror
    refine ⟨⟨arg, harg, Option.ne_none_iff_exists'.mpr ⟨error, hlower⟩⟩, ?_⟩
    obtain ⟨binding, hbinding, source, hsource, callee, span, hcall⟩ :=
      h.exists_call (code.database.sublist_builtWatchers.mem hbuilt) hkind
    rcases Watched.reported_of_parameters_error hkind herror hsource hcall with
      hreported | hreported
    · exact .inl ⟨binding, hbinding, source, hsource, ⟨callee, span, hcall⟩, hreported⟩
    · exact .inr hreported

/-- **Every closure that is missing is explained.** All that is reported about a document with code
comes from recording its bindings, from the analysis of a source, or from one closure without code.
Whatever closure is missing from the objects that a run of the code constructs, one of these reports
is about the source or the arguments that it should have computed. Where code generation itself is
silent, which is at a name that is not declared, the analysis of the same source reports a name. -/
theorem Document.explained_compile {doc : Document} {config : Config} {resolver : Resolver}
    {out out' : Emission} {code : ConstructorCode}
    (h : doc.compile config resolver out = (.ok (some code), out')) :
    (∃ recorded, (∀ problem ∈ recorded, problem.IsOfAnalysis) ∧
      out'.problems = out.problems ++ recorded ++
        code.database.bindings.flatMap (Binding.sourceProblems resolver) ++
        code.database.bindings.flatMap (Binding.getterProblems resolver) ++
        code.database.builtWatchers.flatMap (·.watched.parameterProblems resolver)) ∧
      (∀ numberSlot? locals stack memory, ReadsSlots numberSlot? code.database.bindings.length →
        ReadsSlots numberSlot? code.database.watchers.length → locals 0 = some .document →
        ∃ frame' after bindings watchers objects items,
          Runs numberSlot? code.instructions ⟨stack, locals⟩ memory frame' after ∧
            ConstructorContext.Kept after RuntimeName.bindings bindings objects ∧
            ConstructorContext.Kept after RuntimeName.watchers watchers items ∧
            code.Explained config resolver after objects items) ∧
      ∀ (source : Expr) (slot : Nat) (state : WatchAnalysis) (name : String),
        (source.lower resolver).error? = some (.unresolvedReference name) →
          ∃ reported, SomeOfKind .unresolvedReference reported ∧
            (WatchContext.analyze ⟨resolver, slot⟩ source state).2.problems =
              state.problems ++ reported := by
  refine ⟨?_, fun numberSlot? locals stack memory hbindings hwatchers hdocument => ?_,
    fun source slot state name herror => ?_⟩
  · exact Document.problems_compile h
  · obtain ⟨start, hcompiled⟩ := Document.exists_compiled h
    obtain ⟨-, allocated, wired, after, locals', bindings, watchers, objects, items, hallocation,
      hmiddle, hexecution, -, hrebuilt⟩ := hcompiled.runs hbindings hwatchers hdocument stack memory
    refine ⟨⟨stack, locals'⟩, after, bindings, watchers, objects, items, ?_,
      hrebuilt.bindings_kept, hrebuilt.watchers_kept, hcompiled.explained hrebuilt⟩
    rw [hcompiled.instructions_eq]
    exact (hallocation.append hmiddle).append hexecution
  · obtain ⟨place, hplace, -⟩ := Expr.exists_undeclared_of_error herror
    exact ⟨_, ⟨place.undeclaredProblem, List.mem_map_of_mem hplace, rfl⟩,
      WatchContext.problems_analyze _ source state⟩

/-- The table of the document `Main` with all classes that constructed code needs. -/
def runtimeTable : SymbolTable :=
  ({} : Config).requiredClasses.foldl (fun table qualified => table.declareClass qualified none)
    (SymbolTable.ofDocument "Main")

/-- A document that can greet somebody. -/
def greeterTable : SymbolTable :=
  runtimeTable.declareOwnMember { name := "greet", kind := .function, type := some "String" }

/-- A label whose text is `{greet(somebody)}` and whose tip is `{lost()}`. -/
def greeterDocument : Document :=
  (Document.ofClass "Main")
    |>.add 0 (.instance (some "label") "Label") .unknown
    |>.add 1 (.property "text") .unknown
    |>.add 2 (.data (.call (Expr.path "greet") [Expr.path "somebody"] .unknown) false) .unknown
    |>.add 1 (.property "tip") .unknown
    |>.add 4 (.data (.call (Expr.path "lost") [] .unknown) false) .unknown

/-- Neither text can be computed: the analysis reports `somebody`, for which the watcher of `greet`
has no parameters either, and code generation reports `lost`. -/
theorem Document.explained_compile_greeter :
    ∃ code out', greeterDocument.compile {} greeterTable.resolver {} = (.ok (some code), out') ∧
      code.database.bindings.map (fun binding =>
          ((binding.sourceProblems greeterTable.resolver).map Problem.kind,
            (binding.getterProblems greeterTable.resolver).map Problem.kind)) =
        [([.unresolvedReference], []), ([], [.internalCodegen])] ∧
      code.database.builtWatchers.map (·.watched.name) = ["greet"] ∧
      ∃ frame' after bindings watchers objects items,
        Runs (fun number => some number.toUInt64.toNat) code.instructions
            ⟨[], fun slot => if slot = 0 then some .document else none⟩ ⟨[], fun _ => none, []⟩
            frame' after ∧
          ConstructorContext.Kept after RuntimeName.bindings bindings objects ∧
          ConstructorContext.Kept after RuntimeName.watchers watchers items ∧
          code.Explained {} greeterTable.resolver after objects items := by
  obtain ⟨code, out', hcompile, hproblems, hnames, hwatchers⟩ :
      ∃ code out', greeterDocument.compile {} greeterTable.resolver {} = (.ok (some code), out') ∧
        code.database.bindings.map (fun binding =>
            ((binding.sourceProblems greeterTable.resolver).map Problem.kind,
              (binding.getterProblems greeterTable.resolver).map Problem.kind)) =
          [([.unresolvedReference], []), ([], [.internalCodegen])] ∧
        code.database.builtWatchers.map (·.watched.name) = ["greet"] ∧
        code.database.watchers.length = 1 :=
    Document.exists_code (by decide +kernel)
  have hlength : code.database.bindings.length = 2 := by
    have h := congrArg List.length hproblems
    rwa [List.length_map] at h
  exact ⟨code, out', hcompile, hproblems, hnames,
    (Document.explained_compile hcompile).2.1 _ _ _ _ (readsSlots_of_le (by omega))
      (readsSlots_of_le (by omega)) rfl⟩

end Bindery
