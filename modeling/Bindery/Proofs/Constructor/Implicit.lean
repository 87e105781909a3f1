import Bindery.Constructor.Code
import Bindery.Proofs.Watch.Dependents
import Bindery.Proofs.Watch.Implicit
import Mathlib.Data.List.Induction

/-!
# Constructor code without an explicit document

The constructor code of a database is generated from the texts, the code and the keys of its
expressions. All of these belong to the normal form of an expression, and so the code does not show
in which form the expressions are written.
-/

namespace Bindery

variable (resolver : Resolver)

/-! ## Databases -/

/-- A binding with its source in normal form. -/
def Binding.implicit (binding : Binding) : Binding :=
  { binding with source := binding.source.map (Expr.implicit resolver) }

@[simp] theorem Binding.sourceText_implicit (binding : Binding) :
    (binding.implicit resolver).sourceText = binding.sourceText := by
  obtain ⟨slot, source, destination, isSimple, span⟩ := binding
  cases source <;> simp [implicit, sourceText]

@[simp] theorem Binding.destinationText_implicit (binding : Binding) :
    (binding.implicit resolver).destinationText = binding.destinationText := rfl

namespace Database

/-- A database with all expressions in normal form. -/
def implicit (db : Database) : Database :=
  { db with
    bindings := db.bindings.map (Binding.implicit resolver)
    chains := WatchChain.implicitAll resolver db.chains }

theorem watchers_implicit (db : Database) :
    (db.implicit resolver).watchers = db.watchers.map (Watcher.implicit resolver) :=
  WatchChain.watchersAll_implicitAll resolver none 0 db.chains

theorem constructed_implicit (db : Database) :
    (db.implicit resolver).constructed = WatchChain.implicitAll resolver db.constructed := by
  simp [constructed, implicit, WatchChain.implicitAll_eq_map, List.filter_map, Function.comp_def]

theorem needsPropertyGetter_implicit (db : Database) :
    (db.implicit resolver).needsPropertyGetter = db.needsPropertyGetter := by
  simp [needsPropertyGetter, constructed_implicit, WatchChain.implicitAll_eq_map, List.any_map,
    Function.comp_def, Watched.implicit]

theorem analyzeSource_implicit (binding : Binding) (state : WatchAnalysis) :
    analyzeSource resolver (binding.implicit resolver) (state.implicit resolver) =
      (analyzeSource resolver binding state).implicit resolver := by
  obtain ⟨slot, source, destination, isSimple, span⟩ := binding
  cases source with
  | none => rfl
  | some source =>
    exact congrArg Prod.snd (WatchContext.analyze_implicit ⟨resolver, slot⟩ source state)

/-- The sources of bindings in normal form are analysed alike. -/
theorem analyzeSources_implicit (bindings : List Binding) :
    analyzeSources resolver (bindings.map (Binding.implicit resolver)) =
      (analyzeSources resolver bindings).implicit resolver := by
  induction bindings using List.reverseRecOn with
  | nil => rfl
  | append_singleton bindings binding ih =>
    rw [List.map_append, List.map_singleton, analyzeSources_append, analyzeSources_append, ih,
      analyzeSource_implicit]

/-- The database of bindings in normal form, and what there is to report about it. -/
theorem ofBindings_implicit (bindings : List Binding) :
    ofBindings resolver (bindings.map (Binding.implicit resolver)) =
      ((ofBindings resolver bindings).1.implicit resolver, (ofBindings resolver bindings).2) := by
  have hcandidates : (bindings.map (Binding.implicit resolver)).filterMap
      PairCandidate.ofBinding? = bindings.filterMap PairCandidate.ofBinding? := by
    rw [List.filterMap_map]
    congr 1
    funext binding
    rw [Function.comp, PairCandidate.ofBinding?, Binding.sourceText_implicit]
    rfl
  have hchains (state : WatchAnalysis) :
      WatchTree.numberAll 0 (state.implicit resolver).forest =
        WatchChain.implicitAll resolver (WatchTree.numberAll 0 state.forest) :=
    WatchTree.numberAll_implicitAll resolver 0 state.forest
  simp only [ofBindings, hcandidates, analyzeSources_implicit, hchains]
  rfl

end Database

/-! ## Closures -/

/-- What is reported about an expression without code. -/
@[simp] theorem LoweringError.problem?_implicit (error : LoweringError) (e : Expr) :
    error.problem? (e.implicit resolver) = error.problem? e := by
  cases error <;> simp [problem?]

namespace Closure

theorem getter_implicit (slot : Nat) (source : Expr) :
    getter resolver slot (source.implicit resolver) = getter resolver slot source := by
  simp [getter]

theorem argumentCode_implicitAll (args : List Expr) :
    argumentCode resolver (Expr.implicitAll resolver args) = argumentCode resolver args := by
  induction args with
  | nil => rfl
  | cons arg args ih =>
    simp only [Expr.implicitAll, argumentCode, Expr.lower_implicit,
      LoweringError.problem?_implicit, ih]

theorem parameters_implicitAll (name : String) (args : List Expr) :
    parameters resolver name (Expr.implicitAll resolver args) = parameters resolver name args := by
  simp [parameters, argumentCode_implicitAll]

end Closure

/-! ## Code -/

theorem RuntimeObject.binding_implicit (config : Config) (binding : Binding) (out : Emission) :
    RuntimeObject.binding config resolver (binding.implicit resolver) out =
      RuntimeObject.binding config resolver binding out := by
  have hgetter : out.emitGetter resolver (binding.implicit resolver) =
      out.emitGetter resolver binding := by
    obtain ⟨slot, source, destination, isSimple, span⟩ := binding
    cases source <;> simp [Binding.implicit, Emission.emitGetter, Closure.getter_implicit]
  unfold RuntimeObject.binding
  rw [hgetter, Binding.sourceText_implicit, Binding.destinationText_implicit]
  rfl

theorem RuntimeObject.watcher_implicit (config : Config) (propertyGetter : Option MethodHandle)
    (isRoot : Bool) (watched : Watched) (slots : List Nat) (out : Emission) :
    RuntimeObject.watcher config resolver propertyGetter isRoot (watched.implicit resolver) slots
        out =
      RuntimeObject.watcher config resolver propertyGetter isRoot watched slots out := by
  obtain ⟨kind, name, events⟩ := watched
  cases kind with
  | function args =>
    simp only [RuntimeObject.watcher, Watched.implicit, WatchedKind.implicit,
      Closure.parameters_implicitAll]
  | _ => rfl

namespace ConstructorContext

/-- A context with all expressions in normal form. -/
def implicit (context : ConstructorContext) : ConstructorContext :=
  { context with database := context.database.implicit context.resolver }

variable (context : ConstructorContext)

theorem bindings_implicit (bindings : List Binding) (out : Emission) :
    context.implicit.bindings (bindings.map (Binding.implicit context.resolver)) out =
      context.bindings bindings out := by
  induction bindings generalizing out with
  | nil => rfl
  | cons binding rest ih =>
    rw [List.map_cons, ConstructorContext.bindings, ConstructorContext.bindings]
    simp only [implicit, RuntimeObject.binding_implicit] at ih ⊢
    simp only [ih]

theorem links_implicit (pairs : List (Nat × Nat)) (out : Emission) :
    context.implicit.links pairs out = context.links pairs out := by
  have hspan (slot : Nat) : (context.implicit.database.bindings[slot]?).map (·.span) =
      (context.database.bindings[slot]?).map (·.span) := by
    simp [implicit, Database.implicit, Function.comp_def, Binding.implicit]
  induction pairs generalizing out with
  | nil => rfl
  | cons pair rest ih =>
    obtain ⟨a, b⟩ := pair
    simp only [links, hspan, ih]

theorem allocation_implicit (out : Emission) :
    context.implicit.allocation out = context.allocation out := by
  have hbindings : context.implicit.database.bindings =
      context.database.bindings.map (Binding.implicit context.resolver) := rfl
  have hpairs : context.implicit.database.pairs = context.database.pairs := rfl
  have hwatchers : context.implicit.database.watchers.length =
      context.database.watchers.length := by
    simp [implicit, Database.watchers_implicit]
  simp only [allocation, hbindings, hpairs, hwatchers, bindings_implicit, links_implicit,
    List.length_map]

mutual

theorem construction_implicit (isRoot : Bool) : (chain : WatchChain) → (out : Emission) →
    context.implicit.construction isRoot (chain.implicit context.resolver) out =
      context.construction isRoot chain out
  | .link slot watched slots children, out => by
    simp only [WatchChain.implicit, construction, constructionAll_implicitAll false children]
    simp only [implicit, RuntimeObject.watcher_implicit]

theorem constructionAll_implicitAll (isRoot : Bool) : (chains : List WatchChain) →
    (out : Emission) →
    context.implicit.constructionAll isRoot (WatchChain.implicitAll context.resolver chains) out =
      context.constructionAll isRoot chains out
  | [], _ => rfl
  | chain :: chains, out => by
    simp only [WatchChain.implicitAll, constructionAll, construction_implicit isRoot chain,
      constructionAll_implicitAll isRoot chains]

end

mutual

theorem wiring_implicit : (chain : WatchChain) →
    wiring (chain.implicit resolver) = wiring chain
  | .link slot watched slots children => by
    rw [WatchChain.implicit, wiring, wiring, wiringAll_implicitAll slot children]

theorem wiringAll_implicitAll (parent : Nat) : (chains : List WatchChain) →
    wiringAll parent (WatchChain.implicitAll resolver chains) = wiringAll parent chains
  | [] => rfl
  | chain :: chains => by
    rw [WatchChain.implicitAll, wiringAll, wiringAll, wiring_implicit chain,
      wiringAll_implicitAll parent chains, WatchChain.slot_implicit, WatchChain.watched_implicit,
      Watched.implicit, WatchedKind.form_implicit]

end

theorem rootWiring_implicit (chain : WatchChain) :
    rootWiring (chain.implicit resolver) = rootWiring chain := by
  have hroot : rootObject (chain.watched.implicit resolver) = rootObject chain.watched := by
    obtain ⟨kind, name, events⟩ := chain.watched
    cases kind <;> rfl
  rw [rootWiring, rootWiring, WatchChain.slot_implicit, WatchChain.watched_implicit, hroot,
    wiring_implicit]

/-- The code of all four stages does not depend on the form of expressions. -/
theorem code_implicit (out : Emission) : context.implicit.code out = context.code out := by
  have hconstructed : context.implicit.database.constructed =
      WatchChain.implicitAll context.resolver context.database.constructed :=
    Database.constructed_implicit context.resolver context.database
  have hlength : context.implicit.database.bindings.length = context.database.bindings.length := by
    simp [implicit, Database.implicit]
  have hroots : (WatchChain.implicitAll context.resolver context.database.constructed).flatMap
      rootWiring = context.database.constructed.flatMap rootWiring := by
    rw [WatchChain.implicitAll_eq_map, List.flatMap_map]
    simp only [rootWiring_implicit]
  simp only [code, hconstructed, hlength, allocation_implicit, constructionAll_implicitAll, hroots]

end ConstructorContext

/-- Constructor code, remembered with a database in normal form. -/
def ConstructorCode.implicit (code : ConstructorCode) : ConstructorCode :=
  { code with database := code.database.implicit resolver }

/-- The constructor code for a database does not depend on the form of its expressions. -/
theorem ConstructorCode.ofDatabase_implicit (config : Config) (db : Database) (out : Emission) :
    ofDatabase config resolver (db.implicit resolver) out =
      ((ofDatabase config resolver db out).1.implicit resolver,
        (ofDatabase config resolver db out).2) := by
  have hcode (getter : Option MethodHandle) (out : Emission) :
      ConstructorContext.code ⟨config, resolver, db.implicit resolver, getter⟩ out =
        ConstructorContext.code ⟨config, resolver, db, getter⟩ out :=
    ConstructorContext.code_implicit ⟨config, resolver, db, getter⟩ out
  simp only [ofDatabase, Database.needsPropertyGetter_implicit, hcode]
  rfl

end Bindery
