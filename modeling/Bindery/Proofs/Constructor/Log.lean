import Bindery.Proofs.Constructor.Compiled

/-!
# The diagnostics of a compiled document

Everything that is reported about a document with code, in order: what recording its bindings
reports, what the analysis of each source reports, why sources have no closure, and why arguments of
watched calls have none. Each part belongs to one binding or to one constructed watcher.
-/

namespace Bindery

/-! ## Closures -/

/-- What is reported where a closure cannot be generated. -/
def Closure.problems : Closure → List Problem
  | .ok _ => []
  | .error problem? => problem?.toList

/-- What constructing a binding reports. A source that is read by its name needs no closure. -/
def Binding.getterProblems (resolver : Resolver) (binding : Binding) : List Problem :=
  (binding.getterClosure? resolver).elim [] Closure.problems

/-- What constructing a watcher reports. Only the arguments of a call need a closure of their
own. -/
def Watched.parameterProblems (resolver : Resolver) (watched : Watched) : List Problem :=
  match watched.kind with
  | .function args => (Closure.parameters resolver watched.name args).problems
  | _ => []

namespace Emission

theorem problems_emitClosure (closure : Closure) (out : Emission) :
    (out.emitClosure closure).2.problems = out.problems ++ closure.problems := by
  cases closure with
  | ok method => exact (List.append_nil _).symm
  | error problem? => rfl

theorem problems_emitGetter (resolver : Resolver) (binding : Binding) (out : Emission) :
    (out.emitGetter resolver binding).2.problems = out.problems ++
      (binding.source.map (Closure.getter resolver binding.slot)).elim [] Closure.problems := by
  unfold emitGetter
  cases binding.source with
  | some source => exact problems_emitClosure _ out
  | none => exact (List.append_nil _).symm

theorem problems_emitSetter (binding : Binding) (out : Emission) :
    (out.emitSetter binding).2.problems = out.problems := by
  unfold emitSetter
  split <;> rfl

end Emission

/-! ## Objects -/

namespace RuntimeObject

variable (config : Config) (resolver : Resolver) (out : Emission)

theorem problems_binding (binding : Binding) :
    (RuntimeObject.binding config resolver binding out).2.problems =
      out.problems ++ binding.getterProblems resolver := by
  unfold RuntimeObject.binding Binding.getterProblems Binding.getterClosure?
  rw [Emission.problems_emitSetter]
  split
  · exact (List.append_nil _).symm
  · exact Emission.problems_emitGetter resolver binding out

theorem problems_watcher (propertyGetter : Option MethodHandle) (isRoot : Bool) (watched : Watched)
    (slots : List Nat) :
    (watcher config resolver propertyGetter isRoot watched slots out).2.problems =
      out.problems ++ watched.parameterProblems resolver := by
  obtain ⟨kind, name, events⟩ := watched
  cases kind with
  | function args => exact Emission.problems_emitClosure _ out
  | property | staticProperty owner | xml => exact (List.append_nil _).symm

end RuntimeObject

/-! ## Stages -/

namespace ConstructorContext

variable (context : ConstructorContext)

/-- Emissions keep a list of something, to which each binding and each watcher adds its own part. -/
structure Contributes {α : Type} (log : Emission → List α) (ofBinding : Binding → List α)
    (ofWatched : Watched → List α) : Prop where
  binding : ∀ binding out,
    log (RuntimeObject.binding context.config context.resolver binding out).2 =
      log out ++ ofBinding binding
  watcher : ∀ isRoot watched slots out, log (RuntimeObject.watcher context.config
    context.resolver context.propertyGetter isRoot watched slots out).2 =
      log out ++ ofWatched watched

namespace Contributes

variable {context} {α : Type} {log : Emission → List α} {ofBinding : Binding → List α}
  {ofWatched : Watched → List α}

theorem bindings (h : context.Contributes log ofBinding ofWatched) (bindings : List Binding)
    (out : Emission) :
    log (context.bindings bindings out).2 = log out ++ bindings.flatMap ofBinding := by
  induction bindings generalizing out with
  | nil => exact (List.append_nil _).symm
  | cons binding bindings ih =>
    rw [ConstructorContext.bindings, ih, h.binding, List.flatMap_cons, List.append_assoc]

mutual

theorem construction (h : context.Contributes log ofBinding ofWatched) (isRoot : Bool)
    (parent : Option Nat) (depth : Nat) (out : Emission) : (chain : WatchChain) →
      log (context.construction isRoot chain out).2 =
        log out ++ (chain.watchers parent depth).flatMap (ofWatched ·.watched)
  | .link slot watched slots children => by
    rw [ConstructorContext.construction,
      constructionAll h false (some slot) (depth + 1) _ children, h.watcher, WatchChain.watchers,
      List.flatMap_cons, List.append_assoc]

/-- Constructing watchers adds the parts of all of them, in the order of their slots. -/
theorem constructionAll (h : context.Contributes log ofBinding ofWatched) (isRoot : Bool)
    (parent : Option Nat) (depth : Nat) (out : Emission) : (chains : List WatchChain) →
      log (context.constructionAll isRoot chains out).2 =
        log out ++ (WatchChain.watchersAll parent depth chains).flatMap (ofWatched ·.watched)
  | [] => by
    rw [ConstructorContext.constructionAll, WatchChain.watchersAll]
    exact (List.append_nil _).symm
  | chain :: chains => by
    rw [ConstructorContext.constructionAll, constructionAll h isRoot parent depth _ chains,
      construction h isRoot parent depth _ chain, WatchChain.watchersAll, List.flatMap_append,
      List.append_assoc]

end

/-- The code of all four stages adds the parts of the bindings and then those of the constructed
watchers. -/
theorem code (h : context.Contributes log ofBinding ofWatched) (out : Emission)
    (hpairs : ∀ pair ∈ context.database.pairs, pair.1 ≠ pair.2) :
    log (context.code out).2 = log out ++ context.database.bindings.flatMap ofBinding ++
      context.database.builtWatchers.flatMap (ofWatched ·.watched) := by
  have hallocation : log (context.allocation out).2 =
      log out ++ context.database.bindings.flatMap ofBinding := by
    rw [allocation, links_eq context hpairs]
    exact h.bindings context.database.bindings out
  rw [ConstructorContext.code, h.constructionAll true none 0, hallocation]
  rfl

end Contributes

theorem contributes_problems : context.Contributes Emission.problems
    (Binding.getterProblems context.resolver) (Watched.parameterProblems context.resolver) where
  binding binding out := RuntimeObject.problems_binding _ _ out binding
  watcher isRoot watched slots out := RuntimeObject.problems_watcher _ _ out _ isRoot watched slots

end ConstructorContext

/-- All that is reported about a document with code. -/
theorem Document.problems_compile {doc : Document} {config : Config} {resolver : Resolver}
    {out out' : Emission} {code : ConstructorCode}
    (h : doc.compile config resolver out = (.ok (some code), out')) :
    ∃ recorded, (∀ problem ∈ recorded, problem.IsOfAnalysis) ∧
      out'.problems = out.problems ++ recorded ++
        code.database.bindings.flatMap (Binding.sourceProblems resolver) ++
        code.database.bindings.flatMap (Binding.getterProblems resolver) ++
        code.database.builtWatchers.flatMap (·.watched.parameterProblems resolver) := by
  obtain ⟨bindings, recorded, hrecords, -, hrecorded, hofDatabase⟩ := compile_eq_some h
  obtain ⟨start, hstart, hdatabase, -, hcode⟩ := ConstructorCode.ofDatabase_eq hofDatabase
  obtain rfl : code.database.bindings = bindings := by
    rw [hdatabase]
    rfl
  have hpairs : ∀ pair ∈ code.database.pairs, pair.1 ≠ pair.2 := by
    intro pair hpair
    rw [hdatabase] at hpair
    exact (Database.ne_and_lt_length_of_mem_pairs hrecords.recorded hpair).1
  have hproblems := (code.context config resolver).contributes_problems.code start hpairs
  rw [hcode, hstart, Database.problems_ofBindings] at hproblems
  exact ⟨recorded, hrecorded, hproblems⟩

end Bindery
