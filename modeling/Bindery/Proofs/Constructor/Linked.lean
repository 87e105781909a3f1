import Bindery.Proofs.Constructor.BindingArray
import Bindery.Proofs.Constructor.Functions

/-!
# The constructor and its methods

Each binding and each watcher is constructed from the closures that belong to it. All methods that a
document emits are used by its constructor, and all but one of them once.
-/

namespace Bindery

/-! ## Operands -/

/-- What is emitted keeps its handle while more follows. -/
theorem Emission.names_of_prefix {out out' : Emission} (h : out.emitted <+: out'.emitted)
    {handle : MethodHandle} {method : Method} (hnames : out.Names handle method) :
    out'.Names handle method := by
  rw [names_iff] at hnames ⊢
  obtain ⟨more, hmore⟩ := h
  obtain ⟨hlt, -⟩ := List.getElem?_eq_some_iff.mp hnames
  rwa [← hmore, List.getElem?_append_left hlt]

section Operands

/- The emitted methods by their handles. -/
variable (emitted : MethodHandle → Method → Prop)

/-- Code that constructs a binding from closures of its own source and destination. -/
def Binding.IsConstructedBy (config : Config) (resolver : Resolver) (binding : Binding)
    (code : List Instruction) : Prop :=
  ∃ getter setter : Option MethodHandle,
    code = RuntimeObject.object config.bindingClass 5
      [.getLocal 0, RuntimeObject.functionOrNull getter, RuntimeObject.functionOrNull setter,
        RuntimeObject.stringOrNull binding.destinationText,
        RuntimeObject.stringOrNull binding.sourceText] ∧
    Datum.IsClosure emitted (.ofHandle? getter) (binding.getterClosure? resolver) ∧
    Datum.IsClosure emitted (.ofHandle? setter) binding.setterClosure?

/-- Code that constructs a watcher into its slot. A root that watches a property is constructed with
the method that reads any property, and a function result with the closure of the watched
arguments. -/
def Watcher.IsConstructedBy (config : Config) (resolver : Resolver)
    (propertyGetter : Option MethodHandle) (watcher : Watcher) (code : List Instruction) : Prop :=
  ∃ made, code = [.getLocal 2, .pushNat watcher.slot] ++ made ++
      [.setProperty RuntimeName.arrayIndex] ∧
    match watcher.watched.kind with
    | .property => made = RuntimeObject.propertyWatcher config.propertyWatcherClass
        watcher.watched.name watcher.watched.events watcher.bindings
        (if watcher.isRoot then propertyGetter else none)
    | .staticProperty _ => made = RuntimeObject.propertyWatcher config.staticPropertyWatcherClass
        watcher.watched.name watcher.watched.events watcher.bindings none
    | .function args => ∃ parameters : Option MethodHandle,
        made = RuntimeObject.functionWatcher config.functionReturnWatcherClass
          watcher.watched.name watcher.watched.events watcher.bindings parameters ∧
        Datum.IsClosure emitted (.ofHandle? parameters)
          (some (Closure.parameters resolver watcher.watched.name args))
    | .xml => made = RuntimeObject.xmlWatcher config.xmlWatcherClass watcher.watched.name
        watcher.bindings

variable {emitted} {emitted' : MethodHandle → Method → Prop}

theorem Binding.IsConstructedBy.mono {config : Config} {resolver : Resolver} {binding : Binding}
    {code : List Instruction} (h : binding.IsConstructedBy emitted config resolver code)
    (hemitted : ∀ {handle method}, emitted handle method → emitted' handle method) :
    binding.IsConstructedBy emitted' config resolver code := by
  obtain ⟨getter, setter, hcode, hgetter, hsetter⟩ := h
  exact ⟨getter, setter, hcode, hgetter.mono hemitted, hsetter.mono hemitted⟩

theorem Watcher.IsConstructedBy.mono {config : Config} {resolver : Resolver}
    {propertyGetter : Option MethodHandle} {watcher : Watcher} {code : List Instruction}
    (h : watcher.IsConstructedBy emitted config resolver propertyGetter code)
    (hemitted : ∀ {handle method}, emitted handle method → emitted' handle method) :
    watcher.IsConstructedBy emitted' config resolver propertyGetter code := by
  obtain ⟨made, hcode, hmade⟩ := h
  refine ⟨made, hcode, ?_⟩
  split at hmade
  · exact hmade
  · exact hmade
  · obtain ⟨parameters, hmade, hclosure⟩ := hmade
    exact ⟨parameters, hmade, hclosure.mono hemitted⟩
  · exact hmade

end Operands

theorem Binding.isConstructedBy (config : Config) (resolver : Resolver) (binding : Binding)
    (out : Emission) :
    binding.IsConstructedBy (RuntimeObject.binding config resolver binding out).2.Names config
      resolver (RuntimeObject.binding config resolver binding out).1 := by
  let getter := if binding.isSimple then (none, out) else out.emitGetter resolver binding
  have hgetter : Datum.IsClosure getter.2.Names (.ofHandle? getter.1)
      (binding.getterClosure? resolver) := by
    unfold getter Binding.getterClosure?
    split
    · rfl
    · exact Datum.isClosure_emitGetter resolver binding out
  have hprefix : getter.2.emitted <+: (getter.2.emitSetter binding).2.emitted := by
    rw [Emission.emitted_emitSetter]
    exact List.prefix_append _ _
  exact ⟨getter.1, (getter.2.emitSetter binding).1, rfl,
    hgetter.mono (Emission.names_of_prefix hprefix), Datum.isClosure_emitSetter binding getter.2⟩

theorem Watcher.isConstructedBy (context : ConstructorContext) (watcher : Watcher)
    (out : Emission) :
    let made := RuntimeObject.watcher context.config context.resolver context.propertyGetter
      watcher.isRoot watcher.watched watcher.bindings out
    watcher.IsConstructedBy made.2.Names context.config context.resolver context.propertyGetter
      ([.getLocal 2, .pushNat watcher.slot] ++ made.1 ++
        [.setProperty RuntimeName.arrayIndex]) := by
  obtain ⟨slot, ⟨kind, name, events⟩, bindings, parent, children, depth⟩ := watcher
  cases kind with
  | function args => exact ⟨_, rfl, _, rfl, Datum.isClosure_emitClosure _ out⟩
  | property | staticProperty owner | xml => exact ⟨_, rfl, rfl⟩

namespace ConstructorContext

variable (context : ConstructorContext)

/-- The code of some bindings constructs each of them. -/
theorem exists_bindings_eq_flatten (bindings : List Binding) (out : Emission) :
    ∃ codes, (context.bindings bindings out).1 = codes.flatten ∧
      List.Forall₂ (Binding.IsConstructedBy (context.bindings bindings out).2.Names context.config
        context.resolver) bindings codes := by
  induction bindings generalizing out with
  | nil => exact ⟨[], rfl, .nil⟩
  | cons binding bindings ih =>
    let made := RuntimeObject.binding context.config context.resolver binding out
    obtain ⟨codes, hcodes, hall⟩ := ih made.2
    have hprefix : made.2.emitted <+: (context.bindings bindings made.2).2.emitted := by
      rw [context.contributes_emitted.bindings]
      exact List.prefix_append _ _
    refine ⟨made.1 :: codes, ?_, .cons ?_ hall⟩
    · rw [ConstructorContext.bindings, hcodes, List.flatten_cons]
    · exact (binding.isConstructedBy context.config context.resolver out).mono
        (Emission.names_of_prefix hprefix)

mutual

theorem exists_construction_eq_flatten (parent : Option Nat) (depth : Nat) (out : Emission) :
    (chain : WatchChain) → ∃ codes,
      (context.construction parent.isNone chain out).1 = codes.flatten ∧
        List.Forall₂ (Watcher.IsConstructedBy (context.construction parent.isNone chain out).2.Names
          context.config context.resolver context.propertyGetter) (chain.watchers parent depth)
          codes
  | .link slot watched slots children => by
    let first : Watcher :=
      { slot, watched, parent, depth, bindings := slots, children := children.map WatchChain.slot }
    let made := RuntimeObject.watcher context.config context.resolver context.propertyGetter
      parent.isNone watched slots out
    obtain ⟨codes, hcodes, hall⟩ :=
      exists_constructionAll_eq_flatten (some slot) (depth + 1) made.2 children
    have hprefix : made.2.emitted <+:
        (context.constructionAll false children made.2).2.emitted := by
      rw [context.contributes_emitted.constructionAll false (some slot) (depth + 1)]
      exact List.prefix_append _ _
    refine ⟨([.getLocal 2, .pushNat slot] ++ made.1 ++ [.setProperty RuntimeName.arrayIndex]) ::
      codes, ?_, ?_⟩
    · rw [construction, List.flatten_cons, ← hcodes]
      rfl
    · rw [construction, WatchChain.watchers]
      exact .cons ((first.isConstructedBy context out).mono (Emission.names_of_prefix hprefix)) hall

/-- The code of some chains constructs each of their watchers. -/
theorem exists_constructionAll_eq_flatten (parent : Option Nat) (depth : Nat) (out : Emission) :
    (chains : List WatchChain) → ∃ codes,
      (context.constructionAll parent.isNone chains out).1 = codes.flatten ∧
        List.Forall₂ (Watcher.IsConstructedBy
          (context.constructionAll parent.isNone chains out).2.Names context.config
          context.resolver context.propertyGetter) (WatchChain.watchersAll parent depth chains)
          codes
  | [] => by
    rw [constructionAll, WatchChain.watchersAll]
    exact ⟨[], rfl, .nil⟩
  | chain :: chains => by
    let made := context.construction parent.isNone chain out
    obtain ⟨codes, hcodes, hall⟩ := exists_construction_eq_flatten parent depth out chain
    obtain ⟨more, hmore, hrest⟩ := exists_constructionAll_eq_flatten parent depth made.2 chains
    have hprefix : made.2.emitted <+:
        (context.constructionAll parent.isNone chains made.2).2.emitted := by
      rw [context.contributes_emitted.constructionAll parent.isNone parent depth]
      exact List.prefix_append _ _
    refine ⟨codes ++ more, ?_, ?_⟩
    · rw [constructionAll, List.flatten_append, hcodes, hmore]
    · rw [constructionAll, WatchChain.watchersAll]
      exact List.rel_append (hall.imp fun _ _ h => h.mono (Emission.names_of_prefix hprefix)) hrest

end

/-- The links between bindings emit nothing. -/
theorem snd_allocation (hpairs : ∀ pair ∈ context.database.pairs, pair.1 ≠ pair.2)
    (out : Emission) :
    (context.allocation out).2 = (context.bindings context.database.bindings out).2 := by
  rw [allocation, links_eq context hpairs]

/-- All closures that constructor code makes, up to their order. -/
theorem perm_functions_code (hpairs : ∀ pair ∈ context.database.pairs, pair.1 ≠ pair.2)
    (out : Emission) :
    (functions (context.code out).1).Perm (context.shared context.database.builtWatchers ++
      List.range' out.emitted.length
        (context.database.bindings.flatMap (Binding.methods context.resolver) ++
          context.database.builtWatchers.flatMap (·.watched.methods context.resolver)).length) := by
  obtain ⟨linking, wiring, hlinking, hwiring, hcode⟩ := context.exists_code_eq out
  have hbuilt := context.makesFor_constructionAll none 0 (context.allocation out).2
    context.database.constructed
  rw [MakesFor, own, context.snd_allocation hpairs, context.contributes_emitted.bindings,
    List.length_append] at hbuilt
  rw [hcode, functions_append, functions_append, functions_append, hlinking, hwiring,
    context.functions_bindings, List.append_nil, List.append_nil, List.length_append,
    ← List.range'_append_1]
  rw [context.snd_allocation hpairs]
  refine (hbuilt.append_left _).trans ?_
  exact List.perm_append_comm_assoc _ _ _

theorem count_shared (watchers : List Watcher) (handle : MethodHandle) :
    (context.shared watchers).count handle = if context.propertyGetter = some handle then
      watchers.countP Watcher.isPropertyRoot else 0 := by
  have hgetter : context.propertyGetter.toList.count handle =
      if context.propertyGetter = some handle then 1 else 0 := by
    cases context.propertyGetter <;> simp [List.count_singleton]
  induction watchers with
  | nil => simp [shared]
  | cons watcher watchers ih =>
    have hcons : context.shared (watcher :: watchers) =
        (if watcher.isPropertyRoot then context.propertyGetter.toList else []) ++
          context.shared watchers := List.flatMap_cons
    rw [hcons, List.count_append, ih, List.countP_cons]
    by_cases hroot : watcher.isPropertyRoot
    · rw [if_pos hroot, if_pos hroot, hgetter]
      split <;> omega
    · rw [if_neg hroot, if_neg hroot, List.count_nil, Nat.zero_add, Nat.add_zero]

end ConstructorContext

/-! ## Documents -/

/-- The closure that reads any property is needed if a chain that is constructed starts at a
property of the document. -/
theorem Database.needsPropertyGetter_iff {db : Database} :
    db.needsPropertyGetter ↔ ∃ watcher ∈ db.builtWatchers, watcher.isPropertyRoot := by
  constructor
  · intro hneeds
    obtain ⟨chain, hchain, hform⟩ := List.any_eq_true.mp hneeds
    refine ⟨chain.rootWatcher, ?_, ?_⟩
    · rw [builtWatchers, WatchChain.watchersAll_eq_flatMap]
      refine List.mem_flatMap.mpr ⟨chain, hchain, ?_⟩
      rw [WatchChain.watchers_eq_cons]
      exact List.mem_cons_self
    · exact Bool.and_eq_true_iff.mpr ⟨rfl, hform⟩
  · rintro ⟨watcher, hmem, hroot⟩
    obtain ⟨hroot, hform⟩ := Bool.and_eq_true_iff.mp hroot
    exact needsPropertyGetter_of_mem_builtWatchers hmem hroot (of_decide_eq_true hform)

/-- No other closure is the one that reads any property. -/
theorem ConstructorCode.propertyGetter_mem_methods_iff {code : ConstructorCode}
    {resolver : Resolver} :
    .propertyGetter ∈ code.methods resolver ↔ code.database.needsPropertyGetter := by
  rw [mem_methods_iff]
  constructor
  · rintro (⟨hneeds, -⟩ | ⟨binding, -, hgetter | hsetter⟩ | ⟨watcher, -, args, -, hparameters⟩)
    · exact hneeds
    · obtain ⟨source, -, -, hclosure⟩ := Binding.getterClosure?_eq_some hgetter
      have hcount := congrArg Method.paramCount (Closure.getter_eq_ok hclosure).2
      simp [Method.propertyGetter] at hcount
    · obtain ⟨destination, -, hclosure⟩ := Option.map_eq_some_iff.mp hsetter
      have hlast : (destination.setter binding.slot).code.getLast? = some .returnVoid :=
        List.getLast?_concat
      rw [Except.ok.inj hclosure] at hlast
      simp [Method.propertyGetter, Method.entry] at hlast
    · obtain ⟨body, -, hmethod⟩ := Closure.parameters_eq_ok hparameters
      have hcount := congrArg Method.paramCount hmethod
      simp [Method.propertyGetter] at hcount
  · exact fun hneeds => .inl ⟨hneeds, rfl⟩

/-- Where the method that reads any property is needed, it has the first new handle. -/
theorem Database.emitPropertyGetter_cases (db : Database) (out : Emission) :
    (db.needsPropertyGetter ∧ (db.emitPropertyGetter out).1 = some out.emitted.length ∧
        (db.emitPropertyGetter out).2.emitted = out.emitted ++ [.propertyGetter]) ∨
      (¬db.needsPropertyGetter ∧ (db.emitPropertyGetter out).1 = none ∧
        (db.emitPropertyGetter out).2.emitted = out.emitted) := by
  unfold emitPropertyGetter
  split
  · next hneeds => exact .inl ⟨hneeds, rfl, Emission.emitted_emit _ out⟩
  · next hneeds => exact .inr ⟨hneeds, rfl, rfl⟩

namespace Document

variable {doc : Document} {config : Config} {resolver : Resolver} {out out' : Emission}
  {code : ConstructorCode}

/-- How often the constructor makes a closure of a method: the one that reads any property, which
has the first new handle, once for each root that needs it, and every later one once. -/
theorem exists_count_functions
    (h : doc.compile config resolver out = (.ok (some code), out')) :
    ∃ first ≤ out'.emitted.length,
      (code.database.needsPropertyGetter ∧ code.propertyGetter = some out.emitted.length ∧
          first = out.emitted.length + 1 ∧ out'.Names out.emitted.length .propertyGetter ∨
        ¬code.database.needsPropertyGetter ∧ code.propertyGetter = none ∧
          first = out.emitted.length) ∧
      ∀ handle : Nat, (functions code.instructions).count handle =
        (if code.propertyGetter = some handle then
          code.database.builtWatchers.countP Watcher.isPropertyRoot else 0) +
        if first ≤ handle ∧ handle < out'.emitted.length then 1 else 0 := by
  obtain ⟨recorded, hrecorded, hgetter, hcode, hpairs⟩ := exists_recorded h
  let context := code.context config resolver
  let start := (code.database.emitPropertyGetter recorded).2
  let made := code.database.bindings.flatMap (Binding.methods resolver) ++
    code.database.builtWatchers.flatMap (·.watched.methods resolver)
  have hperm : (functions code.instructions).Perm (context.shared code.database.builtWatchers ++
      List.range' start.emitted.length made.length) := by
    have hstages := context.perm_functions_code hpairs start
    rwa [hcode] at hstages
  have hout' : out'.emitted = start.emitted ++ made := by
    have hstages := context.contributes_emitted.code start hpairs
    rwa [hcode, List.append_assoc] at hstages
  have hlength : out'.emitted.length = start.emitted.length + made.length := by
    rw [hout', List.length_append]
  have hnodup : (List.range' start.emitted.length made.length).Nodup := List.nodup_range'
  refine ⟨start.emitted.length, by omega, ?_, fun handle => ?_⟩
  · rcases code.database.emitPropertyGetter_cases recorded with
      ⟨hneeds, hhandle, hstart⟩ | ⟨hneeds, hnone, hstart⟩
    · have hnames : start.Names out.emitted.length .propertyGetter := by
        rw [Emission.names_iff, hstart, ← hrecorded, List.getElem?_concat_length]
      rw [← hgetter, hrecorded] at hhandle
      refine .inl ⟨hneeds, hhandle, ?_, Emission.names_of_prefix ⟨made, hout'.symm⟩ hnames⟩
      rw [hstart, List.length_append, List.length_singleton, hrecorded]
    · exact .inr ⟨hneeds, hgetter.trans hnone, by rw [hstart, hrecorded]⟩
  · rw [hperm.count_eq, List.count_append, context.count_shared, hnodup.count, hlength]
    simp only [List.mem_range'_1]
    rfl

/-- The constructor consists of code for each binding and each constructed watcher, and of code
between them and behind them that makes no closures. -/
theorem exists_instructions_eq
    (h : doc.compile config resolver out = (.ok (some code), out')) :
    ∃ bindings linking watchers wiring,
      code.instructions = bindings.flatten ++ linking ++ watchers.flatten ++ wiring ∧
      functions linking = [] ∧ functions wiring = [] ∧
      List.Forall₂ (Binding.IsConstructedBy out'.Names config resolver) code.database.bindings
        bindings ∧
      List.Forall₂ (Watcher.IsConstructedBy out'.Names config resolver code.propertyGetter)
        code.database.builtWatchers watchers := by
  obtain ⟨recorded, -, -, hcode, hpairs⟩ := exists_recorded h
  let context := code.context config resolver
  let start := (code.database.emitPropertyGetter recorded).2
  obtain ⟨linking, wiring, hlinking, hwiring, hinstructions⟩ := context.exists_code_eq start
  obtain ⟨bindings, hbindings, hall⟩ :=
    context.exists_bindings_eq_flatten code.database.bindings start
  obtain ⟨watchers, hwatchers, hall'⟩ := context.exists_constructionAll_eq_flatten none 0
    (context.allocation start).2 code.database.constructed
  have hlast : (context.constructionAll true code.database.constructed
      (context.allocation start).2).2 = out' := congrArg Prod.snd hcode
  have hprefix : (context.bindings code.database.bindings start).2.emitted <+: out'.emitted := by
    rw [← hlast, context.contributes_emitted.constructionAll true none 0,
      context.snd_allocation hpairs]
    exact List.prefix_append _ _
  refine ⟨bindings, linking, watchers, wiring, ?_, hlinking, hwiring,
    hall.imp fun _ _ hpiece => hpiece.mono (Emission.names_of_prefix hprefix), ?_⟩
  · rw [hcode] at hinstructions
    rw [← hbindings, ← hwatchers]
    exact hinstructions
  · rw [← hlast]
    exact hall'

end Document

/-- Constructor code and the methods that it emits belong together. -/
structure ConstructorCode.Linked (code : ConstructorCode) (config : Config) (resolver : Resolver)
    (out out' : Emission) : Prop where
  /-- Earlier methods stay as they are, and those of the closures that could be generated follow. -/
  emitted_eq : out'.emitted = out.emitted ++ code.methods resolver
  /-- Nothing else is emitted, and nothing for a closure that could not be generated. -/
  generated : ∀ method ∈ code.methods resolver, method = .propertyGetter ∨
    (∃ binding ∈ code.database.bindings,
      binding.getterClosure? resolver = some (.ok method) ∨
        binding.setterClosure? = some (.ok method)) ∨
    ∃ watcher ∈ code.database.builtWatchers, ∃ args, watcher.watched.kind = .function args ∧
      Closure.parameters resolver watcher.watched.name args = .ok method
  /-- All closures that the constructor makes are of methods emitted for it. -/
  handle_mem : ∀ handle : Nat, handle ∈ functions code.instructions →
    out.emitted.length ≤ handle ∧ handle < out'.emitted.length
  /-- The method that reads any property is emitted for chains that start at a property. -/
  propertyGetter_mem_iff : .propertyGetter ∈ code.methods resolver ↔
    ∃ watcher ∈ code.database.builtWatchers, watcher.isPropertyRoot
  propertyGetter_isSome_iff : code.propertyGetter.isSome ↔
    ∃ watcher ∈ code.database.builtWatchers, watcher.isPropertyRoot
  /-- It is used once for each of them. -/
  propertyGetter_count : ∀ handle : Nat, code.propertyGetter = some handle →
    out.emitted.length ≤ handle ∧ out'.Names handle .propertyGetter ∧
      (functions code.instructions).count handle =
        code.database.builtWatchers.countP Watcher.isPropertyRoot
  /-- Every other method is used once. -/
  count_eq_one : ∀ handle : Nat, out.emitted.length ≤ handle → handle < out'.emitted.length →
    code.propertyGetter ≠ some handle → (functions code.instructions).count handle = 1
  /-- No method is used by another one. -/
  functions_methods : ∀ method ∈ code.methods resolver, functions method.code = []
  /-- The code of each object uses the closures that belong to it. -/
  constructs : ∃ bindings linking watchers wiring,
    code.instructions = bindings.flatten ++ linking ++ watchers.flatten ++ wiring ∧
    functions linking = [] ∧ functions wiring = [] ∧
    List.Forall₂ (Binding.IsConstructedBy out'.Names config resolver) code.database.bindings
      bindings ∧
    List.Forall₂ (Watcher.IsConstructedBy out'.Names config resolver code.propertyGetter)
      code.database.builtWatchers watchers

/-- **The constructor and its methods are linked exactly.** Earlier methods are unchanged, and
behind them the closures that could be generated are emitted, and nothing else. The constructor
makes closures of these only: of the method that reads any property, which is emitted exactly if a
constructed chain starts at a property, once for each such chain, and of every other method once.
Each binding is constructed from the closures of its own source and destination, and each watched
call from that of its own arguments. -/
theorem Document.linked_compile {doc : Document} {config : Config} {resolver : Resolver}
    {out out' : Emission} {code : ConstructorCode}
    (h : doc.compile config resolver out = (.ok (some code), out')) :
    code.Linked config resolver out out' := by
  obtain ⟨first, hfirst, hgetter, hcount⟩ := exists_count_functions h
  refine {
    emitted_eq := emitted_compile h
    generated := fun method hmethod =>
      (ConstructorCode.mem_methods_iff.mp hmethod).imp_left And.right
    handle_mem := fun handle hhandle => ?_
    propertyGetter_mem_iff :=
      ConstructorCode.propertyGetter_mem_methods_iff.trans Database.needsPropertyGetter_iff
    propertyGetter_isSome_iff := ?_
    propertyGetter_count := fun handle hhandle => ?_
    count_eq_one := fun handle hle hlt hne => ?_
    functions_methods := fun method => ConstructorCode.functions_of_mem_methods
    constructs := exists_instructions_eq h }
  · have hpos := List.count_pos_iff.mpr hhandle
    rw [hcount] at hpos
    rcases hgetter with ⟨-, hsome, heq, -⟩ | ⟨-, hnone, heq⟩
    · -- It is the shared method or a later one.
      by_cases hsame : out.emitted.length = handle
      · omega
      · have hne : code.propertyGetter ≠ some handle := by rwa [hsome, ne_eq, Option.some_inj]
        rw [if_neg hne] at hpos
        split at hpos <;> omega
    · rw [hnone, if_neg nofun] at hpos
      split at hpos <;> omega
  · rw [← Database.needsPropertyGetter_iff]
    rcases hgetter with ⟨hneeds, hsome, -⟩ | ⟨hneeds, hnone, -⟩
    · simp [hneeds, hsome]
    · simp [hneeds, hnone]
  · rcases hgetter with ⟨-, hsome, heq, hnames⟩ | ⟨-, hnone, -⟩
    · obtain rfl := Option.some.inj (hsome.symm.trans hhandle)
      refine ⟨Nat.le_refl _, hnames, ?_⟩
      rw [hcount, if_pos hsome, if_neg (by omega), Nat.add_zero]
    · simp [hnone] at hhandle
  · rw [hcount, if_neg hne, Nat.zero_add]
    rcases hgetter with ⟨-, hsome, heq, -⟩ | ⟨-, -, heq⟩
    · have hother : handle ≠ out.emitted.length := fun hsame => hne (hsame ▸ hsome)
      rw [if_pos (by omega)]
    · rw [if_pos (by omega)]

/-- Two bindings that are the reverse of each other, compiled behind another method: the closures of
the bindings are made first, and the method that reads any property is shared by two chains. -/
theorem Document.linked_compile_linked :
    ∃ code out', linkedDocument.compile {} linkedResolver { methods := ⟨#[.propertyGetter]⟩ } =
        (.ok (some code), out') ∧
      code.propertyGetter = some 1 ∧ functions code.instructions = [2, 3, 4, 5, 1, 1] ∧
      code.Linked {} linkedResolver { methods := ⟨#[.propertyGetter]⟩ } out' := by
  obtain ⟨code, out', hcompile, hgetter, hfunctions⟩ :
      ∃ code out', linkedDocument.compile {} linkedResolver { methods := ⟨#[.propertyGetter]⟩ } =
          (.ok (some code), out') ∧
        code.propertyGetter = some 1 ∧ functions code.instructions = [2, 3, 4, 5, 1, 1] :=
    Document.exists_code (by decide +kernel)
  exact ⟨code, out', hcompile, hgetter, hfunctions, Document.linked_compile hcompile⟩

end Bindery
