import Bindery.Proofs.Constructor.Methods

/-!
# Closures in constructor code

Constructor code refers to methods by the handles that they get while it is generated. This file
lists the methods of which some code makes closures: the code of a binding or a watcher those that
it emits, and all other code none. Only the method that reads any property is shared by several
watchers.
-/

namespace Bindery

/-! ## Handles -/

/-- The method of which an instruction makes a closure. -/
def Instruction.handle? : Instruction → Option MethodHandle
  | newFunction handle => some handle
  | _ => none

/-- The methods of which some code makes closures, in the order in which it does. -/
def functions (code : List Instruction) : List MethodHandle :=
  code.filterMap Instruction.handle?

section Functions

@[simp] theorem handle?_newFunction (handle : MethodHandle) :
    (Instruction.newFunction handle).handle? = some handle := rfl

@[simp] theorem handle?_eq_none {instruction : Instruction}
    (h : ∀ handle, instruction ≠ .newFunction handle) : instruction.handle? = none := by
  cases instruction <;> simp_all [Instruction.handle?]

@[simp] theorem functions_nil : functions [] = [] := rfl

@[simp] theorem functions_cons (instruction : Instruction) (code : List Instruction) :
    functions (instruction :: code) = instruction.handle?.toList ++ functions code := by
  cases h : instruction.handle? <;> simp [functions, h]

@[simp] theorem functions_append (code more : List Instruction) :
    functions (code ++ more) = functions code ++ functions more :=
  List.filterMap_append

@[simp] theorem functions_flatMap {α : Type} (l : List α) (code : α → List Instruction) :
    functions (l.flatMap code) = l.flatMap fun x => functions (code x) := by
  induction l <;> simp_all

@[simp] theorem functions_replicate_pushNull (count : Nat) :
    functions (List.replicate count .pushNull) = [] := by
  induction count <;> simp_all [List.replicate_succ]

@[simp] theorem handle?_pushNat (n : Nat) : (Instruction.pushNat n).handle? = none := by
  unfold Instruction.pushNat
  split <;> rfl

end Functions

/-! ## Expressions make no closures -/

section Expressions

variable {resolver : Resolver}

theorem functions_andThen {first second : Lowered} (h : functions first.code = [])
    (h' : functions second.code = []) : functions (first.andThen second).code = [] := by
  unfold Lowered.andThen
  split <;> simp [h, h']

@[simp] theorem handle?_memberHolder (definition : Definition) :
    (resolver.memberHolder definition).handle? = none := by
  unfold Resolver.memberHolder
  split <;> rfl

theorem functions_lowerName (name : String) : functions (resolver.lowerName name).code = [] := by
  unfold Resolver.lowerName
  split
  · simp [Lowered.done]
  · split
    · split <;> rfl
    · rfl

theorem functions_lowerReceiver (name call : String) :
    functions (resolver.lowerReceiver name call).code = [] := by
  unfold Resolver.lowerReceiver
  split
  · simp [Lowered.done]
  · split <;> rfl

theorem functions_lowerCall {receiver args : Lowered} {name : String} {argCount : Nat}
    (h : functions receiver.code = []) (h' : functions args.code = []) :
    functions ((receiver.andThen args).andThen
      (.done [.callProperty (.inPublic name) argCount])).code = [] :=
  functions_andThen (functions_andThen h h') rfl

namespace Expr

mutual

theorem functions_lower : (e : Expr) → functions (e.lower resolver).code = []
  | .self _ => by
    rw [lower]
    rfl
  | .identifier name _ => by
    rw [lower]
    exact functions_lowerName name
  | .member object name _ => by
    rcases object.eq_self_or_not with ⟨_, rfl⟩ | hself
    · rw [lower]
      exact functions_lowerName name
    · rw [lower_member hself]
      exact functions_andThen (functions_lower object) rfl
  | .index object i _ => by
    rw [lower]
    exact functions_andThen (functions_andThen (functions_lower object) (functions_lower i)) rfl
  | .call (.identifier name _) args _ => by
    rw [lower]
    exact functions_lowerCall (functions_lowerReceiver name _) (functions_lowerAll args)
  | .call (.member object name _) args _ => by
    rcases object.eq_self_or_not with ⟨_, rfl⟩ | hself
    · rw [lower]
      exact functions_lowerCall (functions_lowerReceiver name _) (functions_lowerAll args)
    · rw [lower_call_member hself]
      exact functions_lowerCall (functions_lower object) (functions_lowerAll args)
  | .call (.self _) _ _ | .call (.index ..) _ _ | .call (.call ..) _ _ | .call (.literal ..) _ _
  | .call (.binary ..) _ _ | .call (.concat ..) _ _ => by
    simp [lower, Lowered.failed]
  | .literal value _ => by
    rw [lower]
    rcases value with _ | ⟨_ | _⟩ | _ | _ | _ <;> rfl
  | .binary op left right _ => by
    rw [lower]
    refine functions_andThen (functions_andThen (functions_lower left) (functions_lower right)) ?_
    cases op <;> rfl
  | .concat parts _ => by
    rw [lower]
    exact functions_andThen rfl (functions_lowerParts parts)

/-- The code of expressions makes no closures. -/
theorem functions_lowerAll : (es : List Expr) → functions (lowerAll resolver es).code = []
  | [] => by
    rw [lowerAll]
    rfl
  | e :: es => by
    rw [lowerAll]
    exact functions_andThen (functions_lower e) (functions_lowerAll es)

theorem functions_lowerParts : (es : List Expr) → functions (lowerParts resolver es).code = []
  | [] => by
    rw [lowerParts]
    rfl
  | e :: es => by
    rw [lowerParts]
    exact functions_andThen (functions_andThen (functions_lower e) rfl) (functions_lowerParts es)

end

end Expr

end Expressions

/-! ## Methods make no closures -/

section Methods

variable {resolver : Resolver} {method : Method}

namespace Closure

theorem functions_getter {slot : Nat} {source : Expr}
    (h : getter resolver slot source = .ok method) : functions method.code = [] := by
  obtain ⟨-, rfl⟩ := getter_eq_ok h
  simp [Method.entry, source.functions_lower]

theorem functions_argumentCode {args : List Expr} {code : List Instruction}
    (h : argumentCode resolver args = .ok code) : functions code = [] := by
  induction args generalizing code with
  | nil =>
    rw [← Except.ok.inj h]
    rfl
  | cons arg args ih =>
    obtain ⟨-, rest, hrest, rfl⟩ := argumentCode_cons_eq_ok h
    rw [functions_append, arg.functions_lower, ih hrest, List.append_nil]

theorem functions_parameters {name : String} {args : List Expr}
    (h : parameters resolver name args = .ok method) : functions method.code = [] := by
  obtain ⟨code, hcode, rfl⟩ := parameters_eq_ok h
  simp [Method.entry, functions_argumentCode hcode]

end Closure

namespace Destination

theorem functions_segmentsCode (toText : Bool) (segments : List Segment) :
    functions (segmentsCode toText segments) = [] := by
  induction segments with
  | nil => rfl
  | cons segment rest ih =>
    cases rest with
    | nil =>
      change functions (storeCode toText segment) = []
      cases hindex : segment.index <;> cases toText <;> simp [storeCode, hindex]
    | cons next rest =>
      change functions (readCode segment ++ segmentsCode toText (next :: rest)) = []
      cases hindex : segment.index <;> simp [readCode, hindex, ih]

theorem functions_setter (destination : Destination) (slot : Nat) :
    functions (destination.setter slot).code = [] := by
  have hroot : (rootCode destination.root).handle? = none := by
    cases destination.root <;> rfl
  simp [setter, Method.entry, functions_segmentsCode, hroot]

end Destination

/-- The methods that constructor code emits make no closures themselves. -/
theorem ConstructorCode.functions_of_mem_methods {code : ConstructorCode}
    (h : method ∈ code.methods resolver) : functions method.code = [] := by
  rcases mem_methods_iff.mp h with
    ⟨-, rfl⟩ | ⟨binding, -, hgetter | hsetter⟩ | ⟨watcher, -, args, -, hparameters⟩
  · rfl
  · obtain ⟨source, -, -, hclosure⟩ := Binding.getterClosure?_eq_some hgetter
    exact Closure.functions_getter hclosure
  · obtain ⟨destination, -, hclosure⟩ := Option.map_eq_some_iff.mp hsetter
    rw [← Except.ok.inj hclosure]
    exact destination.functions_setter _
  · exact Closure.functions_parameters hparameters

end Methods

/-! ## Objects -/

namespace RuntimeObject

@[simp] theorem handle?_functionOrNull (handle? : Option MethodHandle) :
    (functionOrNull handle?).handle? = handle? := by
  cases handle? <;> rfl

@[simp] theorem handle?_stringOrNull (text? : Option String) :
    (stringOrNull text?).handle? = none := by
  cases text? <;> rfl

@[simp] theorem functions_object (qualified : String) (count : Nat) (args : List Instruction) :
    functions (object qualified count args) = functions args := by
  simp [object]

@[simp] theorem functions_element (array slot : Nat) : functions (element array slot) = [] := by
  simp [element]

@[simp] theorem functions_events (names : List String) : functions (events names) = [] := by
  simp [events]

@[simp] theorem functions_listeners (slots : List Nat) : functions (listeners slots) = [] := by
  simp [listeners]

@[simp] theorem functions_execution (count : Nat) : functions (execution count) = [] := by
  simp [execution]

end RuntimeObject

namespace Emission

/-- The handle of a closure is the next one, if it could be generated. -/
theorem toList_emitClosure (closure : Closure) (out : Emission) :
    (out.emitClosure closure).1.toList =
      List.range' out.emitted.length closure.methods.length := by
  cases closure <;> rfl

theorem toList_emitGetter (resolver : Resolver) (binding : Binding) (out : Emission) :
    (out.emitGetter resolver binding).1.toList = List.range' out.emitted.length
      ((binding.source.map (Closure.getter resolver binding.slot)).elim []
        Closure.methods).length := by
  unfold emitGetter
  cases binding.source with
  | some source => exact toList_emitClosure _ out
  | none => rfl

theorem toList_emitSetter (binding : Binding) (out : Emission) :
    (out.emitSetter binding).1.toList = List.range' out.emitted.length
      (binding.setterClosure?.elim [] Closure.methods).length := by
  unfold emitSetter Binding.setterClosure?
  cases binding.destination <;> rfl

end Emission

namespace RuntimeObject

/-- The code of a binding makes closures of the methods that it emits. -/
theorem functions_binding (config : Config) (resolver : Resolver) (binding : Binding)
    (out : Emission) :
    functions (RuntimeObject.binding config resolver binding out).1 =
      List.range' out.emitted.length (binding.methods resolver).length := by
  let getter := if binding.isSimple then (none, out) else out.emitGetter resolver binding
  have hgetter : getter.1.toList = List.range' out.emitted.length
        ((binding.getterClosure? resolver).elim [] Closure.methods).length ∧
      getter.2.emitted = out.emitted ++
        (binding.getterClosure? resolver).elim [] Closure.methods := by
    unfold getter Binding.getterClosure?
    split
    · exact ⟨rfl, (List.append_nil _).symm⟩
    · exact ⟨Emission.toList_emitGetter resolver binding out,
        Emission.emitted_emitGetter resolver binding out⟩
  have hfunctions : functions (RuntimeObject.binding config resolver binding out).1 =
      getter.1.toList ++ (getter.2.emitSetter binding).1.toList := by
    simp [RuntimeObject.binding, getter]
  rw [hfunctions, hgetter.1, Emission.toList_emitSetter, hgetter.2, List.length_append,
    List.range'_append_1, Binding.methods, List.length_append]

/-- The code of a watcher makes a closure of the method that it emits, and a root that watches a
property one of the method that reads any property. -/
theorem functions_watcher (config : Config) (resolver : Resolver)
    (propertyGetter : Option MethodHandle) (isRoot : Bool) (watched : Watched) (slots : List Nat)
    (out : Emission) :
    functions (watcher config resolver propertyGetter isRoot watched slots out).1 =
      (if isRoot ∧ watched.kind.form = .property then propertyGetter.toList else []) ++
        List.range' out.emitted.length (watched.methods resolver).length := by
  obtain ⟨kind, name, events⟩ := watched
  cases kind with
  | function args =>
    simp [watcher, functionWatcher, WatchedKind.form, Watched.methods,
      Emission.toList_emitClosure]
  | property =>
    cases isRoot <;>
      simp [watcher, propertyWatcher, WatchedKind.form, Watched.methods]
  | staticProperty owner =>
    simp [watcher, propertyWatcher, WatchedKind.form, Watched.methods]
  | xml => simp [watcher, xmlWatcher, WatchedKind.form, Watched.methods]

end RuntimeObject

/-! ## Stages -/

/-- A watcher that starts a chain and reads a property of the document. -/
def Watcher.isPropertyRoot (watcher : Watcher) : Bool :=
  watcher.isRoot && watcher.watched.kind.form = .property

namespace ConstructorContext

variable (context : ConstructorContext)

theorem functions_bindings (bindings : List Binding) (out : Emission) :
    functions (context.bindings bindings out).1 = List.range' out.emitted.length
      (bindings.flatMap (Binding.methods context.resolver)).length := by
  induction bindings generalizing out with
  | nil => rfl
  | cons binding bindings ih =>
    rw [ConstructorContext.bindings, functions_append, ih, RuntimeObject.functions_binding,
      RuntimeObject.emitted_binding, List.length_append, List.range'_append_1, List.flatMap_cons,
      List.length_append]

theorem functions_links (pairs : List (Nat × Nat)) (out : Emission) :
    functions (context.links pairs out).1 = [] := by
  fun_induction links context pairs out with
  | case1 => rfl
  | case2 _ _ _ _ ih => exact ih
  | case3 a b _ _ _ more ih => simp [linkTo, ownBinding, more, ih]

theorem functions_emptyWatchers (count : Nat) : functions (emptyWatchers count) = [] := by
  simp [emptyWatchers, keep]

/-- The method that reads any property of the document, once for each watcher that starts a chain
and reads a property. -/
def shared (watchers : List Watcher) : List MethodHandle :=
  watchers.flatMap fun watcher =>
    if watcher.isPropertyRoot then context.propertyGetter.toList else []

/-- The methods of some watchers are emitted one after the other. -/
def own (watchers : List Watcher) (out : Emission) : List MethodHandle :=
  List.range' out.emitted.length
    (watchers.flatMap (·.watched.methods context.resolver)).length

/-- Up to their order, the closures that some code makes are those that some watchers are
constructed from, which emit their methods behind earlier ones. -/
def MakesFor (watchers : List Watcher) (out : Emission) (code : List Instruction) : Prop :=
  (functions code).Perm (context.shared watchers ++ context.own watchers out)

variable {context} in
theorem MakesFor.append {code more : List Instruction} {watchers others : List Watcher}
    {out out' : Emission} (h : context.MakesFor watchers out code)
    (h' : context.MakesFor others out' more)
    (hout : out'.emitted = out.emitted ++ watchers.flatMap (·.watched.methods context.resolver)) :
    context.MakesFor (watchers ++ others) out (code ++ more) := by
  have hown : context.own (watchers ++ others) out =
      context.own watchers out ++ context.own others out' := by
    rw [own, own, own, hout, List.length_append, List.range'_append_1, List.flatMap_append,
      List.length_append]
  have hshared : context.shared (watchers ++ others) =
      context.shared watchers ++ context.shared others := List.flatMap_append
  rw [MakesFor, functions_append, hown, hshared, List.append_assoc]
  refine (List.Perm.append h h').trans ?_
  rw [List.append_assoc]
  exact (List.perm_append_comm_assoc _ _ _).append_left _

mutual

/-- The code that constructs a chain makes closures of the methods that it emits, and for a root
that reads a property one of the method that reads any. -/
theorem makesFor_construction (parent : Option Nat) (depth : Nat) (out : Emission) :
    (chain : WatchChain) → context.MakesFor (chain.watchers parent depth) out
      (context.construction parent.isNone chain out).1
  | .link slot watched slots children => by
    let made := RuntimeObject.watcher context.config context.resolver context.propertyGetter
      parent.isNone watched slots out
    let first : Watcher :=
      { slot, watched, parent, depth, bindings := slots, children := children.map WatchChain.slot }
    have hfirst : context.MakesFor [first] out
        ([.getLocal 2, .pushNat slot] ++ made.1 ++ [.setProperty RuntimeName.arrayIndex]) := by
      simp [MakesFor, made, RuntimeObject.functions_watcher, shared, own, first,
        Watcher.isPropertyRoot, Watcher.isRoot]
    have hout : made.2.emitted =
        out.emitted ++ [first].flatMap (·.watched.methods context.resolver) := by
      rw [RuntimeObject.emitted_watcher, List.flatMap_singleton]
    rw [construction, WatchChain.watchers]
    exact hfirst.append (makesFor_constructionAll (some slot) (depth + 1) made.2 children) hout

theorem makesFor_constructionAll (parent : Option Nat) (depth : Nat) (out : Emission) :
    (chains : List WatchChain) →
      context.MakesFor (WatchChain.watchersAll parent depth chains) out
        (context.constructionAll parent.isNone chains out).1
  | [] => by
    rw [constructionAll, WatchChain.watchersAll]
    exact .refl _
  | chain :: chains => by
    rw [constructionAll, WatchChain.watchersAll]
    exact (makesFor_construction parent depth out chain).append
      (makesFor_constructionAll parent depth _ chains)
      (context.contributes_emitted.construction parent.isNone parent depth out chain)

end

theorem functions_join (parent child : Nat) (childForm : WatchForm) :
    functions (join parent child childForm) = [] := by
  unfold join
  split <;> simp [ownWatcher]

mutual

theorem functions_wiring : (chain : WatchChain) → functions (wiring chain) = []
  | .link slot _ _ children => by
    rw [wiring, functions_wiringAll slot children]

theorem functions_wiringAll (parent : Nat) : (chains : List WatchChain) →
    functions (wiringAll parent chains) = []
  | [] => by
    rw [wiringAll]
    rfl
  | chain :: chains => by
    rw [wiringAll, functions_append, functions_append, functions_join, functions_wiring chain,
      functions_wiringAll parent chains]
    rfl

end

theorem functions_rootWiring (chain : WatchChain) : functions (rootWiring chain) = [] := by
  have hroot : (rootObject chain.watched).handle? = none := by
    unfold rootObject
    split <;> rfl
  simp [rootWiring, ownWatcher, functions_wiring, hroot]

/-- Between and behind the code of objects there is code that makes no closures. -/
theorem exists_code_eq (out : Emission) :
    ∃ linking wiring, functions linking = [] ∧ functions wiring = [] ∧
      (context.code out).1 = (context.bindings context.database.bindings out).1 ++ linking ++
        (context.constructionAll true context.database.constructed
          (context.allocation out).2).1 ++ wiring := by
  let made := context.bindings context.database.bindings out
  refine ⟨[.newArray context.database.bindings.length] ++ keep RuntimeName.bindings ++
    (context.links context.database.pairs made.2).1 ++
    emptyWatchers context.database.watchers.length ++ loadArrays,
    context.database.constructed.flatMap rootWiring ++
      RuntimeObject.execution context.database.bindings.length, ?_, ?_, ?_⟩
  · simp [keep, loadArrays, functions_links, functions_emptyWatchers]
  · simp [functions_rootWiring]
  · simp only [code, allocation, made, List.append_assoc]

end ConstructorContext

end Bindery
