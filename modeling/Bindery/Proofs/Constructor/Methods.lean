import Bindery.Proofs.Constructor.Log

/-!
# The methods of a compiled document

All methods that a document with code emits, in the order of their handles: the closure that reads
any property if a constructed root needs it, the closures of each binding, and those of the
arguments of watched calls. A closure that could not be generated emits nothing.
-/

namespace Bindery

/-! ## Closures -/

/-- The method of a closure, if it could be generated. -/
def Closure.methods : Closure → List Method
  | .ok method => [method]
  | .error _ => []

theorem Closure.mem_methods_iff {closure : Closure} {method : Method} :
    method ∈ closure.methods ↔ closure = .ok method := by
  cases closure <;> simp [methods, eq_comm]

namespace Closure

variable {resolver : Resolver} {method : Method}

/-- The source of a getter has complete code. -/
theorem getter_eq_ok {slot : Nat} {source : Expr} (h : getter resolver slot source = .ok method) :
    (source.lower resolver).error? = none ∧ method = {
      name := "_bindingGetter" ++ toString slot
      paramCount := 0
      code := Method.entry ++ (source.lower resolver).code ++ [.returnValue] } := by
  simp only [getter] at h
  split at h
  · simp at h
  · next herror => exact ⟨herror, (Except.ok.inj h).symm⟩

/-- All arguments have complete code. -/
theorem argumentCode_cons_eq_ok {arg : Expr} {args : List Expr} {code : List Instruction}
    (h : argumentCode resolver (arg :: args) = .ok code) :
    (arg.lower resolver).error? = none ∧ ∃ rest, argumentCode resolver args = .ok rest ∧
      code = (arg.lower resolver).code ++ rest := by
  simp only [argumentCode] at h
  split at h
  · simp at h
  · next herror =>
    cases hargs : argumentCode resolver args with
    | error problem? => simp [hargs, Except.map] at h
    | ok rest =>
      rw [hargs] at h
      exact ⟨herror, rest, rfl, (Except.ok.inj h).symm⟩

theorem parameters_eq_ok {name : String} {args : List Expr}
    (h : parameters resolver name args = .ok method) :
    ∃ code, argumentCode resolver args = .ok code ∧ method = {
      name := "_" ++ name ++ "Parameters"
      paramCount := 0
      code := Method.entry ++ code ++ [.newArray args.length, .returnValue] } := by
  unfold parameters at h
  cases hargs : argumentCode resolver args with
  | error problem? => simp [hargs, Except.map] at h
  | ok code =>
    rw [hargs] at h
    exact ⟨code, rfl, (Except.ok.inj h).symm⟩

end Closure

/-- A getter is the closure of the source, which cannot be read by its name alone. -/
theorem Binding.getterClosure?_eq_some {resolver : Resolver} {binding : Binding}
    {closure : Closure} (h : binding.getterClosure? resolver = some closure) :
    ∃ source, binding.source = some source ∧ binding.isSimple = false ∧
      Closure.getter resolver binding.slot source = closure := by
  unfold getterClosure? at h
  split at h
  · simp at h
  · next hsimple =>
    obtain ⟨source, hsource, hclosure⟩ := Option.map_eq_some_iff.mp h
    exact ⟨source, hsource, by simpa using hsimple, hclosure⟩

/-- The methods that constructing a binding emits. -/
def Binding.methods (resolver : Resolver) (binding : Binding) : List Method :=
  (binding.getterClosure? resolver).elim [] Closure.methods ++
    binding.setterClosure?.elim [] Closure.methods

/-- The methods that constructing a watcher emits. Only the arguments of a call need a closure of
their own. -/
def Watched.methods (resolver : Resolver) (watched : Watched) : List Method :=
  match watched.kind with
  | .function args => (Closure.parameters resolver watched.name args).methods
  | _ => []

namespace Emission

/-- The methods emitted so far, in the order of their handles. -/
def emitted (out : Emission) : List Method := out.methods.methods.toList

/-- A handle names the method at its place. -/
theorem names_iff {out : Emission} {handle : MethodHandle} {method : Method} :
    out.Names handle method ↔ out.emitted[handle]? = some method := by
  rw [Names, MethodTable.get?, emitted, Array.getElem?_toList]

theorem emitted_emit (method : Method) (out : Emission) :
    (out.emit method).2.emitted = out.emitted ++ [method] :=
  Array.toList_push

theorem emitted_emitClosure (closure : Closure) (out : Emission) :
    (out.emitClosure closure).2.emitted = out.emitted ++ closure.methods := by
  cases closure with
  | ok method => exact emitted_emit method out
  | error problem? => exact (List.append_nil _).symm

theorem emitted_emitGetter (resolver : Resolver) (binding : Binding) (out : Emission) :
    (out.emitGetter resolver binding).2.emitted = out.emitted ++
      (binding.source.map (Closure.getter resolver binding.slot)).elim [] Closure.methods := by
  unfold emitGetter
  cases binding.source with
  | some source => exact emitted_emitClosure _ out
  | none => exact (List.append_nil _).symm

theorem emitted_emitSetter (binding : Binding) (out : Emission) :
    (out.emitSetter binding).2.emitted =
      out.emitted ++ binding.setterClosure?.elim [] Closure.methods := by
  unfold emitSetter Binding.setterClosure?
  cases binding.destination with
  | some destination => exact emitted_emit _ out
  | none => exact (List.append_nil _).symm

end Emission

/-! ## Objects and stages -/

namespace RuntimeObject

variable (config : Config) (resolver : Resolver) (out : Emission)

theorem emitted_binding (binding : Binding) :
    (RuntimeObject.binding config resolver binding out).2.emitted =
      out.emitted ++ binding.methods resolver := by
  unfold RuntimeObject.binding Binding.methods Binding.getterClosure?
  rw [Emission.emitted_emitSetter, ← List.append_assoc]
  split
  · rw [Option.elim_none, List.append_nil]
  · rw [Emission.emitted_emitGetter]

theorem emitted_watcher (propertyGetter : Option MethodHandle) (isRoot : Bool) (watched : Watched)
    (slots : List Nat) :
    (watcher config resolver propertyGetter isRoot watched slots out).2.emitted =
      out.emitted ++ watched.methods resolver := by
  obtain ⟨kind, name, events⟩ := watched
  cases kind with
  | function args => exact Emission.emitted_emitClosure _ out
  | property | staticProperty owner | xml => exact (List.append_nil _).symm

end RuntimeObject

theorem ConstructorContext.contributes_emitted (context : ConstructorContext) :
    context.Contributes Emission.emitted (Binding.methods context.resolver)
      (Watched.methods context.resolver) where
  binding binding out := RuntimeObject.emitted_binding _ _ out binding
  watcher isRoot watched slots out := RuntimeObject.emitted_watcher _ _ out _ isRoot watched slots

/-! ## Documents -/

/-- The closure that reads any property is emitted first of all, if it is needed. -/
def Database.emitPropertyGetter (db : Database) (out : Emission) :
    Option MethodHandle × Emission :=
  if db.needsPropertyGetter then
    (some (out.emit .propertyGetter).1, (out.emit .propertyGetter).2)
  else (none, out)

namespace ConstructorCode

/-- The methods that constructor code emits, in the order of their handles. -/
def methods (code : ConstructorCode) (resolver : Resolver) : List Method :=
  (if code.database.needsPropertyGetter then [.propertyGetter] else []) ++
    code.database.bindings.flatMap (Binding.methods resolver) ++
    code.database.builtWatchers.flatMap (·.watched.methods resolver)

/-- The code of a database is generated behind the closure that reads any property. -/
theorem code_emitPropertyGetter {config : Config} {resolver : Resolver} {db : Database}
    {out out' : Emission} {code : ConstructorCode}
    (h : ofDatabase config resolver db out = (code, out')) :
    code.database = db ∧ code.propertyGetter = (db.emitPropertyGetter out).1 ∧
      (code.context config resolver).code (db.emitPropertyGetter out).2 =
        (code.instructions, out') := by
  obtain ⟨rfl, rfl⟩ := Prod.mk.inj h
  unfold context Database.emitPropertyGetter
  split <;> simp only [and_self]

/-- What is emitted: the closures of bindings and of the arguments of watched calls, as far as they
could be generated, and the closure that reads any property. -/
theorem mem_methods_iff {code : ConstructorCode} {resolver : Resolver} {method : Method} :
    method ∈ code.methods resolver ↔
      (code.database.needsPropertyGetter ∧ method = .propertyGetter) ∨
      (∃ binding ∈ code.database.bindings,
        binding.getterClosure? resolver = some (.ok method) ∨
          binding.setterClosure? = some (.ok method)) ∨
      ∃ watcher ∈ code.database.builtWatchers, ∃ args,
        watcher.watched.kind = .function args ∧
          Closure.parameters resolver watcher.watched.name args = .ok method := by
  have hclosure (closure? : Option Closure) :
      method ∈ closure?.elim [] Closure.methods ↔ closure? = some (.ok method) := by
    cases closure? <;> simp [Closure.mem_methods_iff]
  have hwatched (watched : Watched) : method ∈ watched.methods resolver ↔ ∃ args,
      watched.kind = .function args ∧
        Closure.parameters resolver watched.name args = .ok method := by
    unfold Watched.methods
    split
    · next args hkind => simp [hkind, Closure.mem_methods_iff]
    · next hkind => simpa using fun args hargs => absurd hargs (hkind args)
  have hgetter : method ∈ (if code.database.needsPropertyGetter then
      [Method.propertyGetter] else []) ↔
        code.database.needsPropertyGetter ∧ method = .propertyGetter := by
    split <;> simp_all
  simp only [methods, List.mem_append, List.mem_flatMap, Binding.methods, hclosure, hwatched,
    hgetter, or_assoc]

end ConstructorCode

/-- The code of a document is generated from what recording leaves, where nothing has been emitted
yet but what was there before. No binding is paired with itself. -/
theorem Document.exists_recorded {doc : Document} {config : Config} {resolver : Resolver}
    {out out' : Emission} {code : ConstructorCode}
    (h : doc.compile config resolver out = (.ok (some code), out')) :
    ∃ recorded : Emission, recorded.emitted = out.emitted ∧
      code.propertyGetter = (code.database.emitPropertyGetter recorded).1 ∧
      (code.context config resolver).code (code.database.emitPropertyGetter recorded).2 =
        (code.instructions, out') ∧
      ∀ pair ∈ code.database.pairs, pair.1 ≠ pair.2 := by
  obtain ⟨bindings, recorded, hrecords, -, -, hofDatabase⟩ := compile_eq_some h
  obtain ⟨hdatabase, hgetter, hcode⟩ := ConstructorCode.code_emitPropertyGetter hofDatabase
  rw [← hdatabase] at hgetter hcode
  have hpairs (pair : Nat × Nat) (hpair : pair ∈ code.database.pairs) : pair.1 ≠ pair.2 := by
    rw [hdatabase] at hpair
    exact (Database.ne_and_lt_length_of_mem_pairs hrecords.recorded hpair).1
  exact ⟨_, by rfl, hgetter, hcode, hpairs⟩

/-- The methods of a document with code stand behind those emitted earlier. -/
theorem Document.emitted_compile {doc : Document} {config : Config} {resolver : Resolver}
    {out out' : Emission} {code : ConstructorCode}
    (h : doc.compile config resolver out = (.ok (some code), out')) :
    out'.emitted = out.emitted ++ code.methods resolver := by
  obtain ⟨recorded, hrecorded, -, hcode, hpairs⟩ := exists_recorded h
  have hstages := (code.context config resolver).contributes_emitted.code
    (code.database.emitPropertyGetter recorded).2 hpairs
  have hgetter : (code.database.emitPropertyGetter recorded).2.emitted = out.emitted ++
      if code.database.needsPropertyGetter then [Method.propertyGetter] else [] := by
    unfold Database.emitPropertyGetter
    split
    · rw [Emission.emitted_emit, hrecorded]
    · rw [hrecorded, List.append_nil]
  rw [hcode, hgetter] at hstages
  rw [hstages, ConstructorCode.methods, List.append_assoc, List.append_assoc, List.append_assoc]
  rfl

end Bindery
