import Bindery.Proofs.Binding.Visits
import Bindery.Proofs.Constructor.BindingArray
import Bindery.Proofs.Constructor.Methods
import Bindery.Proofs.Constructor.VerifiedMethods

/-!
# Constructor code passes verification

The counts in instructions of constructor code come from the numbers of bindings, events, dependents
and watchers, and the code goes back and forth over trees of watchers. Whatever these are, every
piece takes what earlier ones have left, and the stack is empty in the end.
-/

namespace Bindery

/-! ## Objects -/

section Objects

variable {locals : Finset Nat}

theorem verifies_pushNat (locals : Finset Nat) (n : Nat) :
    Verifies locals [.pushNat n] 0 1 locals := by
  unfold Instruction.pushNat
  split <;> exact .instruction locals rfl nofun nofun

namespace RuntimeObject

theorem verifies_functionOrNull (locals : Finset Nat) (handle? : Option MethodHandle) :
    Verifies locals [functionOrNull handle?] 0 1 locals := by
  cases handle? <;> exact .instruction locals rfl nofun nofun

theorem verifies_stringOrNull (locals : Finset Nat) (text? : Option String) :
    Verifies locals [stringOrNull text?] 0 1 locals := by
  cases text? <;> exact .instruction locals rfl nofun nofun

/-- As many arguments as the instruction takes leave one object. -/
theorem verifies_object {args : List Instruction} {count : Nat}
    (h : Verifies locals args 0 count locals) (qualified : String) :
    Verifies locals (object qualified count args) 0 1 locals := by
  have hclass : Verifies locals [.findPropStrict (.ofQualified qualified)] 0 1 locals :=
    .instruction locals rfl nofun nofun
  have hnew : Verifies locals [.constructProp (.ofQualified qualified) count] (count + 1) 1
      locals := .instruction locals rfl nofun nofun
  have hargs := hclass.append h
  rw [Nat.add_comm] at hargs
  exact hargs.trans hnew

theorem verifies_element {array : Nat} (harray : array ∈ locals) (slot : Nat) :
    Verifies locals (element array slot) 0 1 locals := by
  have hread : Verifies locals [.getProperty RuntimeName.arrayIndex] 2 1 locals :=
    .instruction locals rfl nofun nofun
  exact ((Verifies.getLocal harray).append (verifies_pushNat locals slot)).trans hread

theorem verifies_events (locals : Finset Nat) (names : List String) :
    Verifies locals (events names) 0 1 locals := by
  have hentry (event : String) : Verifies locals [.pushString event, .pushTrue] 0 2 locals :=
    (verifies_literal locals (.string event)).append (verifies_literal locals (.bool true))
  have hentries := Verifies.flatMap fun event (_ : event ∈ names) => hentry event
  rw [Nat.mul_comm] at hentries
  exact hentries.trans (.instruction locals rfl nofun nofun)

theorem verifies_listeners (h1 : 1 ∈ locals) (slots : List Nat) :
    Verifies locals (listeners slots) 0 1 locals := by
  have helements := Verifies.flatMap fun slot (_ : slot ∈ slots) => verifies_element h1 slot
  rw [Nat.mul_one] at helements
  exact helements.trans (.instruction locals rfl nofun nofun)

theorem verifies_binding (h0 : 0 ∈ locals) (config : Config) (resolver : Resolver)
    (binding : Binding) (out : Emission) :
    Verifies locals (RuntimeObject.binding config resolver binding out).1 0 1 locals :=
  verifies_object (((((Verifies.getLocal h0).append (verifies_functionOrNull locals _)).append
    (verifies_functionOrNull locals _)).append (verifies_stringOrNull locals _)).append
    (verifies_stringOrNull locals _)) config.bindingClass

theorem verifies_watcher (h0 : 0 ∈ locals) (h1 : 1 ∈ locals) (config : Config)
    (resolver : Resolver) (propertyGetter : Option MethodHandle) (isRoot : Bool)
    (watched : Watched) (slots : List Nat) (out : Emission) :
    Verifies locals (watcher config resolver propertyGetter isRoot watched slots out).1 0 1
      locals := by
  have hname := verifies_literal locals (.string watched.name)
  have hnull := verifies_literal locals .null
  have hfalse := verifies_literal locals (.bool false)
  have hevents := verifies_events locals watched.events
  have hlisteners := verifies_listeners h1 slots
  have hclosure := verifies_functionOrNull locals
  unfold watcher
  split
  · exact verifies_object (((hname.append hevents).append hlisteners).append (hclosure _)) _
  · exact verifies_object (((hname.append hevents).append hlisteners).append (hclosure _)) _
  · exact verifies_object (((((hname.append (.getLocal h0)).append (hclosure _)).append
      hevents).append hlisteners).append (hnull.append hfalse)) _
  · exact verifies_object (hname.append hlisteners) _

theorem verifies_execution (h1 : 1 ∈ locals) (count : Nat) :
    Verifies locals (execution count) 0 0 locals := by
  refine Verifies.flatMap (n := 0) fun slot _ => ?_
  exact (verifies_element h1 slot).trans (.instruction locals rfl nofun nofun)

end RuntimeObject

end Objects

/-! ## Stages -/

namespace ConstructorContext

section Stages

variable {locals : Finset Nat}

theorem verifies_keep (h0 : 0 ∈ locals) (name : String) :
    Verifies locals (keep (.inPublic name)) 1 0 locals := by
  have hswap : Verifies locals [.swap] 2 2 locals := .instruction locals rfl nofun nofun
  have hwrite : Verifies locals [.setProperty (.inPublic name)] 2 0 locals :=
    .instruction locals rfl nofun nofun
  exact (((Verifies.getLocal h0).frame 1).trans hswap).trans hwrite

variable (context : ConstructorContext)

theorem verifies_bindings (h0 : 0 ∈ locals) (bindings : List Binding) (out : Emission) :
    Verifies locals (context.bindings bindings out).1 0 bindings.length locals := by
  induction bindings generalizing out with
  | nil => exact .nil locals 0
  | cons binding bindings ih =>
    rw [ConstructorContext.bindings, List.length_cons, Nat.add_comm]
    exact (RuntimeObject.verifies_binding h0 _ _ binding out).append (ih _)

theorem verifies_linkTo (h0 : 0 ∈ locals) (a b : Nat) :
    Verifies locals (linkTo a b) 0 0 locals := by
  have hown (slot : Nat) : Verifies locals (ownBinding slot) 0 1 locals := by
    have hread : Verifies locals [.getProperty RuntimeName.bindings] 1 1 locals :=
      .instruction locals rfl nofun nofun
    have helement : Verifies locals [.getProperty RuntimeName.arrayIndex] 2 1 locals :=
      .instruction locals rfl nofun nofun
    exact (((Verifies.getLocal h0).trans hread).append (verifies_pushNat locals slot)).trans
      helement
  have hwrite : Verifies locals [.setProperty RuntimeName.twoWayCounterpart] 2 0 locals :=
    .instruction locals rfl nofun nofun
  exact ((hown a).append (hown b)).trans hwrite

theorem verifies_links (h0 : 0 ∈ locals) (pairs : List (Nat × Nat)) (out : Emission) :
    Verifies locals (context.links pairs out).1 0 0 locals := by
  fun_induction links context pairs out with
  | case1 => exact .nil locals 0
  | case2 _ _ _ _ ih => exact ih
  | case3 a b _ _ _ _ ih =>
    exact ((verifies_linkTo h0 a b).trans (verifies_linkTo h0 b a)).trans ih

theorem verifies_emptyWatchers (h0 : 0 ∈ locals) (count : Nat) :
    Verifies locals (emptyWatchers count) 0 0 locals := by
  have hnulls : Verifies locals (List.replicate count .pushNull) 0 count locals := by
    induction count with
    | zero => exact .nil locals 0
    | succ count ih =>
      rw [List.replicate_succ, Nat.add_comm]
      exact (verifies_literal locals .null).append ih
  have harray : Verifies locals [.newArray count] count 1 locals :=
    .instruction locals rfl nofun nofun
  exact (hnulls.trans harray).trans (verifies_keep h0 "_watchers")

theorem verifies_loadArrays (h0 : 0 ∈ locals) :
    Verifies locals loadArrays 0 0 (insert 2 (insert 1 locals)) := by
  intro height
  simp [loadArrays, RuntimeName.bindings, RuntimeName.watchers, Shape.step?, Instruction.isReturn,
    Instruction.takes, Instruction.leaves, Name.operands, h0]

/-- The first stage leaves the stack as it is and loads the two arrays. -/
theorem verifies_allocation (h0 : 0 ∈ locals) (out : Emission) :
    Verifies locals (context.allocation out).1 0 0 (insert 2 (insert 1 locals)) := by
  have harray : Verifies locals [.newArray context.database.bindings.length]
      context.database.bindings.length 1 locals := .instruction locals rfl nofun nofun
  have hbindings := (context.verifies_bindings h0 context.database.bindings out).trans harray
  exact (((hbindings.trans (verifies_keep h0 "_bindings")).trans
    (context.verifies_links h0 _ _)).trans (verifies_emptyWatchers h0 _)).trans
    (verifies_loadArrays h0)

mutual

theorem verifies_construction (h0 : 0 ∈ locals) (h1 : 1 ∈ locals) (h2 : 2 ∈ locals)
    (isRoot : Bool) (out : Emission) : (chain : WatchChain) →
      Verifies locals (context.construction isRoot chain out).1 0 0 locals
  | .link slot watched slots children => by
    have hstore : Verifies locals [.setProperty RuntimeName.arrayIndex] 3 0 locals :=
      .instruction locals rfl nofun nofun
    rw [construction]
    exact ((((Verifies.getLocal h2).append (verifies_pushNat locals slot)).append
      (RuntimeObject.verifies_watcher h0 h1 _ _ _ isRoot watched slots out)).trans hstore).trans
      (verifies_constructionAll h0 h1 h2 false _ children)

/-- Every watcher that is constructed is stored at once. -/
theorem verifies_constructionAll (h0 : 0 ∈ locals) (h1 : 1 ∈ locals) (h2 : 2 ∈ locals)
    (isRoot : Bool) (out : Emission) : (chains : List WatchChain) →
      Verifies locals (context.constructionAll isRoot chains out).1 0 0 locals
  | [] => by
    rw [constructionAll]
    exact .nil locals 0
  | chain :: chains => by
    rw [constructionAll]
    exact (verifies_construction h0 h1 h2 isRoot out chain).trans
      (verifies_constructionAll h0 h1 h2 isRoot _ chains)

end

end Stages

/-- With both arrays loaded, code leaves the stack as it is. The only other local variables that it
sets are those of the two watchers that are being joined. -/
def Level (code : List Instruction) : Prop :=
  ∀ locals, {0, 1, 2} ⊆ locals → locals ⊆ Finset.range 5 →
    ∃ locals', locals ⊆ locals' ∧ locals' ⊆ Finset.range 5 ∧ Verifies locals code 0 0 locals'

theorem level_nil : Level [] :=
  fun locals _ hrange => ⟨locals, Finset.Subset.refl locals, hrange, .nil locals 0⟩

theorem Level.append {first second : List Instruction} (h : Level first) (h' : Level second) :
    Level (first ++ second) := by
  intro locals hloaded hrange
  obtain ⟨locals', hsub, hrange', hfirst⟩ := h locals hloaded hrange
  obtain ⟨locals'', hsub', hrange'', hsecond⟩ := h' locals' (hloaded.trans hsub) hrange'
  exact ⟨locals'', hsub.trans hsub', hrange'', hfirst.trans hsecond⟩

theorem Level.flatMap {α : Type} {code : α → List Instruction} {l : List α}
    (h : ∀ x ∈ l, Level (code x)) : Level (l.flatMap code) := by
  induction l with
  | nil => exact level_nil
  | cons x l ih =>
    rw [List.flatMap_cons]
    exact (h x List.mem_cons_self).append (ih fun y hy => h y (List.mem_cons_of_mem x hy))

theorem level_of_verifies {code : List Instruction} (h : ∀ {locals : Finset Nat}, 0 ∈ locals →
    1 ∈ locals → 2 ∈ locals → Verifies locals code 0 0 locals) : Level code :=
  fun locals hloaded hrange => ⟨locals, Finset.Subset.refl locals, hrange,
    h (hloaded (by simp)) (hloaded (by simp)) (hloaded (by simp))⟩

theorem verifies_join {locals : Finset Nat} (h2 : 2 ∈ locals) (parent child : Nat)
    (childForm : WatchForm) :
    Verifies locals (join parent child childForm) 0 0 (insert 4 (insert 3 locals)) := by
  have hchild2 : 2 ∈ insert 3 locals := Finset.mem_insert_of_mem h2
  have h4 : 4 ∈ insert 4 (insert 3 locals) := Finset.mem_insert_self 4 _
  have h3 : 3 ∈ insert 4 (insert 3 locals) := Finset.mem_insert_of_mem (Finset.mem_insert_self 3 _)
  have hparent := (RuntimeObject.verifies_element h2 parent).trans (.setLocal locals 3)
  have hchild := (RuntimeObject.verifies_element hchild2 child).trans (.setLocal _ 4)
  have hlearn : Verifies (insert 4 (insert 3 locals)) (if childForm = .function then
      [.getLocal 4, .getLocal 3, .setProperty RuntimeName.parentWatcher] else []) 0 0
      (insert 4 (insert 3 locals)) := by
    split
    · have hwrite : Verifies (insert 4 (insert 3 locals))
          [.setProperty RuntimeName.parentWatcher] 2 0 (insert 4 (insert 3 locals)) :=
        .instruction _ rfl nofun nofun
      exact ((Verifies.getLocal h4).append (.getLocal h3)).trans hwrite
    · exact .nil _ 0
  have hadd : Verifies (insert 4 (insert 3 locals)) [.callPropVoid RuntimeName.addChild 1] 2 0
      (insert 4 (insert 3 locals)) := .instruction _ rfl nofun nofun
  have hboth := ((hparent.trans hchild).trans hlearn).trans
    (((Verifies.getLocal h3).append (.getLocal h4)).trans hadd)
  simpa only [join, ownWatcher, List.append_assoc, List.cons_append, List.nil_append] using hboth

theorem level_join (parent child : Nat) (childForm : WatchForm) :
    Level (join parent child childForm) := by
  intro locals hloaded hrange
  refine ⟨insert 4 (insert 3 locals), ?_, ?_,
    verifies_join (hloaded (by simp)) parent child childForm⟩
  · exact (Finset.subset_insert 3 locals).trans (Finset.subset_insert 4 _)
  · simp [Finset.insert_subset_iff, hrange]

mutual

theorem level_wiring : (chain : WatchChain) → Level (wiring chain)
  | .link slot _ _ children => by
    rw [wiring]
    exact level_wiringAll slot children

/-- Joining watchers leaves nothing on the stack. -/
theorem level_wiringAll (parent : Nat) : (chains : List WatchChain) →
    Level (wiringAll parent chains)
  | [] => by
    rw [wiringAll]
    exact level_nil
  | chain :: chains => by
    rw [wiringAll]
    exact ((level_join parent chain.slot chain.watched.kind.form).append
      (level_wiring chain)).append (level_wiringAll parent chains)

end

theorem level_rootWiring (chain : WatchChain) : Level (rootWiring chain) := by
  refine (level_of_verifies fun {locals} h0 _ h2 => ?_).append (level_wiring chain)
  have hroot : Verifies locals [rootObject chain.watched] 0 1 locals := by
    unfold rootObject
    split
    · exact .instruction locals rfl nofun nofun
    · exact .getLocal h0
  have hupdate : Verifies locals [.callPropVoid RuntimeName.updateParent 1] 2 0 locals :=
    .instruction locals rfl nofun nofun
  exact ((RuntimeObject.verifies_element h2 chain.slot).append hroot).trans hupdate

/-- The code of all four stages starts and ends with an empty stack. -/
theorem verifies_code (context : ConstructorContext) (out : Emission) :
    ∃ locals, locals ⊆ Finset.range 5 ∧ Verifies {0} (context.code out).1 0 0 locals := by
  have hallocation := context.verifies_allocation (Finset.mem_singleton_self 0) out
  have hconstruction : Level (context.constructionAll true context.database.constructed
      (context.allocation out).2).1 :=
    level_of_verifies fun h0 h1 h2 => context.verifies_constructionAll h0 h1 h2 true _ _
  have hexecution : Level (RuntimeObject.execution context.database.bindings.length) :=
    level_of_verifies fun _ h1 _ => RuntimeObject.verifies_execution h1 _
  have hwiring : Level (context.database.constructed.flatMap rootWiring) :=
    .flatMap fun chain _ => level_rootWiring chain
  have hlevel := (hconstruction.append hwiring).append hexecution
  obtain ⟨locals, -, hrange, hlater⟩ := hlevel (insert 2 (insert 1 {0})) (by decide) (by decide)
  refine ⟨locals, hrange, ?_⟩
  simpa only [code, List.append_assoc] using hallocation.trans hlater

end ConstructorContext

/-! ## Documents -/

/-- All code that is generated for a document passes verification. -/
structure ConstructorCode.Verified (code : ConstructorCode) (resolver : Resolver)
    (out out' : Emission) : Prop where
  /-- Every instruction finds its operands, and the stack is empty again in the end. -/
  passes : ∃ locals, Shape.after? ⟨0, {0}⟩ code.instructions = some ⟨0, locals⟩
  /-- Besides the document, four local variables are read, each of them behind where it is set. -/
  reads : ∀ before slot rest, code.instructions = before ++ .getLocal slot :: rest →
    slot = 0 ∨ slot ∈ [1, 2, 3, 4] ∧ .setLocal slot ∈ before
  /-- No methods are emitted but those below. -/
  emitted_eq : out'.emitted = out.emitted ++ code.methods resolver
  getter : ∀ binding ∈ code.database.bindings, ∀ method,
    binding.getterClosure? resolver = some (.ok method) → method.Verified .returnValue 1
  setter : ∀ binding ∈ code.database.bindings, ∀ method,
    binding.setterClosure? = some (.ok method) → method.Verified .returnVoid 0
  parameters : ∀ watcher ∈ code.database.builtWatchers, ∀ args method,
    watcher.watched.kind = .function args →
      Closure.parameters resolver watcher.watched.name args = .ok method →
        method.Verified .returnValue 1
  propertyGetter : Method.propertyGetter.Verified .returnValue 1

/-- A getter is only generated from complete code. -/
theorem Binding.verified_getter {resolver : Resolver} {binding : Binding} {method : Method}
    (h : binding.getterClosure? resolver = some (.ok method)) : method.Verified .returnValue 1 := by
  obtain ⟨source, -, -, hclosure⟩ := getterClosure?_eq_some h
  exact Closure.verified_getter hclosure

/-- A setter stores at the last segment of its destination. -/
theorem Binding.verified_setter {resolver : Resolver} {bindings : List Binding}
    (hplaced : AllPlaced resolver bindings) {binding : Binding} (hmem : binding ∈ bindings)
    {method : Method} (h : binding.setterClosure? = some (.ok method)) :
    method.Verified .returnVoid 0 := by
  obtain ⟨destination, hdestination, hclosure⟩ := Option.map_eq_some_iff.mp h
  rw [← Except.ok.inj hclosure]
  have hne := (hplaced binding hmem destination hdestination).segments_ne_nil
  exact Destination.verified_setter hne _

/-- **Generated code passes verification.** The constructor code of a document finds its operands at
every instruction, starts and ends with an empty stack, and reads the local variables behind the
document only where they have been set. All methods that are emitted use the document and their
parameters only, and their single return finds the one value that getters return, and nothing in a
setter. -/
theorem Document.verified_compile {doc : Document} {config : Config} {resolver : Resolver}
    {out out' : Emission} {code : ConstructorCode}
    (h : doc.compile config resolver out = (.ok (some code), out')) :
    code.Verified resolver out out' := by
  obtain ⟨recorded, -, -, hcode, -⟩ := exists_recorded h
  obtain ⟨start, hcompiled⟩ := exists_compiled h
  have hrecords : doc.RecordsAfter config resolver doc.walk code.database.bindings :=
    hcompiled.records
  obtain ⟨locals, hrange, hverifies⟩ := (code.context config resolver).verifies_code
    (code.database.emitPropertyGetter recorded).2
  rw [hcode] at hverifies
  have hpasses : Shape.after? ⟨0, {0}⟩ code.instructions = some ⟨0, locals⟩ := hverifies 0
  refine {
    passes := ⟨locals, hpasses⟩
    reads := fun before slot rest heq => ?_
    emitted_eq := emitted_compile h
    getter := fun binding _ method => Binding.verified_getter
    setter := fun binding hmem method => Binding.verified_setter hrecords.allPlaced hmem
    parameters := fun watcher _ args method _ => Closure.verified_parameters
    propertyGetter := verified_propertyGetter }
  rw [heq] at hpasses
  rcases Shape.mem_locals_or_mem_of_getLocal hpasses with hslot | hset
  · exact .inl (Finset.mem_singleton.mp hslot)
  · have hslot : slot ∈ locals :=
      (Shape.mem_locals_after? hpasses).mpr (.inr (List.mem_append_left _ hset))
    have hlt : slot < 5 := Finset.mem_range.mp (hrange hslot)
    by_cases hzero : slot = 0
    · exact .inl hzero
    · refine .inr ⟨?_, hset⟩
      simp only [List.mem_cons, List.not_mem_nil, or_false]
      omega

/-- Two bindings that are the reverse of each other have two getters and two setters, and the root
of a chain reads a property of the document. -/
theorem Document.verified_compile_linked :
    ∃ code out', linkedDocument.compile {} linkedResolver {} = (.ok (some code), out') ∧
      (code.methods linkedResolver).map Method.name =
        ["_bindingsPropertyGetter", "_bindingGetter0", "_bindingSetter0", "_bindingGetter1",
          "_bindingSetter1"] ∧
      code.Verified linkedResolver {} out' := by
  obtain ⟨code, out', hcompile, hmethods⟩ :
      ∃ code out', linkedDocument.compile {} linkedResolver {} = (.ok (some code), out') ∧
        (code.methods linkedResolver).map Method.name =
          ["_bindingsPropertyGetter", "_bindingGetter0", "_bindingSetter0", "_bindingGetter1",
            "_bindingSetter1"] :=
    Document.exists_code (by decide +kernel)
  exact ⟨code, out', hcompile, hmethods, Document.verified_compile hcompile⟩

end Bindery
