import Bindery.Proofs.Binding.Sessions
import Bindery.Proofs.Constructor.Undeclared
import Bindery.Proofs.Machine.Heap
import Bindery.Proofs.Symbol.Inheritance

/-!
# Sources that are read by their names

A source that is a public property of the document gets no closure: the runtime is given its text
and reads the property of that name. This is what the closure would do, and all that it would do,
however the property is spelled and whatever else its name stands for outside the document.
-/

namespace Bindery

/-- What the runtime does for a binding without a closure: it reads the property that the text of
the source names. -/
def Machine.readByText {m : Type → Type} {V : Type} (machine : Machine m V) (document : V)
    (text : String) : m V :=
  machine.read document (.inPublic text)

/-- The closure that reads a property of the document for the binding in a slot. -/
def Method.reader (slot : Nat) (name : String) : Method where
  name := "_bindingGetter" ++ toString slot
  paramCount := 0
  code := Method.entry ++ [.getLocal 0, .getProperty (.inPublic name)] ++ [.returnValue]

/-- A property of the document that bindings read by its name. -/
structure SymbolTable.ReadsByName (table : SymbolTable) (name : String) : Prop where
  /-- The class of the document declares it or inherits it, as a public variable or accessor of its
  instances. -/
  declared : ∃ definition owner, table.resolver.documentMember? name = some definition ∧
    table.Nearest table.documentClass name owner definition ∧
    definition.name = name ∧ definition.owner = some owner ∧
    (definition.kind = .variable ∨ definition.kind = .accessor) ∧
    definition.isPublic = true ∧ definition.isStatic = false
  /-- With or without `this.`, its name is its text, and there is a closure that reads it. -/
  spelled : ∀ source : Expr, source.ownName? = some name → source.text = name ∧
    source.isSimpleProperty table.resolver = true ∧
    ∀ slot, Closure.getter table.resolver slot source = .ok (.reader slot name)
  /-- Once names are looked up in the document, the closure leaves what the runtime reads by the
  text, and does nothing else. -/
  agrees : ∀ {m : Type → Type} [Monad m] [LawfulMonad m] {V : Type} (machine : Machine m V)
    (document : V) (frame : Frame V) (slot : Nat), frame.locals 0 = some document →
    machine.run (Method.reader slot name).body frame = do
      machine.enterScope document
      let value ← machine.readByText document name
      pure (frame.push value)

/-- The source of a binding is read by its name. -/
structure Binding.ReadByName (table : SymbolTable) (binding : Binding) (name : String) :
    Prop where
  reads : table.ReadsByName name
  sourceText_eq : binding.sourceText = some name
  /-- A closure for the source can always be emitted. -/
  emits : ∀ out : Emission, ∃ handle out', out.emitGetter table.resolver binding =
    (some handle, out') ∧ out'.methods.get? handle = some (.reader binding.slot name) ∧
      out'.problems = out.problems
  /-- In its place, constructed code passes null, and the name as the text of the source. -/
  constructed : ∀ (config : Config) (out : Emission),
    RuntimeObject.binding config table.resolver binding out =
      (RuntimeObject.object config.bindingClass 5
        [.getLocal 0, .pushNull, RuntimeObject.functionOrNull (out.emitSetter binding).1,
          RuntimeObject.stringOrNull binding.destinationText, .pushString name],
        (out.emitSetter binding).2)

/-! ## Which bindings are read by their names -/

namespace Binding

variable {resolver : Resolver} {bindings later : List Binding}

/-- Whether a binding is read by its name is decided by its source. -/
def AllFlagged (resolver : Resolver) (bindings : List Binding) : Prop :=
  ∀ binding ∈ bindings, binding.isSimple = binding.source.any (·.isSimpleProperty resolver)

theorem AllFlagged.record (h : AllFlagged resolver bindings) (source : Option Expr)
    (destination : Option Destination) (span : Span) :
    AllFlagged resolver (record resolver source destination span bindings) := by
  intro binding hmem
  rcases List.mem_append.mp hmem with hmem | hmem
  · exact h binding hmem
  · rw [List.mem_singleton.mp hmem]

theorem Adds.allFlagged (h : Adds resolver bindings later)
    (hflagged : AllFlagged resolver bindings) : AllFlagged resolver later := by
  cases h with
  | nothing => exact hflagged
  | one source span _ => exact hflagged.record source _ span
  | both span _ _ => exact (hflagged.record _ _ span).record _ _ span

end Binding

/-- A look adds what a visit may add. -/
theorem Look.adds_recording (look : Look) (bindings : List Binding) :
    Binding.Adds look.resolver bindings (look.recording bindings).bindings := by
  obtain ⟨handler, resolver, doc, node⟩ := look
  cases handler with
  | data => exact Binding.adds_recordData doc node
  | tag => exact Binding.adds_recordTag doc node

theorem Look.allFlagged_recorded {resolver : Resolver} {looks : List Look}
    (h : ∀ look ∈ looks, look.resolver = resolver) :
    Binding.AllFlagged resolver (recorded looks) := by
  refine List.foldlRecOn looks _ (by simp [Binding.AllFlagged])
    fun bindings hflagged look hlook => ?_
  have hadds := look.adds_recording bindings
  rw [h look hlook] at hadds
  exact hadds.allFlagged hflagged

/-! ## What their closures do -/

namespace Expr

variable {resolver : Resolver} {source : Expr} {name : String} {definition : Definition}

/-- A source is read by its name if that names a public property of the document. -/
theorem isSimpleProperty_iff : source.isSimpleProperty resolver ↔
    ∃ name definition, source.ownName? = some name ∧
      resolver.documentMember? name = some definition ∧
      (definition.kind = .variable ∨ definition.kind = .accessor) ∧
      definition.isPublic = true ∧ definition.isStatic = false := by
  unfold isSimpleProperty
  cases hname : source.ownName? with
  | none => simp
  | some name =>
    cases hmember : resolver.documentMember? name with
    | none => simp [hmember]
    | some definition => simp [hmember, Definition.isProperty, and_assoc]

/-- The text of a name of the document is the name. -/
theorem text_of_ownName? (h : source.ownName? = some name) : source.text = name := by
  rcases ownName?_eq_some_iff.mp h with ⟨span, rfl⟩ | ⟨start, span, rfl⟩ <;> rw [text]

/-- An instance member of the document is read from the document, before its name is looked for
anywhere else. -/
theorem lower_of_ownName? (h : source.ownName? = some name)
    (hmember : resolver.documentMember? name = some definition)
    (hstatic : definition.isStatic = false) :
    source.lower resolver = .done [.getLocal 0, .getProperty (.inPublic name)] := by
  have hlower : resolver.lowerName name = .done [.getLocal 0, .getProperty (.inPublic name)] := by
    simp [Resolver.lowerName, hmember, Resolver.memberHolder, hstatic]
  rcases ownName?_eq_some_iff.mp h with ⟨span, rfl⟩ | ⟨start, span, rfl⟩ <;> rwa [lower]

end Expr

/-- The closure of a property enters the document and reads the property from it. -/
theorem Machine.run_reader {m : Type → Type} [Monad m] [LawfulMonad m] {V : Type}
    (machine : Machine m V) {document : V} {frame : Frame V}
    (hdocument : frame.locals 0 = some document) (slot : Nat) (name : String) :
    machine.run (Method.reader slot name).body frame = (do
      machine.enterScope document
      let value ← machine.readByText document name
      pure (frame.push value)) := by
  have hbody : (Method.reader slot name).body =
      Method.entry ++ [.getLocal 0, .getProperty (.inPublic name)] := by
    rw [Method.body, Method.reader, List.dropLast_concat]
  have hentry : machine.run Method.entry frame =
      machine.enterScope document >>= fun _ => pure frame := by
    simp [Method.entry, run_cons, step, hdocument, Frame.push]
  have hread : machine.run [.getLocal 0, .getProperty (.inPublic name)] frame =
      machine.readByText document name >>= fun value => pure (frame.push value) := by
    simp [run_cons, step, hdocument, Frame.push, readByText]
  rw [hbody, run_append, hentry, bind_assoc]
  simp only [pure_bind, hread]

/-- A public property of the document can be read by its name. -/
theorem SymbolTable.readsByName {documentClass : String} {declarations : List Declaration}
    {name : String} {definition : Definition}
    (hmember : (ofDeclarations documentClass declarations).resolver.documentMember? name =
      some definition)
    (hkind : definition.kind = .variable ∨ definition.kind = .accessor)
    (hpublic : definition.isPublic = true) (hstatic : definition.isStatic = false) :
    (ofDeclarations documentClass declarations).ReadsByName name := by
  obtain ⟨steps, -, owner, hnearest⟩ := findMember?_eq_some_iff.mp hmember
  obtain ⟨entry, hentry, hown⟩ := Option.bind_eq_some_iff.mp hnearest.ownMember?_eq
  obtain ⟨hname, howner⟩ :=
    allFiled_ofDeclarations documentClass declarations owner entry hentry name definition hown
  exact {
    declared := ⟨definition, owner, hmember, ⟨steps, hnearest⟩, hname, howner, hkind, hpublic,
      hstatic⟩
    spelled := fun source hsource => by
      refine ⟨Expr.text_of_ownName? hsource, Expr.isSimpleProperty_iff.mpr ⟨name, definition,
        hsource, hmember, hkind, hpublic, hstatic⟩, fun slot => ?_⟩
      rw [Closure.getter, Expr.lower_of_ownName? hsource hmember hstatic]
      rfl
    agrees := fun machine document frame slot hdocument =>
      machine.run_reader hdocument slot name }

/-- **Sources without closures are read as closures would read them.** Whatever a symbol table
declares and whatever is looked at: if a recorded binding is marked as simple then the text of its
source names a public instance variable or accessor, which the class of the document declares or
inherits. A closure for the source can always be emitted, and it reads the property of this name
from the document and does nothing else. Constructed code passes null instead of the closure, and
the text by which the runtime reads the same property. With `this.` in front of the name, all this
is the same. -/
theorem Look.readByName_of_isSimple {documentClass : String}
    {declarations : List SymbolTable.Declaration} {looks : List Look}
    (hlooks : ∀ look ∈ looks,
      look.resolver = (SymbolTable.ofDeclarations documentClass declarations).resolver)
    {binding : Binding} (hmem : binding ∈ recorded looks) (hsimple : binding.isSimple = true) :
    ∃ name, binding.ReadByName (.ofDeclarations documentClass declarations) name := by
  set table := SymbolTable.ofDeclarations documentClass declarations
  have hany := hsimple
  rw [allFlagged_recorded hlooks binding hmem, Option.any_eq_true] at hany
  obtain ⟨source, hsource, hproperty⟩ := hany
  obtain ⟨name, definition, hname, hmember, hkind, hpublic, hstatic⟩ :=
    Expr.isSimpleProperty_iff.mp hproperty
  have hreads : table.ReadsByName name :=
    SymbolTable.readsByName hmember hkind hpublic hstatic
  obtain ⟨htext, -, hgetter⟩ := hreads.spelled source hname
  have hsourceText : binding.sourceText = some name := by
    rw [Binding.sourceText, hsource, Option.map_some, htext]
  refine ⟨name, hreads, hsourceText, fun out => ?_, fun config out => ?_⟩
  · rw [Emission.emitGetter, hsource]
    simp only [hgetter, Emission.emitClosure]
    refine ⟨_, _, rfl, ?_, rfl⟩
    rw [Emission.emit, MethodTable.get?_emit, if_pos rfl]
  · rw [RuntimeObject.binding, if_pos hsimple, hsourceText]
    rfl

/-- A document that inherits a title from a panel, next to which another title is visible, and has a
secret of its own. -/
def titleTable : SymbolTable :=
  .ofDeclarations "Main"
    [.ownMember { name := "secret", kind := .variable, type := some "String", isPublic := false },
      .member "Panel" { name := "title", kind := .accessor, type := some "String" },
      .classType "Main" (some "Panel"),
      .global { name := "title", kind := .function, type := some "String" }]

/-- Looks at bindings of `{title}`, `{this.title}` and `{secret}`. -/
def titleLooks : List Look :=
  ["title", "this.title", "secret"].map fun dotted =>
    { handler := .tag
      resolver := titleTable.resolver
      doc := (Document.ofClass "Main").add 0 (.binding (some (.path dotted)) none false) .unknown
      node := 1 }

/-- The inherited title is read by its name, however it is spelled. -/
theorem Look.readByName_of_isSimple_title :
    (recorded titleLooks).map Binding.isSimple = [true, true, false] ∧
      ∀ binding ∈ (recorded titleLooks).take 2, binding.ReadByName titleTable "title" := by
  have htexts : ∀ binding ∈ (recorded titleLooks).take 2,
      binding.isSimple = true ∧ binding.sourceText = some "title" := by decide +kernel
  refine ⟨by decide +kernel, fun binding hmem => ?_⟩
  obtain ⟨hsimple, htext⟩ := htexts binding hmem
  have hlooks : ∀ look ∈ titleLooks, look.resolver = titleTable.resolver := by simp [titleLooks]
  obtain ⟨name, hread⟩ := readByName_of_isSimple hlooks (List.mem_of_mem_take hmem) hsimple
  obtain rfl := Option.some.inj (htext.symm.trans hread.sourceText_eq)
  exact hread

end Bindery
