import Bindery.Proofs.Constructor.Objects
import Bindery.Proofs.Watch.Observation

/-!
# Code that constructs objects

The code of a binding and that of a watcher leave the object that stands for it. They do nothing
else to the memory than allocate.
-/

namespace Bindery

variable {numberSlot? : Float → Option Nat} {locals : Nat → Option Datum}

/-- The element in a slot of an array. -/
theorem Datum.getElem?_eq_getD {items : List Datum} {slot : Nat} (h : slot < items.length) :
    items[slot]? = some (items.getD slot .null) := by
  rw [List.getD_eq_getElem?_getD, List.getElem?_eq_getElem h]
  rfl

/-- Code that leaves values piece by piece and does nothing to the memory. -/
theorem Yields.flatMap {α : Type} {code : α → List Instruction} {values : α → List Datum}
    {memory : Memory} {l : List α}
    (h : ∀ x ∈ l, Yields numberSlot? locals memory (code x) (values x) memory) :
    Yields numberSlot? locals memory (l.flatMap code) (l.flatMap values) memory := by
  induction l with
  | nil => exact .nil memory
  | cons x l ih =>
    rw [List.flatMap_cons, List.flatMap_cons]
    exact (h x List.mem_cons_self).append (ih fun y hy => h y (List.mem_cons_of_mem x hy))

namespace RuntimeObject

/-! ## Pieces -/

theorem yields_functionOrNull (handle? : Option MethodHandle) (memory : Memory) :
    Yields numberSlot? locals memory [functionOrNull handle?] [.ofHandle? handle?] memory := by
  cases handle? with
  | none => exact .constant .null memory
  | some handle => exact .newFunction handle memory

theorem yields_stringOrNull (text? : Option String) (memory : Memory) :
    Yields numberSlot? locals memory [stringOrNull text?] [.ofText? text?] memory := by
  cases text? with
  | none => exact .constant .null memory
  | some text => exact .constant (.string text) memory

/-- The code of the arguments becomes the code of an object. -/
theorem yields_object {qualified : String} {count : Nat} {args : List Instruction}
    {values : List Datum} {memory memory' : Memory}
    (h : Yields numberSlot? locals memory args values memory') (hcount : values.length = count) :
    Yields numberSlot? locals memory (object qualified count args) [.object memory'.cells.length]
      (memory'.add (.record (.ofQualified qualified) values)) :=
  ((Yields.findPropStrict (.ofQualified qualified) memory).append h).constructProp hcount

/-- An element of an array in a local variable. -/
theorem yields_element {array slot address : Nat} (hlocal : locals array = some (.object address))
    {memory : Memory} {items : List Datum} (hitems : memory.array? address = some items)
    (hreads : ReadsSlots numberSlot? items.length) (hslot : slot < items.length) :
    Yields numberSlot? locals memory (element array slot) [items.getD slot .null] memory := by
  have harray : Yields numberSlot? locals memory [.getLocal array] [.object address] memory :=
    .getLocal hlocal memory
  have hindex := harray.append (.pushNat slot memory)
  exact hindex.readAt (hreads.slot?_ofSlot hslot) hitems (Datum.getElem?_eq_getD hslot)

/-- The entries of an object, as they lie on the stack. -/
theorem inPairs_flatMap (events : List String) :
    Frame.inPairs (events.flatMap fun event => [Datum.string event, .bool true]) =
      events.map fun event => (.string event, .bool true) := by
  induction events with
  | nil => rfl
  | cons event events ih => rw [List.flatMap_cons, List.map_cons, ← ih]; rfl

theorem yields_events (names : List String) (memory : Memory) :
    Yields numberSlot? locals memory (events names) [.object memory.cells.length]
      (memory.add (.plain (names.map fun event => (.string event, .bool true)))) := by
  have hentries : Yields numberSlot? locals memory
      (names.flatMap fun event => [.pushString event, .pushTrue])
      (names.flatMap fun event => [.string event, .bool true]) memory :=
    .flatMap fun event _ =>
      (Yields.constant (.string event) memory).append (.constant (.bool true) memory)
  have hlength : (names.flatMap fun event => [Datum.string event, .bool true]).length =
      2 * names.length := by
    simp [List.length_flatMap, List.map_const', Nat.mul_comm]
  rw [← inPairs_flatMap]
  exact hentries.newObject hlength

end RuntimeObject

/-! ## Objects -/

/-- What the code of objects relies on: local 0 is the document, and local 1 the array of the
bindings. -/
structure BindingsLoaded (numberSlot? : Float → Option Nat) (locals : Nat → Option Datum)
    (array : Nat) (bindings : List Datum) : Prop where
  local_document : locals 0 = some .document
  local_bindings : locals 1 = some (.object array)
  reads : ReadsSlots numberSlot? bindings.length

namespace RuntimeObject

variable {array : Nat} {bindings : List Datum}

theorem yields_listeners (hloaded : BindingsLoaded numberSlot? locals array bindings)
    {memory : Memory} (hbindings : memory.array? array = some bindings) {slots : List Nat}
    (hslots : ∀ slot ∈ slots, slot < bindings.length) :
    Yields numberSlot? locals memory (listeners slots) [.object memory.cells.length]
      (memory.add (.array (Datum.selected bindings slots))) := by
  have helements : Yields numberSlot? locals memory (slots.flatMap (element 1))
      (slots.flatMap fun slot => [bindings.getD slot .null]) memory :=
    .flatMap fun slot hslot =>
      yields_element hloaded.local_bindings hbindings hloaded.reads (hslots slot hslot)
  rw [← List.map_eq_flatMap] at helements
  exact helements.newArray (by simp)

variable (numberSlot?) in
/-- The code of a binding constructs the object that stands for it, and nothing else. -/
theorem yields_binding (config : Config) (resolver : Resolver) (binding : Binding)
    (hdocument : locals 0 = some .document) (out : Emission) (memory : Memory) :
    ∃ getter setter,
      Datum.IsClosure (RuntimeObject.binding config resolver binding out).2.Names getter
        (binding.getterClosure? resolver) ∧
      Datum.IsClosure (RuntimeObject.binding config resolver binding out).2.Names setter
        binding.setterClosure? ∧
      out.Follows (RuntimeObject.binding config resolver binding out).2 ∧
      Yields numberSlot? locals memory (RuntimeObject.binding config resolver binding out).1
        [.object memory.cells.length]
        (memory.add (.record (.ofQualified config.bindingClass)
          [.document, getter, setter, .ofText? binding.destinationText,
            .ofText? binding.sourceText])) := by
  let read := if binding.isSimple then (none, out) else out.emitGetter resolver binding
  have hread : out.Follows read.2 ∧ Datum.IsClosure read.2.Names (.ofHandle? read.1)
      (binding.getterClosure? resolver) := by
    unfold read Binding.getterClosure?
    split
    · exact ⟨.refl out, rfl⟩
    · exact ⟨Emission.follows_emitGetter resolver binding out,
        Datum.isClosure_emitGetter resolver binding out⟩
  have hwrite := Emission.follows_emitSetter binding read.2
  refine ⟨.ofHandle? read.1, .ofHandle? (read.2.emitSetter binding).1, hread.2.mono hwrite.names,
    Datum.isClosure_emitSetter binding read.2, hread.1.trans hwrite, ?_⟩
  have hself : Yields numberSlot? locals memory [.getLocal 0] [.document] memory :=
    .getLocal hdocument memory
  have hargs := (((hself.append
    (yields_functionOrNull read.1 memory)).append
    (yields_functionOrNull (read.2.emitSetter binding).1 memory)).append
    (yields_stringOrNull binding.destinationText memory)).append
    (yields_stringOrNull binding.sourceText memory)
  exact yields_object hargs rfl

/-- Code that goes on with the objects for the events and the dependents of a watcher. -/
theorem yields_events_listeners (hloaded : BindingsLoaded numberSlot? locals array bindings)
    {memory : Memory} (hbindings : memory.array? array = some bindings) {slots : List Nat}
    (hslots : ∀ slot ∈ slots, slot < bindings.length) (names : List String)
    {code : List Instruction} {values : List Datum}
    (h : Yields numberSlot? locals memory code values memory) :
    ∃ eventSet listening memory',
      Yields numberSlot? locals memory (code ++ events names ++ listeners slots)
        (values ++ [eventSet, listening]) memory' ∧ memory.Grows memory' ∧
      eventSet.IsEventSet (memory'.HoldsSince memory.cells.length) names ∧
      listening.IsListeners (memory'.HoldsSince memory.cells.length) bindings slots := by
  let withEvents := memory.add (.plain (names.map fun event => (.string event, .bool true)))
  have hgrows : memory.Grows withEvents := Memory.grows_add memory _
  have hgrows' : withEvents.Grows (withEvents.add (.array (Datum.selected bindings slots))) :=
    Memory.grows_add withEvents _
  have hevents := h.append (yields_events names memory)
  have hlisteners := yields_listeners hloaded (hgrows.array? hbindings) hslots
  have hboth := hevents.append hlisteners
  rw [List.append_assoc values] at hboth
  exact ⟨_, _, _, hboth, hgrows.trans hgrows', ⟨_, rfl, hgrows'.holdsSince_add (Nat.le_refl _)⟩,
    ⟨_, rfl, (Memory.Grows.refl _).holdsSince_add hgrows.length_le⟩⟩

/-- The last allocation is the object itself, behind those for its arguments. -/
theorem yields_record {qualified : String} {count : Nat} {args : List Instruction}
    {values : List Datum} {memory memory' : Memory}
    (h : Yields numberSlot? locals memory args values memory') (hgrows : memory.Grows memory')
    (hcount : values.length = count) :
    ∃ value memory'', Yields numberSlot? locals memory (object qualified count args) [value]
        memory'' ∧ memory'.Grows memory'' ∧
      value.IsRecord (memory''.HoldsSince memory.cells.length) qualified values :=
  ⟨_, _, yields_object h hcount, Memory.grows_add memory' _, _, rfl,
    (Memory.Grows.refl _).holdsSince_add hgrows.length_le⟩

/-- The code of a watcher constructs the object that stands for it, and nothing that was there
before changes. -/
theorem yields_watcher (config : Config) (resolver : Resolver)
    (hloaded : BindingsLoaded numberSlot? locals array bindings) {memory : Memory}
    (hbindings : memory.array? array = some bindings) (watcher : Watcher)
    (hslots : ∀ slot ∈ watcher.bindings, slot < bindings.length)
    (hproper : watcher.watched.Proper) {propertyGetter : Option MethodHandle} {out : Emission}
    (hgetter : watcher.isRoot → watcher.watched.kind.form = .property →
      Datum.IsClosure out.Names (.ofHandle? propertyGetter) (some (.ok .propertyGetter))) :
    let made := RuntimeObject.watcher config resolver propertyGetter watcher.isRoot watcher.watched
      watcher.bindings out
    ∃ value memory', Yields numberSlot? locals memory made.1 [value] memory' ∧
      memory.Grows memory' ∧ out.Follows made.2 ∧
      value.IsWatcher (memory'.HoldsSince memory.cells.length) made.2.Names config resolver
        bindings watcher := by
  have hname : Yields numberSlot? locals memory [.pushString watcher.watched.name]
      [.string watcher.watched.name] memory := .constant (.string watcher.watched.name) memory
  simp only [RuntimeObject.watcher, Datum.IsWatcher]
  cases hkind : watcher.watched.kind with
  | property =>
    obtain ⟨eventSet, listening, memory', hpieces, hgrows, hevents, hlistening⟩ :=
      yields_events_listeners hloaded hbindings hslots watcher.watched.events hname
    obtain ⟨value, memory'', hobject, hgrows', hrecord⟩ := yields_record
      (hpieces.append (yields_functionOrNull (if watcher.isRoot then propertyGetter else none) _))
      hgrows rfl
    refine ⟨value, memory'', hobject, hgrows.trans hgrows', .refl out, listening,
      hlistening.mono hgrows'.holdsSince, eventSet, _, hevents.mono hgrows'.holdsSince, ?_, hrecord⟩
    by_cases hroot : watcher.isRoot
    · rw [if_pos hroot, if_pos hroot]
      exact hgetter hroot (by rw [hkind]; rfl)
    · rw [if_neg hroot, if_neg hroot]
      rfl
  | staticProperty owner =>
    obtain ⟨eventSet, listening, memory', hpieces, hgrows, hevents, hlistening⟩ :=
      yields_events_listeners hloaded hbindings hslots watcher.watched.events hname
    obtain ⟨value, memory'', hobject, hgrows', hrecord⟩ := yields_record
      (hpieces.append (yields_functionOrNull none _)) hgrows rfl
    exact ⟨value, memory'', hobject, hgrows.trans hgrows', .refl out, listening,
      hlistening.mono hgrows'.holdsSince, eventSet, hevents.mono hgrows'.holdsSince, hrecord⟩
  | function args =>
    let emitted := out.emitClosure (Closure.parameters resolver watcher.watched.name args)
    have hparameters : Yields numberSlot? locals memory [functionOrNull emitted.1]
        [.ofHandle? emitted.1] memory := yields_functionOrNull emitted.1 memory
    obtain ⟨eventSet, listening, memory', hpieces, hgrows, hevents, hlistening⟩ :=
      yields_events_listeners hloaded hbindings hslots watcher.watched.events
        ((hname.append (.getLocal hloaded.local_document memory)).append hparameters)
    obtain ⟨value, memory'', hobject, hgrows', hrecord⟩ := yields_record
      (hpieces.append ((Yields.constant .null _).append (.constant (.bool false) _))) hgrows rfl
    exact ⟨value, memory'', hobject, hgrows.trans hgrows',
      Emission.follows_emitClosure (Closure.explained_parameters resolver _ args) out, listening,
      hlistening.mono hgrows'.holdsSince, eventSet, _, hevents.mono hgrows'.holdsSince,
      Datum.isClosure_emitClosure _ out, hrecord⟩
  | xml =>
    have hlisteners := yields_listeners hloaded hbindings hslots
    have hgrows := Memory.grows_add memory (.array (Datum.selected bindings watcher.bindings))
    obtain ⟨value, memory'', hobject, hgrows', hrecord⟩ :=
      yields_record (hname.append hlisteners) hgrows rfl
    exact ⟨value, memory'', hobject, hgrows.trans hgrows', .refl out, _,
      ⟨_, rfl, hgrows'.holdsSince_add (Nat.le_refl _)⟩, hproper (by rw [hkind]; rfl), hrecord⟩

end RuntimeObject

end Bindery
