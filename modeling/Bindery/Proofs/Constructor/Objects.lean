import Bindery.Constructor.RuntimeObject
import Bindery.Proofs.Constructor.Emission
import Bindery.Proofs.Machine.Yields

/-!
# Runtime objects of bindings and watchers

Which object a binding or a watcher becomes when the constructed code runs: its class, the arguments
of its construction and the methods of its closures. The code that constructs an object leaves one
of the described kind.
-/

namespace Bindery

/-! ## Descriptions -/

/-- The closure that a binding reads its source with; a source that is read by its name has none. -/
def Binding.getterClosure? (resolver : Resolver) (binding : Binding) : Option Closure :=
  if binding.isSimple then none else binding.source.map (Closure.getter resolver binding.slot)

/-- The closure that a binding stores its value with. -/
def Binding.setterClosure? (binding : Binding) : Option Closure :=
  binding.destination.map fun destination => .ok (destination.setter binding.slot)

/-- The elements of an array in some slots. -/
def Datum.selected (items : List Datum) (slots : List Nat) : List Datum :=
  slots.map fun slot => items.getD slot .null

section Descriptions

/- The cells and the methods that the descriptions refer to. -/
variable (holds : Nat → Cell → Prop) (emitted : MethodHandle → Method → Prop)

/-- A value is the closure of a method that could be generated, or null where there is none. -/
def Datum.IsClosure (value : Datum) : Option Closure → Prop
  | some (.ok method) => ∃ handle, value = .closure handle ∧ emitted handle method
  | some (.error _) | none => value = .null

/-- A value is an object of a class, constructed from some arguments. -/
def Datum.IsRecord (value : Datum) (qualified : String) (args : List Datum) : Prop :=
  ∃ address, value = .object address ∧ holds address (.record (.ofQualified qualified) args)

/-- A value is the object that stands for a binding: it is constructed from the document, the two
closures and the two texts of the binding. -/
def Datum.IsBinding (config : Config) (resolver : Resolver) (binding : Binding) (value : Datum) :
    Prop :=
  ∃ getter setter, getter.IsClosure emitted (binding.getterClosure? resolver) ∧
    setter.IsClosure emitted binding.setterClosure? ∧
    value.IsRecord holds config.bindingClass
      [.document, getter, setter, .ofText? binding.destinationText, .ofText? binding.sourceText]

/-- A value is an object with a true property for every event. -/
def Datum.IsEventSet (value : Datum) (events : List String) : Prop :=
  ∃ address, value = .object address ∧
    holds address (.plain (events.map fun event => (.string event, .bool true)))

/-- A value is an array of the bindings in some slots. -/
def Datum.IsListeners (value : Datum) (bindings : List Datum) (slots : List Nat) : Prop :=
  ∃ address, value = .object address ∧ holds address (.array (Datum.selected bindings slots))

/-- A value is the object that stands for a watcher: it is of the class for the watcher's form, and
constructed from its name, its events and the bindings that depend on it. A root that watches a
property gets the closure that reads any property of the document, and a function result gets the
closure of its arguments. A part of an XML value has no events. -/
def Datum.IsWatcher (config : Config) (resolver : Resolver) (bindings : List Datum)
    (watcher : Watcher) (value : Datum) : Prop :=
  ∃ listeners, Datum.IsListeners holds listeners bindings watcher.bindings ∧
    match watcher.watched.kind with
    | .property => ∃ events getter, Datum.IsEventSet holds events watcher.watched.events ∧
        Datum.IsClosure emitted getter
          (if watcher.isRoot then some (.ok .propertyGetter) else none) ∧
        value.IsRecord holds config.propertyWatcherClass
          [.string watcher.watched.name, events, listeners, getter]
    | .staticProperty _ => ∃ events, Datum.IsEventSet holds events watcher.watched.events ∧
        value.IsRecord holds config.staticPropertyWatcherClass
          [.string watcher.watched.name, events, listeners, .null]
    | .function args => ∃ events parameters,
        Datum.IsEventSet holds events watcher.watched.events ∧
        Datum.IsClosure emitted parameters
          (some (Closure.parameters resolver watcher.watched.name args)) ∧
        value.IsRecord holds config.functionReturnWatcherClass
          [.string watcher.watched.name, .document, parameters, events, listeners, .null,
            .bool false]
    | .xml => watcher.watched.events = [] ∧
        value.IsRecord holds config.xmlWatcherClass [.string watcher.watched.name, listeners]

end Descriptions

/-! ## Later memories and emissions -/

section Later

variable {holds holds' : Nat → Cell → Prop} {emitted emitted' : MethodHandle → Method → Prop}

theorem Datum.IsClosure.mono {value : Datum} {closure? : Option Closure}
    (h : value.IsClosure emitted closure?)
    (hemitted : ∀ {handle method}, emitted handle method → emitted' handle method) :
    value.IsClosure emitted' closure? := by
  match closure?, h with
  | some (.ok _), ⟨handle, hvalue, hmethod⟩ => exact ⟨handle, hvalue, hemitted hmethod⟩
  | some (.error _), h => exact h
  | none, h => exact h

theorem Datum.IsRecord.mono {value : Datum} {qualified : String} {args : List Datum}
    (h : value.IsRecord holds qualified args)
    (hholds : ∀ {address cell}, holds address cell → holds' address cell) :
    value.IsRecord holds' qualified args :=
  h.imp fun _ ⟨hvalue, hcell⟩ => ⟨hvalue, hholds hcell⟩

theorem Datum.IsBinding.mono {config : Config} {resolver : Resolver} {binding : Binding}
    {value : Datum} (h : value.IsBinding holds emitted config resolver binding)
    (hholds : ∀ {address cell}, holds address cell → holds' address cell)
    (hemitted : ∀ {handle method}, emitted handle method → emitted' handle method) :
    value.IsBinding holds' emitted' config resolver binding := by
  obtain ⟨getter, setter, hgetter, hsetter, hrecord⟩ := h
  exact ⟨getter, setter, hgetter.mono hemitted, hsetter.mono hemitted, hrecord.mono hholds⟩

theorem Datum.IsEventSet.mono {value : Datum} {events : List String}
    (h : value.IsEventSet holds events)
    (hholds : ∀ {address cell}, holds address cell → holds' address cell) :
    value.IsEventSet holds' events :=
  h.imp fun _ ⟨hvalue, hcell⟩ => ⟨hvalue, hholds hcell⟩

theorem Datum.IsListeners.mono {value : Datum} {bindings : List Datum} {slots : List Nat}
    (h : value.IsListeners holds bindings slots)
    (hholds : ∀ {address cell}, holds address cell → holds' address cell) :
    value.IsListeners holds' bindings slots :=
  h.imp fun _ ⟨hvalue, hcell⟩ => ⟨hvalue, hholds hcell⟩

theorem Datum.IsWatcher.mono {config : Config} {resolver : Resolver} {bindings : List Datum}
    {watcher : Watcher} {value : Datum}
    (h : value.IsWatcher holds emitted config resolver bindings watcher)
    (hholds : ∀ {address cell}, holds address cell → holds' address cell)
    (hemitted : ∀ {handle method}, emitted handle method → emitted' handle method) :
    value.IsWatcher holds' emitted' config resolver bindings watcher := by
  obtain ⟨listeners, hlisteners, h⟩ := h
  refine ⟨listeners, hlisteners.mono hholds, ?_⟩
  split at h
  · obtain ⟨events, getter, hevents, hgetter, hrecord⟩ := h
    exact ⟨events, getter, hevents.mono hholds, hgetter.mono hemitted, hrecord.mono hholds⟩
  · obtain ⟨events, hevents, hrecord⟩ := h
    exact ⟨events, hevents.mono hholds, hrecord.mono hholds⟩
  · obtain ⟨events, parameters, hevents, hparameters, hrecord⟩ := h
    exact ⟨events, parameters, hevents.mono hholds, hparameters.mono hemitted,
      hrecord.mono hholds⟩
  · exact ⟨h.1, h.2.mono hholds⟩

end Later

/-! ## Emitted closures -/

namespace Datum

theorem isClosure_emitClosure (closure : Closure) (out : Emission) :
    IsClosure (out.emitClosure closure).2.Names (.ofHandle? (out.emitClosure closure).1)
      (some closure) := by
  cases closure with
  | ok method => exact ⟨_, rfl, Emission.names_emit method out⟩
  | error problem? => rfl

theorem isClosure_emitGetter (resolver : Resolver) (binding : Binding) (out : Emission) :
    IsClosure (out.emitGetter resolver binding).2.Names
      (.ofHandle? (out.emitGetter resolver binding).1)
      (binding.source.map (Closure.getter resolver binding.slot)) := by
  unfold Emission.emitGetter
  cases binding.source with
  | some source => exact isClosure_emitClosure _ out
  | none => rfl

theorem isClosure_emitSetter (binding : Binding) (out : Emission) :
    IsClosure (out.emitSetter binding).2.Names (.ofHandle? (out.emitSetter binding).1)
      binding.setterClosure? := by
  unfold Emission.emitSetter Binding.setterClosure?
  cases binding.destination with
  | some destination => exact ⟨_, rfl, Emission.names_emit _ out⟩
  | none => rfl

end Datum

end Bindery
