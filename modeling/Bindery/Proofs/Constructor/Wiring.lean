import Bindery.Proofs.Constructor.Population

/-!
# The last two stages of constructed code

Every root is told what it watches, every other watcher is added to the one above it, and every
binding runs once. All this leaves the memory as it is but for the journal, which tells of it in the
order of the watchers and then of the bindings.
-/

namespace Bindery

variable {numberSlot? : Float → Option Nat} {locals : Nat → Option Datum}

/-- Code that may use local variables of its own: it keeps a property of the local variables and
leaves the stack as it is. -/
def Performs (numberSlot? : Float → Option Nat) (keeps : (Nat → Option Datum) → Prop)
    (memory : Memory) (code : List Instruction) (memory' : Memory) : Prop :=
  ∀ locals stack, keeps locals → ∃ locals', keeps locals' ∧
    Runs numberSlot? code ⟨stack, locals⟩ memory ⟨stack, locals'⟩ memory'

namespace Performs

variable {keeps : (Nat → Option Datum) → Prop} {memory memory' memory'' : Memory}

theorem nil (memory : Memory) : Performs numberSlot? keeps memory [] memory :=
  fun locals stack h => ⟨locals, h, Runs.nil ⟨stack, locals⟩ memory⟩

theorem append {first second : List Instruction}
    (h : Performs numberSlot? keeps memory first memory')
    (h' : Performs numberSlot? keeps memory' second memory'') :
    Performs numberSlot? keeps memory (first ++ second) memory'' := by
  intro locals stack hlocals
  obtain ⟨locals', hlocals', hruns⟩ := h locals stack hlocals
  obtain ⟨locals'', hlocals'', hruns'⟩ := h' locals' stack hlocals'
  exact ⟨locals'', hlocals'', hruns.append hruns'⟩

theorem of_yields {code : List Instruction}
    (h : ∀ locals, keeps locals → Yields numberSlot? locals memory code [] memory') :
    Performs numberSlot? keeps memory code memory' :=
  fun locals stack hlocals => ⟨locals, hlocals, h locals hlocals stack⟩

end Performs

namespace ConstructorContext

/-! ## Watchers -/

/-- What the root of a chain watches: the class of a static property, or else the document. -/
def rootValue (watched : Watched) : Datum :=
  match watched.kind with
  | .staticProperty owner => .classObject (.ofQualified owner)
  | _ => .document

/-- What adding a watcher to the one above it does. -/
def joinEvents (parent child : Datum) (form : WatchForm) : List Event :=
  (if form = .function then [.assigned child RuntimeName.parentWatcher parent] else []) ++
    [.called parent RuntimeName.addChild [child]]

/-- What wiring a watcher does, by the elements of the array of watchers. -/
def wireEvents (items : List Datum) (watcher : Watcher) : List Event :=
  let value := items.getD watcher.slot .null
  match watcher.parent with
  | none => [.called value RuntimeName.updateParent [rootValue watcher.watched]]
  | some parent => joinEvents (items.getD parent .null) value watcher.watched.kind.form

theorem yields_rootObject (hdocument : locals 0 = some .document) (watched : Watched)
    (memory : Memory) :
    Yields numberSlot? locals memory [rootObject watched] [rootValue watched] memory := by
  unfold rootObject rootValue
  cases watched.kind with
  | staticProperty owner => exact .getLex _ memory
  | property | function args | xml => exact .getLocal hdocument memory

section Wiring

variable {objects items : List Datum} {bindings watchers : Nat} {memory : Memory}

/-- Local variables that hold the document and the two arrays. -/
abbrev HoldArrays (numberSlot? : Float → Option Nat) (bindings : Nat) (objects : List Datum)
    (watchers count : Nat) (locals : Nat → Option Datum) : Prop :=
  ArraysLoaded numberSlot? locals bindings objects watchers count

/-- A further local variable does not disturb the arrays. -/
theorem ArraysLoaded.setLocal {count : Nat}
    (h : ArraysLoaded numberSlot? locals bindings objects watchers count) (slot : Nat)
    (hslot : 2 < slot) (value : Datum) :
    ArraysLoaded numberSlot? (withLocal locals slot value) bindings objects watchers count where
  local_document := by rw [withLocal, if_neg (by omega), h.local_document]
  local_bindings := by rw [withLocal, if_neg (by omega), h.local_bindings]
  reads := h.reads
  local_watchers := by rw [withLocal, if_neg (by omega), h.local_watchers]
  reads_watchers := h.reads_watchers

/-- Joining two watchers adds the one to the other, and to the watcher of a function tells which one
that is. -/
theorem performs_join (hitems : memory.array? watchers = some items) {parent child : Nat}
    (hparent : parent < items.length) (hchild : child < items.length)
    (hparentObject : memory.IsObject (items.getD parent .null))
    (hchildObject : memory.IsObject (items.getD child .null)) (form : WatchForm) :
    Performs numberSlot? (HoldArrays numberSlot? bindings objects watchers items.length) memory
      (join parent child form)
      (memory.note (joinEvents (items.getD parent .null) (items.getD child .null) form)) := by
  intro locals stack hlocals
  have hlocals' := hlocals.setLocal 3 (by omega) (items.getD parent .null)
  have hlocals'' := hlocals'.setLocal 4 (by omega) (items.getD child .null)
  refine ⟨_, hlocals'', ?_⟩
  have hfirst := RuntimeObject.yields_element hlocals.local_watchers hitems hlocals.reads_watchers
    hparent
  have hsecond := RuntimeObject.yields_element hlocals'.local_watchers hitems
    hlocals'.reads_watchers hchild
  -- Behind the two loads, locals 3 and 4 hold the watchers.
  let loaded := withLocal (withLocal locals 3 (items.getD parent .null)) 4 (items.getD child .null)
  have hget3 (memory : Memory) : Yields numberSlot? loaded memory [.getLocal 3]
      [items.getD parent .null] memory := .getLocal rfl memory
  have hget4 (memory : Memory) : Yields numberSlot? loaded memory [.getLocal 4]
      [items.getD child .null] memory := .getLocal rfl memory
  have hadd (earlier : List Event) :=
    ((hget3 (memory.note earlier)).append (hget4 (memory.note earlier))).callPropVoid
      hparentObject RuntimeName.addChild rfl
  have hload := (hfirst.setLocal 3 stack).append (hsecond.setLocal 4 stack)
  rw [← List.append_assoc] at hload
  unfold join joinEvents
  by_cases hform : form = .function
  · rw [if_pos hform, if_pos hform]
    have htell := ((hget4 memory).append (hget3 memory)).write hchildObject "parentWatcher"
    have hboth := hload.append ((htell.append (hadd _)) stack)
    rwa [← List.append_assoc, Memory.note_note] at hboth
  · rw [if_neg hform, if_neg hform, List.append_nil, List.nil_append]
    have hadd := hadd []
    rw [Memory.note_nil] at hadd
    exact hload.append (hadd stack)

/-- A watcher that has been constructed into its slot of an array. -/
structure InPlace (memory : Memory) (items : List Datum) (slot : Nat) : Prop where
  slot_lt : slot < items.length
  isObject : memory.IsObject (items.getD slot .null)

theorem InPlace.note {slot : Nat} (h : InPlace memory items slot) (events : List Event) :
    InPlace (memory.note events) items slot :=
  ⟨h.slot_lt, h.isObject⟩

mutual

/-- The code of a chain joins all watchers below the first one. -/
theorem performs_wiring {depth : Nat} {memory : Memory} : (chain : WatchChain) →
    memory.array? watchers = some items → InPlace memory items chain.slot →
    (∀ watcher ∈ WatchChain.watchersAll (some chain.slot) depth chain.children,
      InPlace memory items watcher.slot) →
    Performs numberSlot? (HoldArrays numberSlot? bindings objects watchers items.length) memory
      (wiring chain)
      (memory.note ((WatchChain.watchersAll (some chain.slot) depth chain.children).flatMap
        (wireEvents items)))
  | .link slot _ _ children, hitems, hslot, hall => by
    rw [wiring]
    exact performs_wiringAll children hitems hslot hall

/-- The code of several chains joins their watchers, and all below these, to the one above. -/
theorem performs_wiringAll {parent depth : Nat} {memory : Memory} : (chains : List WatchChain) →
    memory.array? watchers = some items → InPlace memory items parent →
    (∀ watcher ∈ WatchChain.watchersAll (some parent) depth chains,
      InPlace memory items watcher.slot) →
    Performs numberSlot? (HoldArrays numberSlot? bindings objects watchers items.length) memory
      (wiringAll parent chains)
      (memory.note ((WatchChain.watchersAll (some parent) depth chains).flatMap
        (wireEvents items)))
  | [], _, _, _ => by
    rw [wiringAll, WatchChain.watchersAll, List.flatMap_nil, Memory.note_nil]
    exact .nil memory
  | .link slot watched slots children :: chains, hitems, hparent, hall => by
    rw [WatchChain.watchersAll, WatchChain.watchers, List.cons_append] at hall ⊢
    have hslot : InPlace memory items slot := hall _ List.mem_cons_self
    rw [wiringAll, List.flatMap_cons, List.flatMap_append, ← Memory.note_note,
      ← Memory.note_note]
    let joined := memory.note (joinEvents (items.getD parent .null) (items.getD slot .null)
      watched.kind.form)
    have hjoin : Performs numberSlot?
        (HoldArrays numberSlot? bindings objects watchers items.length) memory
        (join parent slot watched.kind.form) joined :=
      performs_join hitems hparent.slot_lt hslot.slot_lt hparent.isObject hslot.isObject _
    have hbelow : Performs numberSlot?
        (HoldArrays numberSlot? bindings objects watchers items.length) joined
        (wiring (.link slot watched slots children))
        (joined.note ((WatchChain.watchersAll (some slot) (depth + 1) children).flatMap
          (wireEvents items))) :=
      performs_wiring (.link slot watched slots children) hitems (hslot.note _)
        fun watcher hmem =>
          (hall watcher (List.mem_cons_of_mem _ (List.mem_append_left _ hmem))).note _
    refine (hjoin.append hbelow).append ?_
    exact performs_wiringAll chains hitems ((hparent.note _).note _) fun watcher hmem =>
      ((hall watcher (List.mem_cons_of_mem _ (List.mem_append_right _ hmem))).note _).note _

end

/-- The code of a root tells it what it watches and joins all watchers below it. -/
theorem performs_rootWiring {memory : Memory} (chain : WatchChain)
    (hitems : memory.array? watchers = some items)
    (hall : ∀ watcher ∈ chain.watchers none 0, InPlace memory items watcher.slot) :
    Performs numberSlot? (HoldArrays numberSlot? bindings objects watchers items.length) memory
      (rootWiring chain)
      (memory.note ((chain.watchers none 0).flatMap (wireEvents items))) := by
  obtain ⟨slot, watched, slots, children⟩ := chain
  rw [WatchChain.watchers] at hall ⊢
  have hslot : InPlace memory items slot := hall _ List.mem_cons_self
  rw [List.flatMap_cons, ← Memory.note_note]
  have hroot : Performs numberSlot?
      (HoldArrays numberSlot? bindings objects watchers items.length) memory
      (ownWatcher slot ++ [rootObject watched, .callPropVoid RuntimeName.updateParent 1])
      (memory.note (wireEvents items ⟨slot, watched, slots, none, children.map WatchChain.slot,
        0⟩)) := by
    refine .of_yields fun locals hlocals => ?_
    have hargs := (RuntimeObject.yields_element hlocals.local_watchers hitems
      hlocals.reads_watchers hslot.slot_lt).append
      (yields_rootObject hlocals.local_document watched memory)
    have hcall := hargs.callPropVoid hslot.isObject RuntimeName.updateParent rfl
    rwa [List.append_assoc] at hcall
  exact hroot.append (performs_wiring (.link slot watched slots children) hitems (hslot.note _)
    fun watcher hmem => (hall watcher (List.mem_cons_of_mem _ hmem)).note _)

/-- The third stage wires all watchers of the chains that are constructed. -/
theorem performs_rootWirings {memory : Memory} (chains : List WatchChain)
    (hitems : memory.array? watchers = some items)
    (hall : ∀ watcher ∈ WatchChain.watchersAll none 0 chains,
      InPlace memory items watcher.slot) :
    Performs numberSlot? (HoldArrays numberSlot? bindings objects watchers items.length) memory
      (chains.flatMap rootWiring)
      (memory.note ((WatchChain.watchersAll none 0 chains).flatMap (wireEvents items))) := by
  induction chains generalizing memory with
  | nil =>
    rw [WatchChain.watchersAll, List.flatMap_nil, List.flatMap_nil, Memory.note_nil]
    exact .nil memory
  | cons chain chains ih =>
    rw [WatchChain.watchersAll] at hall ⊢
    rw [List.flatMap_cons, List.flatMap_append, ← Memory.note_note]
    have hfirst : Performs numberSlot?
        (HoldArrays numberSlot? bindings objects watchers items.length) memory
        (rootWiring chain) (memory.note ((chain.watchers none 0).flatMap (wireEvents items))) :=
      performs_rootWiring chain hitems fun watcher hmem =>
        hall watcher (List.mem_append_left _ hmem)
    exact hfirst.append (ih hitems fun watcher hmem =>
      (hall watcher (List.mem_append_right _ hmem)).note _)

end Wiring

/-! ## Executions -/

/-- What running some bindings does. -/
def executeEvents (bindings : List Datum) : List Event :=
  bindings.map fun binding => .called binding RuntimeName.execute []

/-- The last stage runs every binding once, in the order of their slots. -/
theorem yields_execution {bindings : Nat} {objects : List Datum} {memory : Memory}
    (hloaded : BindingsLoaded numberSlot? locals bindings objects)
    (hobjects : memory.array? bindings = some objects)
    (hall : ∀ value ∈ objects, memory.IsObject value) :
    Yields numberSlot? locals memory (RuntimeObject.execution objects.length) []
      (memory.note (executeEvents objects)) := by
  have hevents : executeEvents objects = (List.range objects.length).flatMap fun slot =>
      [.called (objects.getD slot .null) RuntimeName.execute []] := by
    rw [← List.map_eq_flatMap]
    refine List.ext_getElem (by simp [executeEvents]) fun slot hslot _ => ?_
    have hlt : slot < objects.length := by simpa [executeEvents] using hslot
    simp [executeEvents, List.getElem?_eq_getElem hlt]
  rw [hevents]
  refine yields_flatMap_note fun slot hslot earlier => ?_
  have hlt : slot < objects.length := List.mem_range.mp hslot
  have hobject := hall _ (List.mem_of_getElem? (Datum.getElem?_eq_getD hlt))
  have helement : Yields numberSlot? locals (memory.note earlier) (RuntimeObject.element 1 slot)
      [objects.getD slot .null] (memory.note earlier) :=
    RuntimeObject.yields_element hloaded.local_bindings hobjects hloaded.reads hlt
  exact helement.callPropVoid hobject RuntimeName.execute rfl

end ConstructorContext

end Bindery
