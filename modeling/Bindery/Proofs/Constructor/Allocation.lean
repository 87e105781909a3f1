import Bindery.Constructor.Code
import Bindery.Proofs.Constructor.Construction
import Mathlib.Data.List.Forall2
import Mathlib.Data.List.Nodup

/-!
# The first stage of constructed code

All bindings are constructed in the order of their slots and kept in an array, the halves of two-way
bindings are linked with each other, an array of as many nulls as there are watchers is kept, and
both arrays are put into local variables.
-/

namespace Bindery

variable {numberSlot? : Float → Option Nat} {locals : Nat → Option Datum}

namespace ConstructorContext

/-! ## Bindings -/

/-- The objects at so many addresses from `first` on. -/
def objectsFrom (first count : Nat) : List Datum := (List.range' first count).map .object

variable (numberSlot?) in
/-- The code of some bindings leaves an object for each of them. -/
theorem yields_bindings (context : ConstructorContext) (hdocument : locals 0 = some .document)
    (bindings : List Binding) (out : Emission) (memory : Memory) :
    ∃ memory', Yields numberSlot? locals memory (context.bindings bindings out).1
        (objectsFrom memory.cells.length bindings.length) memory' ∧
      memory.Grows memory' ∧ out.Follows (context.bindings bindings out).2 ∧
      List.Forall₂ (Datum.IsBinding memory'.Holds (context.bindings bindings out).2.Names
        context.config context.resolver) bindings
        (objectsFrom memory.cells.length bindings.length) := by
  induction bindings generalizing out memory with
  | nil => exact ⟨memory, .nil memory, .refl memory, .refl out, .nil⟩
  | cons binding bindings ih =>
    obtain ⟨getter, setter, hgetter, hsetter, hfollows, hyields⟩ :=
      RuntimeObject.yields_binding numberSlot? context.config context.resolver binding
        hdocument out memory
    let args : List Datum := [.document, getter, setter, .ofText? binding.destinationText,
      .ofText? binding.sourceText]
    have hadded := Memory.grows_add memory (.record (.ofQualified context.config.bindingClass) args)
    obtain ⟨memory', hrest, hgrows, hfollows', hall⟩ :=
      ih (RuntimeObject.binding context.config context.resolver binding out).2 (memory.add _)
    rw [Memory.cells_add, List.length_append, List.length_singleton] at hrest hall
    refine ⟨memory', hyields.append hrest, hadded.trans hgrows, hfollows.trans hfollows',
      .cons ?_ hall⟩
    exact ⟨getter, setter, hgetter.mono hfollows'.names, hsetter.mono hfollows'.names, _, rfl,
      hgrows.holds (Memory.holds_add memory _)⟩

/-! ## Properties of the document -/

/-- Code that keeps a value as a property of the document. -/
theorem yields_keep (hdocument : locals 0 = some .document) {code : List Instruction}
    {value : Datum}
    {memory memory' : Memory} (h : Yields numberSlot? locals memory code [value] memory')
    (name : String) :
    Yields numberSlot? locals memory (code ++ keep (.inPublic name)) []
      (memory'.assign (.inPublic name) value) := by
  intro stack
  have hself : Yields numberSlot? locals memory' [.getLocal 0] [.document] memory' :=
    .getLocal hdocument memory'
  exact (h stack).append ((hself (value :: stack)).append (.cons rfl (.cons rfl (.nil _ _))))

/-- The arrays of bindings and watchers that the document has kept. -/
structure Kept (memory : Memory) (name : Name) (array : Nat) (items : List Datum) : Prop where
  property_eq : memory.property name = some (.object array)
  array?_eq : memory.array? array = some items

theorem Kept.note {memory : Memory} {name : Name} {array : Nat} {items : List Datum}
    (h : Kept memory name array items) (events : List Event) :
    Kept (memory.note events) name array items :=
  ⟨h.property_eq, h.array?_eq⟩

theorem kept_keepArray (memory : Memory) (name : Name) (items : List Datum) :
    Kept (memory.keepArray name items) name memory.cells.length items :=
  ⟨if_pos rfl, memory.array?_keepArray name items⟩

/-- An array is kept while another one is put elsewhere. -/
theorem Kept.keepArray {memory : Memory} {name other : Name} {array : Nat} {items : List Datum}
    (h : Kept memory name array items) (hne : name ≠ other) (others : List Datum) :
    Kept (memory.keepArray other others) name array items := by
  refine ⟨?_, Memory.array?_eq_some_iff.mpr ?_⟩
  · rw [Memory.keepArray, Memory.property_assign, if_neg hne]
    exact h.property_eq
  · have hholds : memory.Holds array (.array items) := Memory.array?_eq_some_iff.mp h.array?_eq
    exact Memory.holds_keepArray hholds other others

/-! ## Links -/

/-- A binding by its slot, before the array of bindings is in a local variable. -/
theorem yields_ownBinding (hdocument : locals 0 = some .document) {memory : Memory} {array : Nat}
    {bindings : List Datum} (hkept : Kept memory RuntimeName.bindings array bindings)
    (hreads : ReadsSlots numberSlot? bindings.length) {slot : Nat}
    (hslot : slot < bindings.length) :
    Yields numberSlot? locals memory (ownBinding slot) [bindings.getD slot .null] memory := by
  have hself : Yields numberSlot? locals memory [.getLocal 0] [.document] memory :=
    .getLocal hdocument memory
  have hindex := (hself.read hkept.property_eq).append (.pushNat slot memory)
  exact hindex.readAt (hreads.slot?_ofSlot hslot) hkept.array?_eq (Datum.getElem?_eq_getD hslot)

/-- What linking two bindings with each other does. -/
def linkEvents (bindings : List Datum) (pair : Nat × Nat) : List Event :=
  let first := bindings.getD pair.1 .null
  let second := bindings.getD pair.2 .null
  [.assigned first RuntimeName.twoWayCounterpart second,
    .assigned second RuntimeName.twoWayCounterpart first]

theorem yields_linkTo (hdocument : locals 0 = some .document) {memory : Memory} {array : Nat}
    {bindings : List Datum} (hkept : Kept memory RuntimeName.bindings array bindings)
    (hreads : ReadsSlots numberSlot? bindings.length)
    (hobjects : ∀ value ∈ bindings, memory.IsObject value) {a b : Nat} (ha : a < bindings.length)
    (hb : b < bindings.length) :
    Yields numberSlot? locals memory (linkTo a b) []
      (memory.note [.assigned (bindings.getD a .null) RuntimeName.twoWayCounterpart
        (bindings.getD b .null)]) := by
  have hobject := hobjects _ (List.mem_of_getElem? (Datum.getElem?_eq_getD ha))
  have hfirst := yields_ownBinding hdocument hkept hreads ha
  have hsecond := yields_ownBinding hdocument hkept hreads hb
  exact (hfirst.append hsecond).write hobject _

/-- Where no binding is paired with itself, the links report nothing. -/
theorem links_eq (context : ConstructorContext) {pairs : List (Nat × Nat)}
    (hne : ∀ pair ∈ pairs, pair.1 ≠ pair.2) (out : Emission) :
    context.links pairs out =
      (pairs.flatMap fun pair => linkTo pair.1 pair.2 ++ linkTo pair.2 pair.1, out) := by
  induction pairs with
  | nil => rfl
  | cons pair pairs ih =>
    obtain ⟨a, b⟩ := pair
    have hab : a ≠ b := hne (a, b) List.mem_cons_self
    rw [links, if_neg hab, ih fun other hother => hne other (List.mem_cons_of_mem _ hother)]
    rfl

/-- Code that does one thing after the other and leaves nothing. -/
theorem yields_flatMap_note {α : Type} {code : α → List Instruction} {events : α → List Event}
    {memory : Memory} {l : List α}
    (h : ∀ x ∈ l, ∀ earlier, Yields numberSlot? locals (memory.note earlier) (code x) []
      ((memory.note earlier).note (events x))) :
    Yields numberSlot? locals memory (l.flatMap code) [] (memory.note (l.flatMap events)) := by
  have hfrom (earlier : List Event) : Yields numberSlot? locals (memory.note earlier)
      (l.flatMap code) [] ((memory.note earlier).note (l.flatMap events)) := by
    induction l generalizing earlier with
    | nil =>
      rw [List.flatMap_nil, List.flatMap_nil, Memory.note_nil]
      exact .nil _
    | cons x l ih =>
      rw [List.flatMap_cons, List.flatMap_cons, ← Memory.note_note _ (events x)]
      have hfirst := h x List.mem_cons_self earlier
      have hrest := ih (fun y hy => h y (List.mem_cons_of_mem x hy)) (earlier ++ events x)
      rw [← Memory.note_note] at hrest
      exact hfirst.append hrest
  have hall := hfrom []
  rwa [Memory.note_nil] at hall

/-- The code of the links makes the bindings of every pair the counterparts of each other. -/
theorem yields_links (context : ConstructorContext) (hdocument : locals 0 = some .document)
    {memory : Memory} {array : Nat} {bindings : List Datum}
    (hkept : Kept memory RuntimeName.bindings array bindings)
    (hreads : ReadsSlots numberSlot? bindings.length)
    (hobjects : ∀ value ∈ bindings, memory.IsObject value) {pairs : List (Nat × Nat)}
    (hpairs : ∀ pair ∈ pairs, pair.1 ≠ pair.2 ∧ pair.1 < bindings.length ∧
      pair.2 < bindings.length) (out : Emission) :
    Yields numberSlot? locals memory (context.links pairs out).1 []
      (memory.note (pairs.flatMap (linkEvents bindings))) := by
  rw [links_eq context (fun pair hpair => (hpairs pair hpair).1)]
  refine yields_flatMap_note fun pair hpair earlier => ?_
  obtain ⟨-, ha, hb⟩ := hpairs pair hpair
  have hfirst := yields_linkTo hdocument (hkept.note earlier) hreads hobjects ha hb
  have hboth := hfirst.append
    (yields_linkTo hdocument ((hkept.note earlier).note _) hreads hobjects hb ha)
  rwa [Memory.note_note] at hboth

/-! ## Arrays -/

theorem yields_replicate_pushNull (count : Nat) (memory : Memory) :
    Yields numberSlot? locals memory (List.replicate count .pushNull) (List.replicate count .null)
      memory := by
  induction count with
  | zero => exact .nil memory
  | succ count ih =>
    rw [List.replicate_succ, List.replicate_succ]
    exact (Yields.constant .null memory).append ih

/-- The code for watchers keeps a new array of nulls. -/
theorem yields_emptyWatchers (hdocument : locals 0 = some .document) (count : Nat)
    (memory : Memory) :
    Yields numberSlot? locals memory (emptyWatchers count) []
      (memory.keepArray RuntimeName.watchers (List.replicate count .null)) := by
  have hnulls : Yields numberSlot? locals memory (List.replicate count .pushNull)
      (List.replicate count .null) memory := yields_replicate_pushNull count memory
  exact yields_keep hdocument (hnulls.newArray (List.length_replicate ..)) _

/-- The local variables once both arrays are loaded. -/
def withArrays (locals : Nat → Option Datum) (bindings watchers : Nat) : Nat → Option Datum :=
  withLocal (withLocal locals 1 (.object bindings)) 2 (.object watchers)

/-- Loading the arrays sets two local variables and changes nothing else. -/
theorem runs_loadArrays (hdocument : locals 0 = some .document) {memory : Memory}
    {bindings watchers : Nat}
    (hbindings : memory.property RuntimeName.bindings = some (.object bindings))
    (hwatchers : memory.property RuntimeName.watchers = some (.object watchers))
    (stack : List Datum) :
    Runs numberSlot? loadArrays ⟨stack, locals⟩ memory
      ⟨stack, withArrays locals bindings watchers⟩ memory := by
  have hread {locals' : Nat → Option Datum} {rest : List Datum} {name : String} {address : Nat}
      (h : memory.property (.inPublic name) = some (.object address)) :
      (Machine.building numberSlot?).step ⟨.document :: rest, locals'⟩
        (.getProperty (.inPublic name)) memory =
        some (⟨.object address :: rest, locals'⟩, memory) := by
    simp only [Machine.step, Machine.building]
    show (StateT.bind _ _) memory = _
    rw [StateT.bind, h]
    rfl
  have hself : Yields numberSlot? locals memory [.getLocal 0] [.document] memory :=
    .getLocal hdocument memory
  exact (hself stack).append (.cons rfl (.cons (hread hbindings) (.cons rfl (.cons (hread hwatchers)
    (.cons rfl (.nil _ _))))))

/-! ## The whole stage -/

theorem nodup_objectsFrom (first count : Nat) : (objectsFrom first count).Nodup :=
  List.Nodup.map (fun _ _ h => Datum.object.inj h) List.nodup_range'

@[simp] theorem length_objectsFrom (first count : Nat) :
    (objectsFrom first count).length = count := by
  simp [objectsFrom]

/-- In lists that are related member by member, every member is related to one. -/
theorem exists_of_forall₂ {α β : Type} {R : α → β → Prop} {l : List α} {l' : List β}
    (h : List.Forall₂ R l l') {y : β} (hy : y ∈ l') : ∃ x ∈ l, R x y := by
  induction h with
  | nil => simp at hy
  | cons hxy _ ih =>
    rcases List.mem_cons.mp hy with rfl | hy
    · exact ⟨_, List.mem_cons_self, hxy⟩
    · obtain ⟨x, hx, hR⟩ := ih hy
      exact ⟨x, List.mem_cons_of_mem _ hx, hR⟩

/-- A value that stands for a binding is an object. -/
theorem isObject_of_isBinding {memory : Memory} {emitted : MethodHandle → Method → Prop}
    {config : Config} {resolver : Resolver} {binding : Binding} {value : Datum}
    (h : value.IsBinding memory.Holds emitted config resolver binding) : memory.IsObject value := by
  obtain ⟨_, _, -, -, address, rfl, hcell⟩ := h
  exact Memory.isObject_of_holds hcell

/-- The memory after the first stage: both arrays are kept, the elements of the first one stand for
the bindings, and the journal tells of the arrays and the links. -/
structure Allocated (context : ConstructorContext) (before after : Memory) (out : Emission)
    (bindings watchers : Nat) (objects : List Datum) : Prop where
  bindings_kept : Kept after RuntimeName.bindings bindings objects
  watchers_kept : Kept after RuntimeName.watchers watchers
    (List.replicate context.database.watchers.length .null)
  bindings_ne : bindings ≠ watchers
  isBinding : List.Forall₂ (Datum.IsBinding (after.HoldsBeside watchers) out.Names
    context.config context.resolver) context.database.bindings objects
  nodup : objects.Nodup
  journal_eq : after.journal = before.journal ++
    ([.assigned .document RuntimeName.bindings (.object bindings)] ++
      context.database.pairs.flatMap (linkEvents objects) ++
      [.assigned .document RuntimeName.watchers (.object watchers)])

variable (numberSlot?) in
/-- The first stage runs to its end. -/
theorem runs_allocation (context : ConstructorContext) (hdocument : locals 0 = some .document)
    (hreads : ReadsSlots numberSlot? context.database.bindings.length)
    (hpairs : ∀ pair ∈ context.database.pairs, pair.1 ≠ pair.2 ∧
      pair.1 < context.database.bindings.length ∧ pair.2 < context.database.bindings.length)
    (out : Emission) (stack : List Datum) (memory : Memory) :
    out.Follows (context.allocation out).2 ∧
      ∃ bindings watchers objects memory', Runs numberSlot? (context.allocation out).1
          ⟨stack, locals⟩ memory ⟨stack, withArrays locals bindings watchers⟩ memory' ∧
        context.Allocated memory memory' (context.allocation out).2 bindings watchers objects := by
  obtain ⟨made, hmade, hgrows, hfollows, hall⟩ := context.yields_bindings numberSlot?
    hdocument context.database.bindings out memory
  let objects := objectsFrom memory.cells.length context.database.bindings.length
  let count := context.database.watchers.length
  -- The bindings are kept, then linked, and then the array for the watchers is kept.
  let kept := made.keepArray RuntimeName.bindings objects
  let linked := kept.note (context.database.pairs.flatMap (linkEvents objects))
  let after := linked.keepArray RuntimeName.watchers (List.replicate count .null)
  have hlength : objects.length = context.database.bindings.length := length_objectsFrom _ _
  have hlinks := context.links_eq (fun pair hpair => (hpairs pair hpair).1)
    (context.bindings context.database.bindings out).2
  have hout : (context.allocation out).2 =
      (context.bindings context.database.bindings out).2 := by
    rw [allocation, hlinks]
  have hwatchers : linked.cells.length = made.cells.length + 1 := by
    simp [linked, kept, Memory.keepArray]
  have hkept : Kept kept RuntimeName.bindings made.cells.length objects :=
    kept_keepArray made RuntimeName.bindings objects
  have hkept' : Kept after RuntimeName.bindings made.cells.length objects :=
    (hkept.note _).keepArray (by decide) _
  have hkeptWatchers : Kept after RuntimeName.watchers linked.cells.length
      (List.replicate count .null) := kept_keepArray linked RuntimeName.watchers _
  have hobjects : ∀ value ∈ objects, kept.IsObject value := by
    intro value hvalue
    obtain ⟨binding, -, hbinding⟩ := exists_of_forall₂ hall hvalue
    exact isObject_of_isBinding
      (hbinding.mono (fun hcell => Memory.holds_keepArray hcell RuntimeName.bindings objects) id)
  have hallocate := yields_keep hdocument (hmade.newArray (length_objectsFrom _ _)) "_bindings"
  have hlink := context.yields_links hdocument hkept (by rwa [hlength]) hobjects
    (by rwa [hlength]) (context.bindings context.database.bindings out).2
  have hempty : Yields numberSlot? locals linked (emptyWatchers count) [] after :=
    yields_emptyWatchers hdocument count linked
  have hload : Runs numberSlot? loadArrays ⟨stack, locals⟩ after
      ⟨stack, withArrays locals made.cells.length linked.cells.length⟩ after :=
    runs_loadArrays hdocument hkept'.property_eq hkeptWatchers.property_eq stack
  have hkeeps {address : Nat} {cell : Cell} (hcell : made.Holds address cell) :
      after.HoldsBeside linked.cells.length address cell := by
    have hlt : address < made.cells.length := (List.getElem?_eq_some_iff.mp hcell).1
    have hkeeps' : linked.Holds address cell :=
      Memory.holds_keepArray hcell RuntimeName.bindings objects
    exact ⟨by omega, Memory.holds_keepArray hkeeps' RuntimeName.watchers _⟩
  rw [hout]
  refine ⟨hfollows, made.cells.length, linked.cells.length, objects, after, ?_, {
    bindings_kept := hkept'
    watchers_kept := hkeptWatchers
    bindings_ne := by omega
    isBinding := hall.imp fun binding value hbinding => hbinding.mono hkeeps id
    nodup := nodup_objectsFrom _ _
    journal_eq := ?_ }⟩
  · exact (((hallocate.append hlink).append hempty) stack).append hload
  · simp [after, linked, kept, Memory.keepArray, hgrows.journal_eq]

end ConstructorContext

end Bindery
