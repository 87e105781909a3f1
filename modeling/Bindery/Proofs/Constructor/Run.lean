import Bindery.Proofs.Constructor.Wiring
import Bindery.Proofs.Watch.Roots

/-!
# A whole run of constructed code

The four stages run one after the other to their end. What they leave in the memory is described
by the array of bindings, the array of watchers and the complete list of events between them.
-/

namespace Bindery

namespace ConstructorContext

/-- What code can be run for: halves of two-way bindings and watchers refer to bindings and slots
that exist, and the closure that reads any property is there if it is needed. -/
structure Runnable (context : ConstructorContext) (out : Emission) : Prop where
  pairs : ∀ pair ∈ context.database.pairs, pair.1 ≠ pair.2 ∧
    pair.1 < context.database.bindings.length ∧ pair.2 < context.database.bindings.length
  nodup_slots : (context.database.builtWatchers.map Watcher.slot).Nodup
  slot_lt : ∀ watcher ∈ context.database.builtWatchers,
    watcher.slot < context.database.watchers.length
  bindings_lt : ∀ watcher ∈ context.database.builtWatchers, ∀ slot ∈ watcher.bindings,
    slot < context.database.bindings.length
  proper : ∀ watcher ∈ context.database.builtWatchers, watcher.watched.Proper
  getter : ∀ watcher ∈ context.database.builtWatchers, watcher.isRoot →
    watcher.watched.kind.form = .property →
    Datum.IsClosure out.Names (.ofHandle? context.propertyGetter) (some (.ok .propertyGetter))

/-- What constructing the watchers does, by the elements of their array. -/
def storeEvents (db : Database) (watchers : Nat) (items : List Datum) : List Event :=
  db.builtWatchers.map fun watcher => .stored watchers watcher.slot (items.getD watcher.slot .null)

/-- All that a run does before it runs the bindings, in order: the bindings are kept and linked, the
array for the watchers is kept, the watchers are stored and wired. -/
def earlierEvents (db : Database) (bindings watchers : Nat) (objects items : List Datum) :
    List Event :=
  [.assigned .document RuntimeName.bindings (.object bindings)] ++
    db.pairs.flatMap (linkEvents objects) ++
    [.assigned .document RuntimeName.watchers (.object watchers)] ++
    storeEvents db watchers items ++ db.builtWatchers.flatMap (wireEvents items)

/-- Everything that a run does, in order. -/
def events (db : Database) (bindings watchers : Nat) (objects items : List Datum) : List Event :=
  earlierEvents db bindings watchers objects items ++ executeEvents objects

/-- The memory at the end of a run: the two arrays that the document has kept, and what has been
done on the way. -/
structure Rebuilt (context : ConstructorContext) (before after : Memory) (out : Emission)
    (bindings watchers : Nat) (objects items : List Datum) : Prop where
  bindings_kept : Kept after RuntimeName.bindings bindings objects
  watchers_kept : Kept after RuntimeName.watchers watchers items
  isBinding : List.Forall₂ (Datum.IsBinding after.Holds out.Names context.config context.resolver)
    context.database.bindings objects
  nodup_objects : objects.Nodup
  length_items : items.length = context.database.watchers.length
  /-- The slots of watchers that have not been constructed hold null. -/
  null : ∀ slot, slot ∉ context.database.builtWatchers.map Watcher.slot →
    items.getD slot .null = .null
  isWatcher : ∀ watcher ∈ context.database.builtWatchers,
    (items.getD watcher.slot .null).IsWatcher after.Holds out.Names context.config
      context.resolver objects watcher
  injective : ∀ watcher ∈ context.database.builtWatchers,
    ∀ other ∈ context.database.builtWatchers,
    items.getD watcher.slot .null = items.getD other.slot .null → watcher.slot = other.slot
  journal_eq : after.journal =
    before.journal ++ events context.database bindings watchers objects items

/-- The code of the second and the third stage. -/
def middle (context : ConstructorContext) (out : Emission) : List Instruction :=
  (context.constructionAll true context.database.constructed (context.allocation out).2).1 ++
    context.database.constructed.flatMap rootWiring

theorem code_eq (context : ConstructorContext) (out : Emission) :
    (context.code out).1 = (context.allocation out).1 ++ context.middle out ++
      RuntimeObject.execution context.database.bindings.length := by
  simp only [code, middle, List.append_assoc]

/-! ## Between the stages -/

section Stages

variable {context : ConstructorContext} {before allocated populated : Memory}
  {out out' : Emission} {bindings watchers : Nat} {objects items items' : List Datum}

/-- The array of bindings is there while the array of watchers changes. -/
theorem Allocated.holdsBeside
    (h : context.Allocated before allocated out bindings watchers objects) :
    allocated.HoldsBeside watchers bindings (.array objects) :=
  ⟨h.bindings_ne, Memory.array?_eq_some_iff.mp h.bindings_kept.array?_eq⟩

/-- What stands for a binding is still an object when the watchers have been constructed. -/
theorem Allocated.isObject
    (h : context.Allocated before allocated out bindings watchers objects)
    (hholds : ∀ {address cell}, allocated.HoldsBeside watchers address cell →
      populated.HoldsBeside watchers address cell) :
    ∀ value ∈ objects, populated.IsObject value := by
  intro value hvalue
  obtain ⟨binding, -, hbinding⟩ := exists_of_forall₂ h.isBinding hvalue
  exact isObject_of_isBinding (hbinding.mono (fun hcell => (hholds hcell).2) id)

/-- Behind the first stage, a watcher can be constructed. -/
theorem Runnable.constructible (h : context.Runnable out) (hfollows : out.Follows out')
    (hlength : objects.length = context.database.bindings.length) {watcher : Watcher}
    (hmem : watcher ∈ context.database.builtWatchers) :
    context.Constructible objects context.database.watchers.length out' watcher where
  slot_lt := h.slot_lt watcher hmem
  bindings_lt := hlength ▸ h.bindings_lt watcher hmem
  proper := h.proper watcher hmem
  getter hroot hform := (h.getter watcher hmem hroot hform).mono hfollows.names

/-- A watcher that has been constructed is an object in its slot. -/
theorem Populated.inPlace {others : List Watcher}
    (h : context.Populated objects watchers allocated populated items items' out others)
    {watcher : Watcher} (hmem : watcher ∈ others) (hslot : watcher.slot < items'.length) :
    InPlace populated items' watcher.slot := by
  obtain ⟨address, name, args, heq, hcell⟩ := (h.isWatcher watcher hmem).exists_holds
  refine ⟨hslot, ?_⟩
  rw [heq]
  exact Memory.isObject_of_holds hcell.2

section Populated

variable (h : context.Allocated before allocated out bindings watchers objects)
  (h' : context.Populated objects watchers allocated populated
    (List.replicate context.database.watchers.length .null) items out'
    context.database.builtWatchers)
include h h'

/-- With the wiring, the journal tells of everything but the last stage. -/
theorem journal_note_wireEvents :
    (populated.note (context.database.builtWatchers.flatMap (wireEvents items))).journal =
      before.journal ++ earlierEvents context.database bindings watchers objects items := by
  rw [Memory.journal_note, h'.journal_eq, h.journal_eq]
  simp only [earlierEvents, storeEvents, List.append_assoc]

/-- What the first two stages leave in the memory is there at the end, since the others only add to
the journal. -/
theorem rebuilt_note (hfollows : out.Follows out') {more : List Event}
    (hjournal : (populated.note more).journal =
      before.journal ++ events context.database bindings watchers objects items) :
    context.Rebuilt before (populated.note more) out' bindings watchers objects items where
  bindings_kept := ⟨(congrFun h'.property_eq _).trans h.bindings_kept.property_eq,
    Memory.array?_eq_some_iff.mpr (h'.holds h.holdsBeside).2⟩
  watchers_kept := ⟨(congrFun h'.property_eq _).trans h.watchers_kept.property_eq, h'.array?_eq⟩
  isBinding := h.isBinding.imp fun binding value hbinding =>
    hbinding.mono (fun hcell => (h'.holds hcell).2) hfollows.names
  nodup_objects := h.nodup
  length_items := h'.length_eq.trans List.length_replicate
  null slot hslot := by
    rw [h'.elsewhere slot hslot, List.getD_eq_getElem?_getD, List.getElem?_replicate]
    split <;> rfl
  isWatcher watcher hmem := (h'.isWatcher watcher hmem).mono And.right id
  injective := h'.injective
  journal_eq := hjournal

end Populated

end Stages

/-! ## All stages -/

variable {numberSlot? : Float → Option Nat} {locals : Nat → Option Datum}

/-- The code of all four stages runs to its end: the first stage loads the two arrays, and when the
last one begins, everything but the bindings has been run. -/
theorem runs_code (context : ConstructorContext) {out : Emission} (hrunnable : context.Runnable out)
    (hreads : ReadsSlots numberSlot? context.database.bindings.length)
    (hreadsWatchers : ReadsSlots numberSlot? context.database.watchers.length)
    (hdocument : locals 0 = some .document) (stack : List Datum) (memory : Memory) :
    out.Follows (context.code out).2 ∧
      ∃ allocated wired after locals' bindings watchers objects items,
        Runs numberSlot? (context.allocation out).1 ⟨stack, locals⟩ memory
          ⟨stack, withArrays locals bindings watchers⟩ allocated ∧
        Runs numberSlot? (context.middle out) ⟨stack, withArrays locals bindings watchers⟩ allocated
          ⟨stack, locals'⟩ wired ∧
        Runs numberSlot? (RuntimeObject.execution context.database.bindings.length)
          ⟨stack, locals'⟩ wired ⟨stack, locals'⟩ after ∧
        wired.journal =
          memory.journal ++ earlierEvents context.database bindings watchers objects items ∧
        context.Rebuilt memory after (context.code out).2 bindings watchers objects items := by
  obtain ⟨hfollows, bindings, watchers, objects, allocated, hallocation, hallocated⟩ :=
    context.runs_allocation numberSlot? hdocument hreads hrunnable.pairs out stack memory
  have hlength : objects.length = context.database.bindings.length :=
    hallocated.isBinding.length_eq.symm
  have hloaded : ArraysLoaded numberSlot? (withArrays locals bindings watchers) bindings objects
      watchers context.database.watchers.length :=
    { local_document := hdocument
      local_bindings := rfl
      reads := hlength ▸ hreads
      local_watchers := rfl
      reads_watchers := hreadsWatchers }
  obtain ⟨populated, items, hconstruction, hpopulated, hfollows'⟩ :=
    yields_constructionAll hloaded none 0 context.database.constructed hallocated.holdsBeside
      hallocated.watchers_kept.array?_eq List.length_replicate hrunnable.nodup_slots
      fun watcher hmem => hrunnable.constructible hfollows hlength hmem
  have hitems : items.length = context.database.watchers.length :=
    hpopulated.length_eq.trans List.length_replicate
  have hplace (watcher : Watcher) (hmem : watcher ∈ context.database.builtWatchers) :
      InPlace populated items watcher.slot :=
    hpopulated.inPlace hmem (hitems ▸ hrunnable.slot_lt watcher hmem)
  rw [← hitems] at hloaded
  obtain ⟨locals', hloaded', hwiring⟩ := performs_rootWirings context.database.constructed
    hpopulated.array?_eq hplace (withArrays locals bindings watchers) stack hloaded
  let wired := populated.note (context.database.builtWatchers.flatMap (wireEvents items))
  have hwired : wired.journal =
      memory.journal ++ earlierEvents context.database bindings watchers objects items :=
    journal_note_wireEvents hallocated hpopulated
  have hexecution : Yields numberSlot? locals' wired (RuntimeObject.execution objects.length) []
      (wired.note (executeEvents objects)) :=
    yields_execution hloaded'.toBindingsLoaded
      (Memory.array?_eq_some_iff.mpr (hpopulated.holds hallocated.holdsBeside).2)
      (hallocated.isObject hpopulated.holds)
  have hjournal : (wired.note (executeEvents objects)).journal =
      memory.journal ++ events context.database bindings watchers objects items := by
    rw [Memory.journal_note, hwired, events, List.append_assoc]
  have hafter : wired.note (executeEvents objects) = populated.note
      (context.database.builtWatchers.flatMap (wireEvents items) ++ executeEvents objects) :=
    Memory.note_note populated _ _
  rw [hafter] at hexecution hjournal
  exact ⟨hfollows.trans hfollows', allocated, wired, _, locals', bindings, watchers, objects, items,
    hallocation, (hconstruction stack).append hwiring, hlength ▸ hexecution stack, hwired,
    rebuilt_note hallocated hpopulated hfollows' hjournal⟩

end ConstructorContext

end Bindery
