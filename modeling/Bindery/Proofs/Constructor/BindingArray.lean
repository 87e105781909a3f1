import Bindery.Proofs.Constructor.Compiled
import Bindery.Proofs.Constructor.Locals

/-!
# The bindings that constructed code leaves

Running the constructor code of a document leaves the array of its bindings, links the halves of
two-way bindings with each other, and runs every binding once at the very end.
-/

namespace Bindery

/-- The value that has been assigned last to a property of an object. -/
def lastAssigned? (events : List Event) (object : Datum) (name : Name) : Option Datum :=
  events.reverse.findSome? fun
    | .assigned other property value =>
      if other = object ∧ property = name then some value else none
    | _ => none

/-- The bindings of a database as a run of constructed code leaves them, and the events of the run
that are about them. -/
structure BindingArray (db : Database) (config : Config) (resolver : Resolver) (out : Emission)
    (after : Memory) (events : List Event) (array : Nat) (objects : List Datum) : Prop where
  /-- The document has kept the array of bindings. -/
  kept : ConstructorContext.Kept after RuntimeName.bindings array objects
  /-- One after the other, the elements stand for the bindings. -/
  isBinding : List.Forall₂ (Datum.IsBinding after.Holds out.Names config resolver) db.bindings
    objects
  /-- Different bindings are different objects. -/
  nodup : objects.Nodup
  /-- Two bindings are linked if they are a pair, and otherwise not. -/
  linked_iff : ∀ {a b : Nat} {first second : Datum}, objects[a]? = some first →
    objects[b]? = some second →
    (lastAssigned? events first RuntimeName.twoWayCounterpart = some second ↔ db.Paired a b)
  /-- Only bindings are linked, and each one once. -/
  linked_once : ∀ {first second : Datum},
    .assigned first RuntimeName.twoWayCounterpart second ∈ events →
      first ∈ objects ∧ second ∈ objects ∧
        Once events (fun event => ∃ other,
            event = .assigned first RuntimeName.twoWayCounterpart other)
          (.assigned first RuntimeName.twoWayCounterpart second)
  /-- Links lead both ways. -/
  linked_symm : ∀ {first second : Datum},
    lastAssigned? events first RuntimeName.twoWayCounterpart = some second →
      lastAssigned? events second RuntimeName.twoWayCounterpart = some first
  /-- No binding is linked to two others. -/
  linked_unique : ∀ {first second other : Datum},
    lastAssigned? events first RuntimeName.twoWayCounterpart = some other →
      lastAssigned? events second RuntimeName.twoWayCounterpart = some other → first = second
  paired_unique : ∀ {a b c : Nat}, db.Paired a b → db.Paired a c → b = c
  /-- No binding is linked to itself. -/
  not_linked_self : ∀ first : Datum,
    lastAssigned? events first RuntimeName.twoWayCounterpart ≠ some first
  not_paired_self : ∀ a : Nat, ¬db.Paired a a

/-- Code that ends with running some bindings, each of them once and in order: none of them runs
before, and nothing else happens from then on. -/
def EndsWithExecution (numberSlot? : Float → Option Nat) (code : List Instruction)
    (frame : Frame Datum) (memory : Memory) (events : List Event) (objects : List Datum) : Prop :=
  ∃ front frame' wired earlier, code = front ++ RuntimeObject.execution objects.length ∧
    Runs numberSlot? front frame memory frame' wired ∧ wired.journal = memory.journal ++ earlier ∧
    events = earlier ++ (objects.map fun object => .called object RuntimeName.execute []) ∧
    ∀ object args, .called object RuntimeName.execute args ∉ earlier

/-- Constructor code runs to its end, and leaves the bindings of its database. The local variables
that hold the arrays of bindings and watchers are only read once they hold them, and the bindings
run at the very end. -/
def ConstructorCode.LeavesBindings (code : ConstructorCode) (config : Config) (resolver : Resolver)
    (out : Emission) (numberSlot? : Float → Option Nat) (frame : Frame Datum) (memory : Memory) :
    Prop :=
  ∃ frame' after events bindings watchers objects items,
    Runs numberSlot? code.instructions frame memory frame' after ∧
      after.journal = memory.journal ++ events ∧
      BindingArray code.database config resolver out after events bindings objects ∧
      EndsWithExecution numberSlot? code.instructions frame memory events objects ∧
      ConstructorContext.Kept after RuntimeName.watchers watchers items ∧
      ReadsAs numberSlot? code.instructions frame memory 1 (.object bindings) ∧
      ReadsAs numberSlot? code.instructions frame memory 2 (.object watchers)

/-! ## Links -/

theorem mem_of_lastAssigned? {events : List Event} {object value : Datum} {name : Name}
    (h : lastAssigned? events object name = some value) : .assigned object name value ∈ events := by
  obtain ⟨event, hmem, hvalue⟩ := List.exists_of_findSome?_eq_some h
  split at hvalue
  · next other property value' =>
    split at hvalue
    · next heq =>
      obtain ⟨rfl, rfl⟩ := heq
      rw [← Option.some.inj hvalue]
      exact List.mem_reverse.mp hmem
    · simp at hvalue
  · simp at hvalue

/-- What has been assigned once has been assigned last. -/
theorem Once.lastAssigned?_eq {events : List Event} {object value : Datum} {name : Name}
    (h : Once events (fun event => ∃ other, event = .assigned object name other)
      (.assigned object name value)) : lastAssigned? events object name = some value := by
  have hmem : .assigned object name value ∈ events := List.count_pos_iff.mp (by simp [h.count_eq])
  cases hlast : lastAssigned? events object name with
  | none =>
    have hnone := List.findSome?_eq_none_iff.mp hlast _ (List.mem_reverse.mpr hmem)
    simp at hnone
  | some other =>
    have heq := h.eq_of_sort _ (mem_of_lastAssigned? hlast) ⟨other, rfl⟩
    rw [(Event.assigned.inj heq).2.2]

namespace ConstructorContext.Separate

variable {db : Database} {objects items : List Datum} {bindings watchers : Nat}
  (h : Separate db objects items)
include h

theorem linked_once {a b : Nat} (hpaired : db.Paired a b) :
    Once (events db bindings watchers objects items)
      (fun event => ∃ other,
        event = .assigned (objects.getD a .null) RuntimeName.twoWayCounterpart other)
      (.assigned (objects.getD a .null) RuntimeName.twoWayCounterpart (objects.getD b .null)) := by
  refine .of_nodup (h.nodup_events bindings watchers) ⟨_, rfl⟩ ?_ ?_
  · have hlink : .assigned (objects.getD a .null) RuntimeName.twoWayCounterpart
        (objects.getD b .null) ∈ db.pairs.flatMap (linkEvents objects) :=
      mem_linkEvents_iff.mpr ⟨a, b, hpaired, rfl⟩
    simp only [events, earlierEvents, List.append_assoc]
    exact List.mem_append_right _ (List.mem_append_left _ hlink)
  · rintro _ hmem ⟨other, rfl⟩
    obtain ⟨a', b', hpaired', heq⟩ := h.exists_linked hmem rfl
    obtain ⟨hfirst, -, rfl⟩ := Event.assigned.inj heq
    obtain rfl := h.slot_eq (h.halves_lt a hpaired.mem_halves)
      (h.halves_lt a' (Database.Paired.mem_halves hpaired')) hfirst
    rw [hpaired.unique h.nodup_halves hpaired']

/-- What is linked is the two halves of a pair. -/
theorem lastAssigned?_eq_some_iff {first second : Datum} :
    lastAssigned? (events db bindings watchers objects items) first
        RuntimeName.twoWayCounterpart = some second ↔
      ∃ a b, db.Paired a b ∧ first = objects.getD a .null ∧ second = objects.getD b .null := by
  constructor
  · intro hlast
    obtain ⟨a, b, hpaired, heq⟩ := h.exists_linked (mem_of_lastAssigned? hlast) rfl
    obtain ⟨hfirst, -, hsecond⟩ := Event.assigned.inj heq
    exact ⟨a, b, hpaired, hfirst, hsecond⟩
  · rintro ⟨a, b, hpaired, rfl, rfl⟩
    exact (h.linked_once hpaired).lastAssigned?_eq

/-- The first half of a pair is a binding. -/
theorem getElem?_of_paired {a b : Nat} (hpaired : db.Paired a b) :
    objects[a]? = some (objects.getD a .null) :=
  Datum.getElem?_eq_getD (h.halves_lt a hpaired.mem_halves)

theorem slot_eq_of_getElem? {a b : Nat} {value : Datum} (ha : objects[a]? = some value)
    (hb : objects[b]? = some value) : a = b := by
  have hlt : a < objects.length := (List.getElem?_eq_some_iff.mp ha).1
  exact (List.getElem?_inj hlt h.nodup_objects).mp (ha.trans hb.symm)

theorem linked_iff {a b : Nat} {first second : Datum} (hfirst : objects[a]? = some first)
    (hsecond : objects[b]? = some second) :
    lastAssigned? (events db bindings watchers objects items) first
        RuntimeName.twoWayCounterpart = some second ↔ db.Paired a b := by
  rw [h.lastAssigned?_eq_some_iff]
  constructor
  · rintro ⟨a', b', hpaired, rfl, rfl⟩
    obtain rfl := h.slot_eq_of_getElem? hfirst (h.getElem?_of_paired hpaired)
    obtain rfl := h.slot_eq_of_getElem? hsecond (h.getElem?_of_paired hpaired.symm)
    exact hpaired
  · intro hpaired
    have ha := hfirst.symm.trans (h.getElem?_of_paired hpaired)
    have hb := hsecond.symm.trans (h.getElem?_of_paired hpaired.symm)
    exact ⟨a, b, hpaired, Option.some.inj ha, Option.some.inj hb⟩

/-- The objects of two halves with the same counterpart are the same. -/
theorem linked_unique {first second other : Datum}
    (hfirst : lastAssigned? (events db bindings watchers objects items) first
      RuntimeName.twoWayCounterpart = some other)
    (hsecond : lastAssigned? (events db bindings watchers objects items) second
      RuntimeName.twoWayCounterpart = some other) : first = second := by
  obtain ⟨a, b, hpaired, rfl, rfl⟩ := h.lastAssigned?_eq_some_iff.mp hfirst
  obtain ⟨a', b', hpaired', rfl, heq⟩ := h.lastAssigned?_eq_some_iff.mp hsecond
  obtain rfl := h.slot_eq (h.halves_lt b hpaired.symm.mem_halves)
    (h.halves_lt b' hpaired'.symm.mem_halves) heq
  rw [hpaired.symm.unique h.nodup_halves hpaired'.symm]

theorem not_linked_self (first : Datum) :
    lastAssigned? (events db bindings watchers objects items) first
      RuntimeName.twoWayCounterpart ≠ some first := by
  intro hlast
  obtain ⟨a, b, hpaired, rfl, heq⟩ := h.lastAssigned?_eq_some_iff.mp hlast
  obtain rfl := h.slot_eq (h.halves_lt a hpaired.mem_halves)
    (h.halves_lt b hpaired.symm.mem_halves) heq
  exact Database.not_paired_self h.nodup_halves hpaired

/-- The array of bindings, from what a run leaves in the memory. -/
theorem bindingArray {config : Config} {resolver : Resolver} {out : Emission} {after : Memory}
    (hkept : Kept after RuntimeName.bindings bindings objects)
    (hbinding : List.Forall₂ (Datum.IsBinding after.Holds out.Names config resolver) db.bindings
      objects) :
    BindingArray db config resolver out after (events db bindings watchers objects items) bindings
      objects where
  kept := hkept
  isBinding := hbinding
  nodup := h.nodup_objects
  linked_iff := h.linked_iff
  linked_once hmem := by
    obtain ⟨a, b, hpaired, heq⟩ := h.exists_linked hmem rfl
    obtain ⟨rfl, -, rfl⟩ := Event.assigned.inj heq
    exact ⟨List.mem_of_getElem? (h.getElem?_of_paired hpaired),
      List.mem_of_getElem? (h.getElem?_of_paired (Database.Paired.symm hpaired)),
      h.linked_once hpaired⟩
  linked_symm hlast := by
    obtain ⟨a, b, hpaired, hfirst, hsecond⟩ := h.lastAssigned?_eq_some_iff.mp hlast
    exact h.lastAssigned?_eq_some_iff.mpr ⟨b, a, hpaired.symm, hsecond, hfirst⟩
  linked_unique := h.linked_unique
  paired_unique hpaired hpaired' := hpaired.unique h.nodup_halves hpaired'
  not_linked_self := h.not_linked_self
  not_paired_self _ := Database.not_paired_self h.nodup_halves

/-- Nothing is run before the last stage. -/
theorem called_execute_notMem {object : Datum} {args : List Datum} :
    .called object RuntimeName.execute args ∉ earlierEvents db bindings watchers objects items := by
  intro hmem
  have hname := (h.distinct_earlierEvents bindings watchers).name?_mem _ hmem
  rw [Event.name?] at hname
  revert hname
  decide

end ConstructorContext.Separate

/-! ## The whole run -/

/-- On every stack and memory, the constructor code of a document leaves the bindings that the
document records. A binding paired with itself is never reported. -/
theorem Document.leavesBindings_compile {doc : Document} {config : Config}
    {resolver : Resolver} {out out' : Emission} {code : ConstructorCode}
    (h : doc.compile config resolver out = (.ok (some code), out'))
    {numberSlot? : Float → Option Nat}
    (hbindings : ReadsSlots numberSlot? code.database.bindings.length)
    (hwatchers : ReadsSlots numberSlot? code.database.watchers.length)
    {locals : Nat → Option Datum} (hdocument : locals 0 = some .document) (stack : List Datum)
    (memory : Memory) :
    doc.Records config resolver code.database.bindings ∧
      ReportsOnly (¬·.IsOfSelfPair) out.problems out'.problems ∧
      code.LeavesBindings config resolver out' numberSlot? ⟨stack, locals⟩ memory := by
  obtain ⟨start, hcompiled⟩ := Document.exists_compiled h
  obtain ⟨hreports, allocated, wired, after, locals', bindings, watchers, objects, items,
    hallocation, hmiddle, hexecution, hwired, hrebuilt⟩ :=
    hcompiled.runs hbindings hwatchers hdocument stack memory
  have hseparate := hcompiled.separate hrebuilt
  have hlength : objects.length = code.database.bindings.length :=
    hrebuilt.isBinding.length_eq.symm
  have hreadsAs {slot : Nat} {value : Datum} (hne : slot ≠ 0) (hle : slot ≤ 2)
      (hvalue : ConstructorContext.withArrays locals bindings watchers slot = some value) :
      ReadsAs numberSlot? code.instructions ⟨stack, locals⟩ memory slot value := by
    rw [hcompiled.instructions_eq, List.append_assoc]
    refine readsAs_append (ConstructorContext.getLocal_notMem_allocation _ hne start) ?_ hallocation
      (hmiddle.append hexecution) hvalue
    simp [ConstructorContext.setLocal_notMem_middle _ hle,
      RuntimeObject.setLocal_notMem_execution]
  refine ⟨hcompiled.records, hreports, ⟨stack, locals'⟩, after, _, bindings, watchers, objects,
    items, ?_,
    hrebuilt.journal_eq, hseparate.bindingArray hrebuilt.bindings_kept hrebuilt.isBinding, ?_,
    hrebuilt.watchers_kept, hreadsAs (by omega) (by omega) rfl,
    hreadsAs (by omega) (by omega) rfl⟩
  · rw [hcompiled.instructions_eq]
    exact (hallocation.append hmiddle).append hexecution
  · refine ⟨_, _, wired, _, ?_, hallocation.append hmiddle, hwired, rfl,
      fun _ _ => hseparate.called_execute_notMem⟩
    rw [hcompiled.instructions_eq, hlength]

/-- A document with a user, who has a name, and with a label, which has a text. -/
def linkedResolver : Resolver where
  documentClass := "app.Main"
  member? type name :=
    if type = "app.Main" && name = "user" then
      some { name, kind := .variable, type := some "app.User", events := ["userChange"] }
    else if type = "app.Main" && name = "label" then
      some { name, kind := .variable, type := some "app.Label" }
    else if type = "app.User" && name = "name" || type = "app.Label" && name = "text" then
      some { name, kind := .variable, type := some "String", events := [name ++ "Change"] }
    else none
  global? _ := none
  class? qualified := some (Definition.ofClass qualified)

/-- A label whose text is `{user.name}` and the other way round. -/
def linkedDocument : Document :=
  (Document.ofClass "app.Main")
    |>.add 0 (.instance (some "label") "app.Label") .unknown
    |>.add 1 (.property "text") .unknown
    |>.add 2 (.data (Expr.path "user.name") true) .unknown

/-- Two bindings that are the reverse of each other. -/
theorem Document.leavesBindings_compile_linked :
    ∃ code out', linkedDocument.compile {} linkedResolver {} = (.ok (some code), out') ∧
      code.database.bindings.map (fun binding => (binding.sourceText, binding.destinationText)) =
        [(some "user.name", some "label.text"), (some "label.text", some "user.name")] ∧
      code.database.pairs = [(0, 1)] ∧
      linkedDocument.Records {} linkedResolver code.database.bindings ∧
      ReportsOnly (¬·.IsOfSelfPair) [] out'.problems ∧
      code.LeavesBindings {} linkedResolver out' (fun number => some number.toUInt64.toNat)
        ⟨[], fun slot => if slot = 0 then some .document else none⟩ ⟨[], fun _ => none, []⟩ := by
  obtain ⟨code, out', hcompile, hbindings, hpairs, hwatchers⟩ :
      ∃ code out', linkedDocument.compile {} linkedResolver {} = (.ok (some code), out') ∧
        code.database.bindings.map (fun binding => (binding.sourceText, binding.destinationText)) =
          [(some "user.name", some "label.text"), (some "label.text", some "user.name")] ∧
        code.database.pairs = [(0, 1)] ∧ code.database.watchers.length = 4 :=
    Document.exists_code (by decide +kernel)
  have hlength : code.database.bindings.length = 2 := by
    have h := congrArg List.length hbindings
    rwa [List.length_map] at h
  exact ⟨code, out', hcompile, hbindings, hpairs, Document.leavesBindings_compile hcompile
    (readsSlots_of_le (by omega)) (readsSlots_of_le (by omega)) rfl [] ⟨[], fun _ => none, []⟩⟩

end Bindery
