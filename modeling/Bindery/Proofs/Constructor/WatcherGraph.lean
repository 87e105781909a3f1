import Bindery.Proofs.Constructor.Compiled

/-!
# The watchers that constructed code leaves

Running the constructor code of a document rebuilds the graph of its watchers: which objects stand
in the array of watchers, what each of them has been told, and that nothing else has been told to
any of them.
-/

namespace Bindery

/-- A watcher whose root something can make fire, and the object in its slot. -/
structure BuiltAs (db : Database) (items : List Datum) (watcher : Watcher) (value : Datum) :
    Prop where
  mem : watcher ∈ db.watchers
  isBuilt : db.IsBuilt watcher
  getElem?_eq : items[watcher.slot]? = some value

/-- The watchers of a database as a run of constructed code leaves them, and the events of the run
that are about them. -/
structure WatcherGraph (db : Database) (config : Config) (resolver : Resolver) (out : Emission)
    (after : Memory) (events : List Event) (array : Nat) (objects items : List Datum) : Prop where
  /-- The document has kept the array of watchers. -/
  kept : ConstructorContext.Kept after RuntimeName.watchers array items
  /-- The document has kept the array of bindings, to which listeners refer. -/
  bindings_kept : ∃ bindings, ConstructorContext.Kept after RuntimeName.bindings bindings objects
  bindings_lt : ∀ watcher ∈ db.watchers, ∀ slot ∈ watcher.bindings, slot < objects.length
  /-- The array has one slot for every watcher. -/
  map_slot : db.watchers.map Watcher.slot = List.range items.length
  /-- Following parents from a watcher ends at one root. -/
  exists_root : ∀ watcher ∈ db.watchers, ∃! root, db.RootOf watcher root
  /-- A watcher whose root something can make fire is in its slot. -/
  built : ∀ watcher ∈ db.watchers, db.IsBuilt watcher → ∃ value, BuiltAs db items watcher value ∧
    value.IsWatcher after.Holds out.Names config resolver objects watcher
  /-- All other slots hold null. -/
  null : ∀ watcher ∈ db.watchers, ¬db.IsBuilt watcher → items[watcher.slot]? = some .null
  /-- Different watchers are different objects. -/
  injective : ∀ {watcher other value}, BuiltAs db items watcher value →
    BuiltAs db items other value → watcher = other
  /-- The slot of a watcher is written once. -/
  stored_once : ∀ {watcher value}, BuiltAs db items watcher value →
    Once events (fun event => ∃ other, event = .stored array watcher.slot other)
      (.stored array watcher.slot value)
  /-- Nothing else is written into any array. -/
  of_stored : ∀ {address slot value}, .stored address slot value ∈ events →
    address = array ∧ ∃ watcher, BuiltAs db items watcher value ∧ watcher.slot = slot
  /-- A root is told once what it watches. -/
  updateParent_once : ∀ {root value}, BuiltAs db items root value → root.parent = none →
    Once events (fun event => ∃ args, event = .called value RuntimeName.updateParent args)
      (.called value RuntimeName.updateParent [ConstructorContext.rootValue root.watched])
  /-- Nothing but a root is told what it watches. -/
  of_updateParent : ∀ {value args}, .called value RuntimeName.updateParent args ∈ events →
    ∃ root, BuiltAs db items root value ∧ root.parent = none
  /-- Parents and children are those of the database. -/
  mem_children_iff : ∀ parent ∈ db.watchers, ∀ slot, slot ∈ parent.children ↔
    ∃ child ∈ db.watchers, child.slot = slot ∧ child.parent = some parent.slot
  /-- A watcher with a parent is added once, and to its parent. -/
  addChild_once : ∀ {child value slot}, BuiltAs db items child value → child.parent = some slot →
    ∃ parent above, BuiltAs db items parent above ∧ parent.slot = slot ∧
      Once events (fun event => ∃ other, event = .called other RuntimeName.addChild [value])
        (.called above RuntimeName.addChild [value])
  /-- Nothing else is added to anything. -/
  of_addChild : ∀ {above args}, .called above RuntimeName.addChild args ∈ events →
    ∃ parent child value, BuiltAs db items parent above ∧ BuiltAs db items child value ∧
      child.parent = some parent.slot ∧ args = [value]
  /-- The watcher of a function is told its parent once, right before it is added to it. -/
  parentWatcher_once : ∀ {child value parent above}, BuiltAs db items child value →
    BuiltAs db items parent above → child.parent = some parent.slot →
    child.watched.kind.form = .function →
    Once events (fun event => ∃ other, event = .assigned value RuntimeName.parentWatcher other)
        (.assigned value RuntimeName.parentWatcher above) ∧
      [.assigned value RuntimeName.parentWatcher above,
        .called above RuntimeName.addChild [value]] <:+: events
  /-- No other watcher is told its parent. -/
  of_parentWatcher : ∀ {value above},
    .assigned value RuntimeName.parentWatcher above ∈ events →
    ∃ parent child, BuiltAs db items parent above ∧ BuiltAs db items child value ∧
      child.parent = some parent.slot ∧ child.watched.kind.form = .function

/-- Constructor code runs to its end, and leaves the watchers of its database. -/
def ConstructorCode.LeavesWatchers (code : ConstructorCode) (config : Config) (resolver : Resolver)
    (out : Emission) (numberSlot? : Float → Option Nat) (frame : Frame Datum) (memory : Memory) :
    Prop :=
  ∃ frame' after events array objects items,
    Runs numberSlot? code.instructions frame memory frame' after ∧
      after.journal = memory.journal ++ events ∧
      WatcherGraph code.database config resolver out after events array objects items

/-! ## Events about watchers -/

namespace ConstructorContext.Separate

variable {db : Database} {objects items : List Datum} {bindings watchers : Nat}
  {watcher : Watcher} {value : Datum} (h : Separate db objects items)
include h

theorem builtAs_iff : BuiltAs db items watcher value ↔
    watcher ∈ db.builtWatchers ∧ items.getD watcher.slot .null = value := by
  rw [Database.mem_builtWatchers_iff h.nodup_slots]
  constructor
  · rintro ⟨hmem, hbuilt, hvalue⟩
    exact ⟨⟨hmem, hbuilt⟩, by rw [List.getD_eq_getElem?_getD, hvalue, Option.getD_some]⟩
  · rintro ⟨⟨hmem, hbuilt⟩, rfl⟩
    exact ⟨hmem, hbuilt, Datum.getElem?_eq_getD (h.slot_lt watcher hmem)⟩

theorem builtAs_getD (hmem : watcher ∈ db.builtWatchers) :
    BuiltAs db items watcher (items.getD watcher.slot .null) :=
  h.builtAs_iff.mpr ⟨hmem, rfl⟩

theorem builtAs_unique {other : Watcher} (hbuilt : BuiltAs db items watcher value)
    (hother : BuiltAs db items other value) : watcher = other := by
  obtain ⟨hmem, rfl⟩ := h.builtAs_iff.mp hbuilt
  obtain ⟨hmem', heq⟩ := h.builtAs_iff.mp hother
  exact h.watcher_eq hmem hmem' heq.symm

/-- The parent of a constructed watcher is constructed. -/
theorem exists_parent (hbuilt : BuiltAs db items watcher value) {slot : Nat}
    (hslot : watcher.parent = some slot) :
    ∃ parent, BuiltAs db items parent (items.getD slot .null) ∧ parent.slot = slot := by
  obtain ⟨parent, hmem, rfl, hparent⟩ := hbuilt.isBuilt.exists_parent hslot
  exact ⟨parent, ⟨hmem, hparent, Datum.getElem?_eq_getD (h.slot_lt parent hmem)⟩, rfl⟩

/-! ### Stores -/

theorem of_stored {address slot : Nat}
    (hmem : .stored address slot value ∈ events db bindings watchers objects items) :
    address = watchers ∧ ∃ watcher, BuiltAs db items watcher value ∧ watcher.slot = slot := by
  obtain ⟨watcher, hwatcher, heq⟩ := List.mem_map.mp (h.mem_storeEvents hmem rfl)
  obtain ⟨rfl, rfl, rfl⟩ := Event.stored.inj heq
  exact ⟨rfl, watcher, h.builtAs_getD hwatcher, rfl⟩

theorem stored_once (hbuilt : BuiltAs db items watcher value) :
    Once (events db bindings watchers objects items)
      (fun event => ∃ other, event = .stored watchers watcher.slot other)
      (.stored watchers watcher.slot value) := by
  refine .of_nodup (h.nodup_events bindings watchers) ⟨value, rfl⟩ ?_ ?_
  · obtain ⟨hmem, rfl⟩ := h.builtAs_iff.mp hbuilt
    have hstored : Event.stored watchers watcher.slot (items.getD watcher.slot .null) ∈
        storeEvents db watchers items := List.mem_map_of_mem hmem
    rw [events, earlierEvents]
    exact List.mem_append_left _ (List.mem_append_left _ (List.mem_append_right _ hstored))
  · rintro _ hmem ⟨other, rfl⟩
    obtain ⟨-, watcher', hother, hslot⟩ := h.of_stored hmem
    have hvalue := hother.getElem?_eq
    rw [hslot, hbuilt.getElem?_eq] at hvalue
    rw [Option.some.inj hvalue]

/-! ### Wiring -/

theorem exists_of_updateParent {args : List Datum}
    (hmem : .called value RuntimeName.updateParent args ∈
      events db bindings watchers objects items) :
    ∃ root, BuiltAs db items root value ∧ root.parent = none ∧ args = [rootValue root.watched] := by
  obtain ⟨root, hroot, hevent⟩ := h.exists_mem_wireEvents hmem (by simp [Event.name?])
  rcases mem_wireEvents_iff.mp hevent with ⟨hnone, heq⟩ | ⟨slot, -, ⟨-, heq⟩ | heq⟩
  · obtain ⟨rfl, -, rfl⟩ := Event.called.inj heq
    exact ⟨root, h.builtAs_getD hroot, hnone, rfl⟩
  · exact Event.noConfusion heq
  · exact absurd (Event.called.inj heq).2.1 (by decide)

theorem updateParent_once (hbuilt : BuiltAs db items watcher value)
    (hnone : watcher.parent = none) :
    Once (events db bindings watchers objects items)
      (fun event => ∃ args, event = .called value RuntimeName.updateParent args)
      (.called value RuntimeName.updateParent [rootValue watcher.watched]) := by
  refine .of_nodup (h.nodup_events bindings watchers) ⟨_, rfl⟩ ?_ ?_
  · obtain ⟨hmem, rfl⟩ := h.builtAs_iff.mp hbuilt
    exact mem_events_of_mem_wireEvents hmem (mem_wireEvents_iff.mpr (.inl ⟨hnone, rfl⟩))
  · rintro _ hmem ⟨args, rfl⟩
    obtain ⟨root, hroot, -, rfl⟩ := h.exists_of_updateParent hmem
    rw [h.builtAs_unique hbuilt hroot]

theorem exists_of_addChild {above : Datum} {args : List Datum}
    (hmem : .called above RuntimeName.addChild args ∈
      events db bindings watchers objects items) :
    ∃ parent child value, BuiltAs db items parent above ∧ BuiltAs db items child value ∧
      child.parent = some parent.slot ∧ args = [value] := by
  obtain ⟨child, hchild, hevent⟩ := h.exists_mem_wireEvents hmem (by simp [Event.name?])
  rcases mem_wireEvents_iff.mp hevent with ⟨-, heq⟩ | ⟨slot, hslot, ⟨-, heq⟩ | heq⟩
  · exact absurd (Event.called.inj heq).2.1 (by decide)
  · exact Event.noConfusion heq
  · obtain ⟨rfl, -, rfl⟩ := Event.called.inj heq
    have hbuilt := h.builtAs_getD hchild
    obtain ⟨parent, hparent, rfl⟩ := h.exists_parent hbuilt hslot
    exact ⟨parent, child, _, hparent, hbuilt, hslot, rfl⟩

theorem addChild_once (hbuilt : BuiltAs db items watcher value) {parent : Watcher} {above : Datum}
    (habove : BuiltAs db items parent above) (hslot : watcher.parent = some parent.slot) :
    Once (events db bindings watchers objects items)
      (fun event => ∃ other, event = .called other RuntimeName.addChild [value])
      (.called above RuntimeName.addChild [value]) := by
  refine .of_nodup (h.nodup_events bindings watchers) ⟨above, rfl⟩ ?_ ?_
  · obtain ⟨hmem, rfl⟩ := h.builtAs_iff.mp hbuilt
    obtain ⟨-, rfl⟩ := h.builtAs_iff.mp habove
    exact mem_events_of_mem_wireEvents hmem
      (mem_wireEvents_iff.mpr (.inr ⟨parent.slot, hslot, .inr rfl⟩))
  · rintro _ hmem ⟨other, rfl⟩
    obtain ⟨parent', child, _, hparent', hchild, hslot', heq⟩ := h.exists_of_addChild hmem
    obtain rfl := (List.cons.inj heq).1
    obtain rfl := h.builtAs_unique hbuilt hchild
    have hvalue := hparent'.getElem?_eq
    rw [Option.some.inj (hslot'.symm.trans hslot), habove.getElem?_eq] at hvalue
    rw [Option.some.inj hvalue]

theorem exists_of_parentWatcher {above : Datum}
    (hmem : .assigned value RuntimeName.parentWatcher above ∈
      events db bindings watchers objects items) :
    ∃ parent child, BuiltAs db items parent above ∧ BuiltAs db items child value ∧
      child.parent = some parent.slot ∧ child.watched.kind.form = .function := by
  obtain ⟨child, hchild, hevent⟩ := h.exists_mem_wireEvents hmem (by simp [Event.name?])
  rcases mem_wireEvents_iff.mp hevent with ⟨-, heq⟩ | ⟨slot, hslot, ⟨hform, heq⟩ | heq⟩
  · exact Event.noConfusion heq
  · obtain ⟨rfl, -, rfl⟩ := Event.assigned.inj heq
    have hbuilt := h.builtAs_getD hchild
    obtain ⟨parent, hparent, rfl⟩ := h.exists_parent hbuilt hslot
    exact ⟨parent, child, hparent, hbuilt, hslot, hform⟩
  · exact Event.noConfusion heq

theorem parentWatcher_once (hbuilt : BuiltAs db items watcher value) {parent : Watcher}
    {above : Datum} (habove : BuiltAs db items parent above)
    (hslot : watcher.parent = some parent.slot) (hform : watcher.watched.kind.form = .function) :
    Once (events db bindings watchers objects items)
      (fun event => ∃ other, event = .assigned value RuntimeName.parentWatcher other)
      (.assigned value RuntimeName.parentWatcher above) := by
  refine .of_nodup (h.nodup_events bindings watchers) ⟨above, rfl⟩ ?_ ?_
  · obtain ⟨hmem, rfl⟩ := h.builtAs_iff.mp hbuilt
    obtain ⟨-, rfl⟩ := h.builtAs_iff.mp habove
    exact mem_events_of_mem_wireEvents hmem
      (mem_wireEvents_iff.mpr (.inr ⟨parent.slot, hslot, .inl ⟨hform, rfl⟩⟩))
  · rintro _ hmem ⟨other, rfl⟩
    obtain ⟨parent', child, hparent', hchild, hslot', -⟩ := h.exists_of_parentWatcher hmem
    obtain rfl := h.builtAs_unique hbuilt hchild
    have hvalue := hparent'.getElem?_eq
    rw [Option.some.inj (hslot'.symm.trans hslot), habove.getElem?_eq] at hvalue
    rw [Option.some.inj hvalue]

/-- The watcher of a function is told its parent right before it is added to it. -/
theorem joinEvents_infix (hbuilt : BuiltAs db items watcher value) {parent : Watcher}
    {above : Datum} (habove : BuiltAs db items parent above)
    (hslot : watcher.parent = some parent.slot)
    (hform : watcher.watched.kind.form = .function) :
    [.assigned value RuntimeName.parentWatcher above,
      .called above RuntimeName.addChild [value]] <:+:
        events db bindings watchers objects items := by
  obtain ⟨hmem, rfl⟩ := h.builtAs_iff.mp hbuilt
  obtain ⟨-, rfl⟩ := h.builtAs_iff.mp habove
  have hjoin : wireEvents items watcher = [.assigned (items.getD watcher.slot .null)
      RuntimeName.parentWatcher (items.getD parent.slot .null),
      .called (items.getD parent.slot .null) RuntimeName.addChild
        [items.getD watcher.slot .null]] := by
    simp [wireEvents, hslot, joinEvents, hform]
  have hwire : wireEvents items watcher <:+: db.builtWatchers.flatMap (wireEvents items) := by
    rw [List.flatMap_def]
    exact List.infix_of_mem_flatten (List.mem_map_of_mem hmem)
  rw [← hjoin, events, earlierEvents]
  exact (hwire.trans (List.suffix_append _ _).isInfix).trans (List.prefix_append _ _).isInfix

end ConstructorContext.Separate

/-! ## The whole graph -/

/-- The graph of watchers, from what a run leaves in the memory. -/
theorem Compiled.watcherGraph {doc : Document} {config : Config} {resolver : Resolver}
    {out out' start : Emission} {code : ConstructorCode}
    (h : Compiled doc config resolver out out' code start) {before after : Memory}
    {bindings watchers : Nat} {objects items : List Datum}
    (hrebuilt : (code.context config resolver).Rebuilt before after out' bindings watchers objects
      items) :
    WatcherGraph code.database config resolver out' after
      (ConstructorContext.events code.database bindings watchers objects items) watchers objects
      items := by
  have hseparate := h.separate hrebuilt
  have hobjects : objects.length = code.database.bindings.length :=
    hrebuilt.isBinding.length_eq.symm
  exact {
    kept := hrebuilt.watchers_kept
    bindings_kept := ⟨bindings, hrebuilt.bindings_kept⟩
    bindings_lt := fun watcher hmem slot hslot => hobjects ▸ h.bindings_lt hmem hslot
    map_slot := hrebuilt.length_items ▸ h.map_slot
    exists_root := fun watcher hmem => by
      obtain ⟨root, hroot⟩ := Database.exists_rootOf hmem
      exact ⟨root, hroot, fun other hother => hother.unique hseparate.nodup_slots hroot⟩
    built := fun watcher hmem hbuilt => by
      have hwatcher := (Database.mem_builtWatchers_iff hseparate.nodup_slots).mpr ⟨hmem, hbuilt⟩
      exact ⟨_, hseparate.builtAs_getD hwatcher, hrebuilt.isWatcher watcher hwatcher⟩
    null := fun watcher hmem hbuilt => by
      have hslot := hseparate.slot_notMem hmem hbuilt
      rw [Datum.getElem?_eq_getD (hseparate.slot_lt watcher hmem), hrebuilt.null _ hslot]
    injective := hseparate.builtAs_unique
    stored_once := hseparate.stored_once
    of_stored := hseparate.of_stored
    updateParent_once := hseparate.updateParent_once
    of_updateParent := fun hmem => by
      obtain ⟨root, hroot, hnone, -⟩ := hseparate.exists_of_updateParent hmem
      exact ⟨root, hroot, hnone⟩
    mem_children_iff := fun parent hmem slot =>
      WatchChain.mem_children_iff hseparate.nodup_slots hmem
    addChild_once := fun hchild hslot => by
      obtain ⟨parent, hparent, rfl⟩ := hseparate.exists_parent hchild hslot
      exact ⟨parent, _, hparent, rfl, hseparate.addChild_once hchild hparent hslot⟩
    of_addChild := hseparate.exists_of_addChild
    parentWatcher_once := fun hchild hparent hslot hform =>
      ⟨hseparate.parentWatcher_once hchild hparent hslot hform,
        hseparate.joinEvents_infix hchild hparent hslot hform⟩
    of_parentWatcher := hseparate.exists_of_parentWatcher }

/-- On every stack and memory, the constructor code of a document leaves the watchers of its
database. -/
theorem Document.leavesWatchers_compile {doc : Document} {config : Config}
    {resolver : Resolver} {out out' : Emission} {code : ConstructorCode}
    (h : doc.compile config resolver out = (.ok (some code), out'))
    {numberSlot? : Float → Option Nat}
    (hbindings : ReadsSlots numberSlot? code.database.bindings.length)
    (hwatchers : ReadsSlots numberSlot? code.database.watchers.length)
    {locals : Nat → Option Datum} (hdocument : locals 0 = some .document) (stack : List Datum)
    (memory : Memory) :
    code.LeavesWatchers config resolver out' numberSlot? ⟨stack, locals⟩ memory := by
  obtain ⟨start, hcompiled⟩ := Document.exists_compiled h
  obtain ⟨-, allocated, wired, after, locals', bindings, watchers, objects, items, hallocation,
    hmiddle, hexecution, -, hrebuilt⟩ := hcompiled.runs hbindings hwatchers hdocument stack memory
  have hgraph := hcompiled.watcherGraph hrebuilt
  refine ⟨⟨stack, locals'⟩, after, _, watchers, objects, items, ?_, hrebuilt.journal_eq, hgraph⟩
  rw [hcompiled.instructions_eq]
  exact (hallocation.append hmiddle).append hexecution

/-- A document with a user, who has a greeting, and with two texts of its own, of which only the
title announces its changes. -/
def greetingResolver : Resolver where
  documentClass := "app.Main"
  member? type name :=
    if type = "app.Main" && name = "user" then
      some { name, kind := .variable, type := some "app.User", events := ["userChange"] }
    else if type = "app.Main" && name = "title" then
      some { name, kind := .variable, type := some "String", events := ["titleChange"] }
    else if type = "app.Main" && name = "motto" then
      some { name, kind := .variable, type := some "String" }
    else if type = "app.User" && name = "greeting" then
      some { name, kind := .function, type := some "String", events := ["userChange"] }
    else none
  global? _ := none
  class? qualified := some (Definition.ofClass qualified)

/-- A label whose text is `{user.greeting(title)}` and whose tip is `{motto}`. -/
def greetingDocument : Document :=
  (Document.ofClass "app.Main")
    |>.add 0 (.instance (some "label") "app.Label") .unknown
    |>.add 1 (.property "text") .unknown
    |>.add 2 (.data (.call (Expr.path "user.greeting") [Expr.path "title"] .unknown) false) .unknown
    |>.add 1 (.property "tip") .unknown
    |>.add 4 (.data (Expr.path "motto") false) .unknown

/-- Four watchers, one of them of a function and one that nothing can make fire. -/
theorem Document.leavesWatchers_compile_greeting :
    ∃ code out', greetingDocument.compile {} greetingResolver {} = (.ok (some code), out') ∧
      code.database.watchers.map (fun watcher =>
          (watcher.watched.name, watcher.parent, watcher.isUnobservable)) =
        [("title", none, false), ("user", none, false), ("greeting", some 1, false),
          ("motto", none, true)] ∧
      code.LeavesWatchers {} greetingResolver out' (fun number => some number.toUInt64.toNat)
        ⟨[], fun slot => if slot = 0 then some .document else none⟩ ⟨[], fun _ => none, []⟩ := by
  obtain ⟨code, out', hcompile, hbindings, hwatchers⟩ :
      ∃ code out', greetingDocument.compile {} greetingResolver {} = (.ok (some code), out') ∧
        code.database.bindings.length = 2 ∧
        code.database.watchers.map (fun watcher =>
            (watcher.watched.name, watcher.parent, watcher.isUnobservable)) =
          [("title", none, false), ("user", none, false), ("greeting", some 1, false),
            ("motto", none, true)] :=
    Document.exists_code (by decide +kernel)
  have hlength : code.database.watchers.length = 4 := by
    have h := congrArg List.length hwatchers
    rwa [List.length_map] at h
  exact ⟨code, out', hcompile, hwatchers, Document.leavesWatchers_compile hcompile
    (readsSlots_of_le (by omega)) (readsSlots_of_le (by omega)) rfl [] ⟨[], fun _ => none, []⟩⟩

end Bindery
