import Bindery.Proofs.Binding.Pairing
import Bindery.Proofs.Constructor.Run

/-!
# The events of a run

Different bindings and different watchers are different objects, and each event of a run is about
its own binding or watcher. So no event happens twice, and what has happened can be told by the name
of the property or method alone.
-/

namespace Bindery

/-- An event happens exactly once, and nothing else of its sort does. -/
structure Once (events : List Event) (sort : Event → Prop) (event : Event) : Prop where
  of_sort : sort event
  count_eq : events.count event = 1
  eq_of_sort : ∀ other ∈ events, sort other → other = event

theorem Once.of_nodup {events : List Event} (hnodup : events.Nodup) {sort : Event → Prop}
    {event : Event} (hsort : sort event) (hmem : event ∈ events)
    (honly : ∀ other ∈ events, sort other → other = event) : Once events sort event :=
  ⟨hsort, List.count_eq_one_of_mem hnodup hmem, honly⟩

namespace Event

/-- The name of the property or the method that an event is about. Elements of arrays have none. -/
def name? : Event → Option Name
  | assigned _ name _ => some name
  | stored .. => none
  | called _ name _ => some name

/-- Events without repetition, whose names are among some. -/
structure DistinctAmong (names : List (Option Name)) (events : List Event) : Prop where
  nodup : events.Nodup
  name?_mem : ∀ event ∈ events, event.name? ∈ names

/-- Events do not repeat others that are told apart by their names. -/
theorem DistinctAmong.append {names others : List (Option Name)} {first second : List Event}
    (h : DistinctAmong names first) (h' : DistinctAmong others second)
    (hnames : ∀ name ∈ names, name ∉ others) :
    DistinctAmong (names ++ others) (first ++ second) := by
  refine ⟨List.nodup_append.mpr ⟨h.nodup, h'.nodup, fun event hevent other hother heq => ?_⟩,
    fun event hevent => ?_⟩
  · subst heq
    exact hnames _ (h.name?_mem event hevent) (h'.name?_mem event hother)
  · rcases List.mem_append.mp hevent with hevent | hevent
    · exact List.mem_append_left _ (h.name?_mem event hevent)
    · exact List.mem_append_right _ (h'.name?_mem event hevent)

theorem DistinctAmong.assigned (object : Datum) (name : Name) (value : Datum) :
    DistinctAmong [some name] [.assigned object name value] :=
  ⟨List.nodup_singleton _, by simp [name?]⟩

/-- An event with another name stands behind some events. -/
theorem DistinctAmong.mem_right {names : List (Option Name)} {first second : List Event}
    (h : DistinctAmong names first) {event : Event} (hmem : event ∈ first ++ second)
    (hname : event.name? ∉ names) : event ∈ second :=
  (List.mem_append.mp hmem).resolve_left fun hfirst => hname (h.name?_mem event hfirst)

/-- An event with another name stands in front of some events. -/
theorem DistinctAmong.mem_left {names : List (Option Name)} {first second : List Event}
    (h : DistinctAmong names second) {event : Event} (hmem : event ∈ first ++ second)
    (hname : event.name? ∉ names) : event ∈ first :=
  (List.mem_append.mp hmem).resolve_right fun hsecond => hname (h.name?_mem event hsecond)

end Event

namespace ConstructorContext

/-- Different bindings and different watchers have become different objects, and pairs have no half
in common. -/
structure Separate (db : Database) (objects items : List Datum) : Prop where
  nodup_objects : objects.Nodup
  nodup_halves : (PairCandidate.halves db.pairs).Nodup
  halves_lt : ∀ slot ∈ PairCandidate.halves db.pairs, slot < objects.length
  nodup_slots : (db.watchers.map Watcher.slot).Nodup
  slot_lt : ∀ watcher ∈ db.watchers, watcher.slot < items.length
  injective : ∀ watcher ∈ db.builtWatchers, ∀ other ∈ db.builtWatchers,
    items.getD watcher.slot .null = items.getD other.slot .null → watcher.slot = other.slot

variable {db : Database} {objects items : List Datum} {event : Event}

namespace Separate

variable (h : Separate db objects items)
include h

/-- A binding is told by its object. -/
theorem slot_eq {a b : Nat} (ha : a < objects.length) (hb : b < objects.length)
    (heq : objects.getD a .null = objects.getD b .null) : a = b := by
  refine (List.getElem?_inj ha h.nodup_objects).mp ?_
  rw [Datum.getElem?_eq_getD ha, Datum.getElem?_eq_getD hb, heq]

theorem nodup_builtSlots : (db.builtWatchers.map Watcher.slot).Nodup :=
  h.nodup_slots.sublist (db.sublist_builtWatchers.map _)

/-- A constructed watcher is told by its object. -/
theorem watcher_eq {watcher other : Watcher} (hmem : watcher ∈ db.builtWatchers)
    (hother : other ∈ db.builtWatchers)
    (heq : items.getD watcher.slot .null = items.getD other.slot .null) : watcher = other :=
  List.inj_on_of_nodup_map h.nodup_builtSlots hmem hother
    (h.injective watcher hmem other hother heq)

/-- The slot of a watcher that is not constructed is not that of a constructed one. -/
theorem slot_notMem {watcher : Watcher} (hmem : watcher ∈ db.watchers)
    (hbuilt : ¬db.IsBuilt watcher) : watcher.slot ∉ db.builtWatchers.map Watcher.slot := by
  intro hslot
  obtain ⟨other, hother, heq⟩ := List.mem_map.mp hslot
  obtain ⟨hmem', hbuilt'⟩ := (Database.mem_builtWatchers_iff h.nodup_slots).mp hother
  obtain rfl := List.inj_on_of_nodup_map h.nodup_slots hmem' hmem heq
  exact hbuilt hbuilt'

end Separate

/-! ## Links -/

theorem mem_linkEvents_iff {pairs : List (Nat × Nat)} :
    event ∈ pairs.flatMap (linkEvents objects) ↔
      ∃ a b, ((a, b) ∈ pairs ∨ (b, a) ∈ pairs) ∧
        event = .assigned (objects.getD a .null) RuntimeName.twoWayCounterpart
          (objects.getD b .null) := by
  simp only [List.mem_flatMap, linkEvents, List.mem_cons, List.not_mem_nil, or_false]
  constructor
  · rintro ⟨⟨a, b⟩, hpair, rfl | rfl⟩
    · exact ⟨a, b, .inl hpair, rfl⟩
    · exact ⟨b, a, .inr hpair, rfl⟩
  · rintro ⟨a, b, hpair | hpair, rfl⟩
    · exact ⟨(a, b), hpair, .inl rfl⟩
    · exact ⟨(b, a), hpair, .inr rfl⟩

/-- The object that an event changes. -/
def changed : Event → Datum
  | .assigned object _ _ => object
  | .stored array _ _ => .object array
  | .called object _ _ => object

/-- Links change the two halves of every pair, one after the other. -/
theorem map_changed_linkEvents (objects : List Datum) (pairs : List (Nat × Nat)) :
    (pairs.flatMap (linkEvents objects)).map changed =
      (PairCandidate.halves pairs).map (objects.getD · .null) := by
  rw [PairCandidate.halves, List.map_flatMap, List.map_flatMap]
  rfl

theorem Separate.distinct_linkEvents (h : Separate db objects items) :
    Event.DistinctAmong [some RuntimeName.twoWayCounterpart]
      (db.pairs.flatMap (linkEvents objects)) := by
  constructor
  · refine List.Nodup.of_map changed ?_
    rw [map_changed_linkEvents]
    exact h.nodup_halves.map_on fun a ha b hb heq =>
      h.slot_eq (h.halves_lt a ha) (h.halves_lt b hb) heq
  · intro event hevent
    obtain ⟨a, b, -, rfl⟩ := mem_linkEvents_iff.mp hevent
    exact List.mem_singleton_self _

/-! ## Watchers -/

theorem mem_wireEvents_iff {watcher : Watcher} :
    event ∈ wireEvents items watcher ↔
      (watcher.parent = none ∧ event = .called (items.getD watcher.slot .null)
        RuntimeName.updateParent [rootValue watcher.watched]) ∨
      ∃ parent, watcher.parent = some parent ∧
        ((watcher.watched.kind.form = .function ∧
          event = .assigned (items.getD watcher.slot .null) RuntimeName.parentWatcher
            (items.getD parent .null)) ∨
        event = .called (items.getD parent .null) RuntimeName.addChild
          [items.getD watcher.slot .null]) := by
  unfold wireEvents
  cases watcher.parent with
  | none => simp
  | some parent =>
    by_cases hform : watcher.watched.kind.form = .function <;> simp [joinEvents, hform]

/-- An event of wiring is about one watcher. -/
theorem value_eq_of_mem_wireEvents {watcher other : Watcher}
    (h : event ∈ wireEvents items watcher) (h' : event ∈ wireEvents items other) :
    items.getD watcher.slot .null = items.getD other.slot .null := by
  have hapart : RuntimeName.updateParent ≠ RuntimeName.addChild := by decide
  rcases mem_wireEvents_iff.mp h with ⟨-, rfl⟩ | ⟨parent, -, ⟨-, rfl⟩ | rfl⟩ <;>
    rcases mem_wireEvents_iff.mp h' with ⟨-, heq⟩ | ⟨parent', -, ⟨-, heq⟩ | heq⟩
  all_goals first
    | exact (Event.called.inj heq).1
    | exact (Event.assigned.inj heq).1
    | exact (List.cons.inj (Event.called.inj heq).2.2).1
    | exact absurd (Event.called.inj heq).2.1 hapart
    | exact absurd (Event.called.inj heq).2.1 hapart.symm
    | exact Event.noConfusion heq

theorem Separate.nodup_builtWatchers (h : Separate db objects items) : db.builtWatchers.Nodup :=
  h.nodup_builtSlots.of_map _

theorem Separate.distinct_storeEvents (h : Separate db objects items) (watchers : Nat) :
    Event.DistinctAmong [none] (storeEvents db watchers items) := by
  constructor
  · exact h.nodup_builtWatchers.map_on fun _ hmem _ hother heq =>
      List.inj_on_of_nodup_map h.nodup_builtSlots hmem hother (Event.stored.inj heq).2.1
  · intro event hevent
    obtain ⟨watcher, -, rfl⟩ := List.mem_map.mp hevent
    exact List.mem_singleton_self _

theorem Separate.distinct_wireEvents (h : Separate db objects items) :
    Event.DistinctAmong [some RuntimeName.updateParent, some RuntimeName.parentWatcher,
      some RuntimeName.addChild] (db.builtWatchers.flatMap (wireEvents items)) := by
  constructor
  · refine List.nodup_flatMap.mpr ⟨fun watcher _ => ?_, ?_⟩
    · unfold wireEvents
      cases watcher.parent with
      | none => simp
      | some parent =>
        by_cases hform : watcher.watched.kind.form = .function <;> simp [joinEvents, hform]
    · refine h.nodup_builtWatchers.imp_of_mem fun hmem hother hne event hevent hevent' => ?_
      exact hne (h.watcher_eq hmem hother (value_eq_of_mem_wireEvents hevent hevent'))
  · intro event hevent
    obtain ⟨watcher, -, hevent⟩ := List.mem_flatMap.mp hevent
    rcases mem_wireEvents_iff.mp hevent with ⟨-, rfl⟩ | ⟨parent, -, ⟨-, rfl⟩ | rfl⟩ <;>
      simp [Event.name?]

/-! ## All events -/

theorem mem_events_of_mem_wireEvents {bindings watchers : Nat} {watcher : Watcher}
    (hmem : watcher ∈ db.builtWatchers) (hevent : event ∈ wireEvents items watcher) :
    event ∈ events db bindings watchers objects items := by
  have hwire : event ∈ db.builtWatchers.flatMap (wireEvents items) :=
    List.mem_flatMap.mpr ⟨watcher, hmem, hevent⟩
  rw [events, earlierEvents]
  exact List.mem_append_left _ (List.mem_append_right _ hwire)

theorem Separate.distinct_executeEvents (h : Separate db objects items) :
    Event.DistinctAmong [some RuntimeName.execute] (executeEvents objects) := by
  constructor
  · exact h.nodup_objects.map fun _ _ heq => (Event.called.inj heq).1
  · intro event hevent
    obtain ⟨object, -, rfl⟩ := List.mem_map.mp hevent
    exact List.mem_singleton_self _

section All

variable (h : Separate db objects items) (bindings watchers : Nat)
include h

theorem Separate.distinct_keptEvents :
    Event.DistinctAmong [some RuntimeName.bindings, some RuntimeName.twoWayCounterpart,
        some RuntimeName.watchers]
      ([.assigned .document RuntimeName.bindings (.object bindings)] ++
        db.pairs.flatMap (linkEvents objects) ++
        [.assigned .document RuntimeName.watchers (.object watchers)]) :=
  ((Event.DistinctAmong.assigned _ _ _).append h.distinct_linkEvents (by decide)).append
    (.assigned _ _ _) (by decide)

theorem Separate.distinct_earlierEvents :
    Event.DistinctAmong [some RuntimeName.bindings, some RuntimeName.twoWayCounterpart,
        some RuntimeName.watchers, none, some RuntimeName.updateParent,
        some RuntimeName.parentWatcher, some RuntimeName.addChild]
      (earlierEvents db bindings watchers objects items) :=
  ((h.distinct_keptEvents bindings watchers).append (h.distinct_storeEvents watchers)
    (by decide)).append h.distinct_wireEvents (by decide)

/-- No event happens twice. -/
theorem Separate.nodup_events : (events db bindings watchers objects items).Nodup :=
  ((h.distinct_earlierEvents bindings watchers).append h.distinct_executeEvents (by decide)).nodup

variable {bindings watchers}

/-- Only the third stage wires watchers. -/
theorem Separate.exists_mem_wireEvents (hmem : event ∈ events db bindings watchers objects items)
    (hname : event.name? ∈ [some RuntimeName.updateParent, some RuntimeName.parentWatcher,
      some RuntimeName.addChild]) :
    ∃ watcher ∈ db.builtWatchers, event ∈ wireEvents items watcher := by
  have hlast : ∀ name ∈ [some RuntimeName.updateParent, some RuntimeName.parentWatcher,
      some RuntimeName.addChild], name ∉ [some RuntimeName.execute] := by decide
  have hfirst : ∀ name ∈ [some RuntimeName.updateParent, some RuntimeName.parentWatcher,
      some RuntimeName.addChild], name ∉ [some RuntimeName.bindings,
        some RuntimeName.twoWayCounterpart, some RuntimeName.watchers] ++ [none] := by decide
  have hearlier := h.distinct_executeEvents.mem_left hmem (hlast _ hname)
  have hstored := (h.distinct_keptEvents bindings watchers).append (h.distinct_storeEvents watchers)
    (by decide)
  exact List.mem_flatMap.mp (hstored.mem_right hearlier (hfirst _ hname))

/-- Only the second stage stores watchers. -/
theorem Separate.mem_storeEvents (hmem : event ∈ events db bindings watchers objects items)
    (hname : event.name? = none) : event ∈ storeEvents db watchers items := by
  have hearlier := h.distinct_executeEvents.mem_left hmem (hname ▸ by decide)
  have hstored := h.distinct_wireEvents.mem_left hearlier (hname ▸ by decide)
  exact (h.distinct_keptEvents bindings watchers).mem_right hstored (hname ▸ by decide)

/-- Only the first stage links bindings. -/
theorem Separate.exists_linked (hmem : event ∈ events db bindings watchers objects items)
    (hname : event.name? = some RuntimeName.twoWayCounterpart) :
    ∃ a b, ((a, b) ∈ db.pairs ∨ (b, a) ∈ db.pairs) ∧
      event = .assigned (objects.getD a .null) RuntimeName.twoWayCounterpart
        (objects.getD b .null) := by
  have hearlier := h.distinct_executeEvents.mem_left hmem (hname ▸ by decide)
  have hstored := h.distinct_wireEvents.mem_left hearlier (hname ▸ by decide)
  have hkept := (h.distinct_storeEvents watchers).mem_left hstored (hname ▸ by decide)
  have hlinks := (Event.DistinctAmong.assigned _ _ _).mem_left hkept (hname ▸ by decide)
  exact mem_linkEvents_iff.mp
    ((Event.DistinctAmong.assigned _ _ _).mem_right hlinks (hname ▸ by decide))

end All

end ConstructorContext

end Bindery
