import Bindery.Proofs.Constructor.Allocation

/-!
# The second stage of constructed code

The watchers of the chains that something can make fire are constructed one after the other, each
into its slot of the array. What one watcher does to the memory composes: the slots of others, the
objects that are there and everything else stay as they are.
-/

namespace Bindery

variable {numberSlot? : Float → Option Nat} {locals : Nat → Option Datum}

/-- A value that stands for a watcher is an object that has been described by some cell. -/
theorem Datum.IsWatcher.exists_holds {holds : Nat → Cell → Prop}
    {emitted : MethodHandle → Method → Prop} {config : Config} {resolver : Resolver}
    {bindings : List Datum} {watcher : Watcher} {value : Datum}
    (h : value.IsWatcher holds emitted config resolver bindings watcher) :
    ∃ address name args, value = .object address ∧ holds address (.record name args) := by
  obtain ⟨listeners, -, h⟩ := h
  split at h
  · obtain ⟨_, _, -, -, address, hvalue, hcell⟩ := h
    exact ⟨address, _, _, hvalue, hcell⟩
  · obtain ⟨_, -, address, hvalue, hcell⟩ := h
    exact ⟨address, _, _, hvalue, hcell⟩
  · obtain ⟨_, _, -, -, address, hvalue, hcell⟩ := h
    exact ⟨address, _, _, hvalue, hcell⟩
  · obtain ⟨-, address, hvalue, hcell⟩ := h
    exact ⟨address, _, _, hvalue, hcell⟩

namespace ConstructorContext

/-- Some watchers have been constructed into their slots of an array. -/
structure Populated (context : ConstructorContext) (objects : List Datum) (array : Nat)
    (before after : Memory) (items items' : List Datum) (out : Emission)
    (watchers : List Watcher) : Prop where
  array?_eq : after.array? array = some items'
  length_eq : items'.length = items.length
  /-- Other slots are as they were. -/
  elsewhere : ∀ slot, slot ∉ watchers.map Watcher.slot →
    items'.getD slot .null = items.getD slot .null
  isWatcher : ∀ watcher ∈ watchers, (items'.getD watcher.slot .null).IsWatcher
    (after.HoldsBeside array) out.Names context.config context.resolver objects watcher
  /-- Every watcher is an object of its own. -/
  fresh : ∀ watcher ∈ watchers, ∃ address, items'.getD watcher.slot .null = .object address ∧
    before.cells.length ≤ address ∧ address < after.cells.length
  injective : ∀ watcher ∈ watchers, ∀ other ∈ watchers,
    items'.getD watcher.slot .null = items'.getD other.slot .null → watcher.slot = other.slot
  holds : ∀ {address cell}, before.HoldsBeside array address cell →
    after.HoldsBeside array address cell
  length_le : before.cells.length ≤ after.cells.length
  property_eq : after.property = before.property
  journal_eq : after.journal = before.journal ++
    watchers.map fun watcher => .stored array watcher.slot (items'.getD watcher.slot .null)

namespace Populated

variable {context : ConstructorContext} {objects items items' items'' : List Datum} {array : Nat}
  {before middle after : Memory} {out out' : Emission} {watchers others : List Watcher}

theorem nil (h : before.array? array = some items) :
    context.Populated objects array before before items items out [] where
  array?_eq := h
  length_eq := rfl
  elsewhere _ _ := rfl
  isWatcher := nofun
  fresh := nofun
  injective := nofun
  holds := id
  length_le := Nat.le_refl _
  property_eq := rfl
  journal_eq := (List.append_nil _).symm

/-- An object that has been constructed before is at another address than one that is constructed
later. -/
theorem getD_ne (h : context.Populated objects array before middle items items' out watchers)
    (h' : context.Populated objects array middle after items' items'' out' others)
    {watcher other : Watcher} (hmem : watcher ∈ watchers) (hother : other ∈ others) :
    items'.getD watcher.slot .null ≠ items''.getD other.slot .null := by
  obtain ⟨address, heq, -, hlt⟩ := h.fresh watcher hmem
  obtain ⟨address', heq', hle, -⟩ := h'.fresh other hother
  rw [heq, heq']
  intro hsame
  have haddress := Datum.object.inj hsame
  omega

/-- Watchers in different slots do not disturb each other. -/
theorem append (h : context.Populated objects array before middle items items' out watchers)
    (h' : context.Populated objects array middle after items' items'' out' others)
    (hfollows : out.Follows out')
    (hslots : ((watchers ++ others).map Watcher.slot).Nodup) :
    context.Populated objects array before after items items'' out' (watchers ++ others) := by
  rw [List.map_append, List.nodup_append] at hslots
  obtain ⟨-, -, hdisjoint⟩ := hslots
  have hkept (watcher : Watcher) (hmem : watcher ∈ watchers) :
      items''.getD watcher.slot .null = items'.getD watcher.slot .null :=
    h'.elsewhere _ fun hother => hdisjoint _ (List.mem_map_of_mem hmem) _ hother rfl
  have hapart (watcher : Watcher) (hmem : watcher ∈ watchers) (other : Watcher)
      (hother : other ∈ others) :
      items''.getD watcher.slot .null ≠ items''.getD other.slot .null := by
    rw [hkept watcher hmem]
    exact h.getD_ne h' hmem hother
  refine {
    array?_eq := h'.array?_eq
    length_eq := h'.length_eq.trans h.length_eq
    elsewhere := fun slot hslot => ?_
    isWatcher := fun watcher hmem => ?_
    fresh := fun watcher hmem => ?_
    injective := fun watcher hmem other hother heq => ?_
    holds := h'.holds ∘ h.holds
    length_le := Nat.le_trans h.length_le h'.length_le
    property_eq := h'.property_eq.trans h.property_eq
    journal_eq := ?_ }
  · rw [List.map_append, List.mem_append, not_or] at hslot
    rw [h'.elsewhere slot hslot.2, h.elsewhere slot hslot.1]
  · rcases List.mem_append.mp hmem with hmem | hmem
    · rw [hkept watcher hmem]
      exact (h.isWatcher watcher hmem).mono h'.holds hfollows.names
    · exact h'.isWatcher watcher hmem
  · rcases List.mem_append.mp hmem with hmem | hmem
    · obtain ⟨address, heq, hle, hlt⟩ := h.fresh watcher hmem
      have := h'.length_le
      exact ⟨address, (hkept watcher hmem).trans heq, hle, by omega⟩
    · obtain ⟨address, heq, hle, hlt⟩ := h'.fresh watcher hmem
      have := h.length_le
      exact ⟨address, heq, by omega, hlt⟩
  · rcases List.mem_append.mp hmem with hmem | hmem <;>
      rcases List.mem_append.mp hother with hother | hother
    · rw [hkept watcher hmem, hkept other hother] at heq
      exact h.injective watcher hmem other hother heq
    · exact absurd heq (hapart watcher hmem other hother)
    · exact absurd heq.symm (hapart other hother watcher hmem)
    · exact h'.injective watcher hmem other hother heq
  · rw [h'.journal_eq, h.journal_eq, List.map_append, List.append_assoc]
    congr 2
    refine List.map_congr_left fun watcher hmem => ?_
    rw [hkept watcher hmem]

/-- One watcher whose object has just been constructed. -/
theorem single {watcher : Watcher} {value : Datum} (hitems : before.array? array = some items)
    (hgrows : before.Grows middle) (hslot : watcher.slot < items.length)
    (hvalue : value.IsWatcher (middle.HoldsSince before.cells.length) out.Names context.config
      context.resolver objects watcher) :
    context.Populated objects array before (middle.store array items watcher.slot value) items
      (items.set watcher.slot value) out [watcher] := by
  have harray : array < before.cells.length :=
    (List.getElem?_eq_some_iff.mp (Memory.array?_eq_some_iff.mp hitems)).1
  have hlength : (middle.store array items watcher.slot value).cells.length =
      middle.cells.length := by
    simp [Memory.store]
  have hset : (items.set watcher.slot value).getD watcher.slot .null = value := by
    rw [List.getD_eq_getElem?_getD, List.getElem?_set_self hslot]
    rfl
  obtain ⟨address, name, args, heq, hle, hcell⟩ := hvalue.exists_holds
  have hlt : address < middle.cells.length := (List.getElem?_eq_some_iff.mp hcell).1
  refine {
    array?_eq := Memory.array?_store (hgrows.array? hitems)
    length_eq := List.length_set
    elsewhere := fun slot hslot => ?_
    isWatcher := fun other hother => ?_
    fresh := fun other hother => ?_
    injective := fun other hother another hanother _ => ?_
    holds := fun hcell => Memory.holdsBeside_store.mpr ⟨hcell.1, hgrows.holds hcell.2⟩
    length_le := hlength ▸ hgrows.length_le
    property_eq := hgrows.property_eq
    journal_eq := ?_ }
  · have hne : watcher.slot ≠ slot := fun heq => hslot (by simp [heq])
    rw [List.getD_eq_getElem?_getD, List.getElem?_set_ne hne, ← List.getD_eq_getElem?_getD]
  · obtain rfl := List.mem_singleton.mp hother
    rw [hset]
    refine hvalue.mono (fun {address cell} hcell => ?_) id
    have := hcell.1
    exact Memory.holdsBeside_store.mpr ⟨by omega, hcell.2⟩
  · obtain rfl := List.mem_singleton.mp hother
    exact ⟨address, hset.trans heq, hle, hlength ▸ hlt⟩
  · rw [List.mem_singleton.mp hother, List.mem_singleton.mp hanother]
  · rw [List.map_singleton, hset, Memory.store, hgrows.journal_eq]

end Populated

/-! ## Running the code -/

/-- What the code of watchers relies on: besides the bindings, local 2 is the array of so many
watchers. -/
structure ArraysLoaded (numberSlot? : Float → Option Nat) (locals : Nat → Option Datum)
    (bindings : Nat) (objects : List Datum) (watchers count : Nat) : Prop
    extends BindingsLoaded numberSlot? locals bindings objects where
  local_watchers : locals 2 = some (.object watchers)
  reads_watchers : ReadsSlots numberSlot? count

/-- A watcher that can be constructed into an array of some length: it depends on bindings that are
there, and if it is a root that watches a property, there is the closure that it needs. -/
structure Constructible (context : ConstructorContext) (objects : List Datum) (count : Nat)
    (out : Emission) (watcher : Watcher) : Prop where
  slot_lt : watcher.slot < count
  bindings_lt : ∀ slot ∈ watcher.bindings, slot < objects.length
  proper : watcher.watched.Proper
  getter : watcher.isRoot → watcher.watched.kind.form = .property →
    Datum.IsClosure out.Names (.ofHandle? context.propertyGetter) (some (.ok .propertyGetter))

theorem Constructible.later {context : ConstructorContext} {objects : List Datum} {count : Nat}
    {out out' : Emission} {watcher : Watcher} (h : context.Constructible objects count out watcher)
    (hfollows : out.Follows out') : context.Constructible objects count out' watcher :=
  { h with getter := fun hroot hform => (h.getter hroot hform).mono hfollows.names }

section Running

variable {context : ConstructorContext} {objects : List Datum} {bindings array count : Nat}

/-- The code of one watcher constructs it into its slot. -/
theorem yields_stored (hloaded : ArraysLoaded numberSlot? locals bindings objects array count)
    {memory : Memory} {items : List Datum} {out : Emission} {watcher : Watcher}
    (hbindings : memory.HoldsBeside array bindings (.array objects))
    (hitems : memory.array? array = some items) (hcount : items.length = count)
    (h : context.Constructible objects count out watcher) :
    let made := RuntimeObject.watcher context.config context.resolver context.propertyGetter
      watcher.isRoot watcher.watched watcher.bindings out
    ∃ memory' items', Yields numberSlot? locals memory
        ([.getLocal 2, .pushNat watcher.slot] ++ made.1 ++
          [.setProperty RuntimeName.arrayIndex]) [] memory' ∧
      context.Populated objects array memory memory' items items' made.2 [watcher] ∧
      out.Follows made.2 := by
  intro made
  obtain ⟨value, memory', hmade, hgrows, hfollows, hvalue⟩ :=
    RuntimeObject.yields_watcher context.config context.resolver hloaded.toBindingsLoaded
      (Memory.array?_eq_some_iff.mpr hbindings.2) watcher h.bindings_lt h.proper h.getter
  have hslot : watcher.slot < items.length := hcount ▸ h.slot_lt
  have hargs := ((Yields.getLocal hloaded.local_watchers memory).append
    (.pushNat watcher.slot memory)).append hmade
  exact ⟨_, _, hargs.writeAt (hloaded.reads_watchers.slot?_ofSlot h.slot_lt)
    (hgrows.array? hitems) hslot, .single hitems hgrows hslot hvalue, hfollows⟩

mutual

/-- The code of a chain constructs all its watchers into their slots. -/
theorem yields_construction
    (hloaded : ArraysLoaded numberSlot? locals bindings objects array count)
    (parent : Option Nat) (depth : Nat) {memory : Memory} {items : List Datum} {out : Emission} :
    (chain : WatchChain) →
    memory.HoldsBeside array bindings (.array objects) → memory.array? array = some items →
    items.length = count → ((chain.watchers parent depth).map Watcher.slot).Nodup →
    (∀ watcher ∈ chain.watchers parent depth, context.Constructible objects count out watcher) →
    ∃ memory' items', Yields numberSlot? locals memory
        (construction context parent.isNone chain out).1 [] memory' ∧
      context.Populated objects array memory memory' items items'
        (construction context parent.isNone chain out).2 (chain.watchers parent depth) ∧
      out.Follows (construction context parent.isNone chain out).2
  | .link slot watched slots children, hbindings, hitems, hcount, hslots, hall => by
    rw [WatchChain.watchers] at hslots hall ⊢
    rw [construction]
    obtain ⟨middle, items', hfirst, hpopulated, hfollows⟩ :=
      yields_stored hloaded hbindings hitems hcount (hall _ List.mem_cons_self)
    obtain ⟨after, items'', hrest, hpopulated', hfollows'⟩ :=
      yields_constructionAll hloaded (some slot) (depth + 1) children
        (hpopulated.holds hbindings) hpopulated.array?_eq (hpopulated.length_eq.trans hcount)
        (List.nodup_cons.mp hslots).2
        fun watcher hmem => (hall watcher (List.mem_cons_of_mem _ hmem)).later hfollows
    exact ⟨after, items'', hfirst.append hrest, hpopulated.append hpopulated' hfollows' hslots,
      hfollows.trans hfollows'⟩

/-- The code of several chains constructs all their watchers into their slots. -/
theorem yields_constructionAll
    (hloaded : ArraysLoaded numberSlot? locals bindings objects array count)
    (parent : Option Nat) (depth : Nat) {memory : Memory} {items : List Datum} {out : Emission} :
    (chains : List WatchChain) →
    memory.HoldsBeside array bindings (.array objects) → memory.array? array = some items →
    items.length = count →
    ((WatchChain.watchersAll parent depth chains).map Watcher.slot).Nodup →
    (∀ watcher ∈ WatchChain.watchersAll parent depth chains,
      context.Constructible objects count out watcher) →
    ∃ memory' items', Yields numberSlot? locals memory
        (constructionAll context parent.isNone chains out).1 [] memory' ∧
      context.Populated objects array memory memory' items items'
        (constructionAll context parent.isNone chains out).2
        (WatchChain.watchersAll parent depth chains) ∧
      out.Follows (constructionAll context parent.isNone chains out).2
  | [], _, hitems, _, _, _ => by
    rw [constructionAll, WatchChain.watchersAll]
    exact ⟨memory, items, .nil memory, .nil hitems, .refl out⟩
  | chain :: chains, hbindings, hitems, hcount, hslots, hall => by
    rw [WatchChain.watchersAll] at hslots hall ⊢
    rw [constructionAll]
    have hboth := hslots
    rw [List.map_append, List.nodup_append] at hboth
    obtain ⟨middle, items', hfirst, hpopulated, hfollows⟩ :=
      yields_construction hloaded parent depth chain hbindings hitems hcount hboth.1
        fun watcher hmem => hall watcher (List.mem_append_left _ hmem)
    obtain ⟨after, items'', hrest, hpopulated', hfollows'⟩ :=
      yields_constructionAll hloaded parent depth chains (hpopulated.holds hbindings)
        hpopulated.array?_eq (hpopulated.length_eq.trans hcount) hboth.2.1
        fun watcher hmem => (hall watcher (List.mem_append_right _ hmem)).later hfollows
    exact ⟨after, items'', hfirst.append hrest, hpopulated.append hpopulated' hfollows' hslots,
      hfollows.trans hfollows'⟩

end

end Running

end ConstructorContext

end Bindery
