import Bindery.Proofs.Constructor.Events
import Bindery.Proofs.Watch.Forms

/-!
# Forms of watchers and constructed code

The four forms of watchers are constructed and wired in different ways, and the code relies on the
places at which they occur. No chain starts with a part of an XML value, nothing above such a part
is left out, and a root that is told a class watches a static property of it.
-/

namespace Bindery

open ConstructorContext

namespace Database

/-- Events that tell all roots what they watch, and nothing else to anything: to the root of a
static property its class, and to those of properties and functions the document. -/
def TellsRoots (db : Database) (items : List Datum) (events : List Event) : Prop :=
  ∀ value args, .called value RuntimeName.updateParent args ∈ events ↔
    ∃ root ∈ db.builtWatchers, root.parent = none ∧ items.getD root.slot .null = value ∧
      ((∃ owner, root.watched.kind = .staticProperty owner ∧
          args = [.classObject (.ofQualified owner)]) ∨
        (root.watched.kind.form = .property ∨ root.watched.kind.form = .function) ∧
          args = [.document])

/-- Watchers have forms that are possible where they stand. -/
structure FormsFit (db : Database) : Prop where
  /-- A part of an XML value hangs from another watcher, and no event announces it. -/
  of_xml : ∀ watcher ∈ db.watchers, watcher.watched.kind.form = .xml →
    watcher.parent ≠ none ∧ watcher.watched.events = []
  /-- A static property starts a chain. -/
  of_static : ∀ watcher ∈ db.watchers, watcher.watched.kind.form = .staticProperty →
    watcher.parent = none
  /-- What hangs from another watcher is a property, a function or a part of an XML value. -/
  of_child : ∀ watcher ∈ db.watchers, watcher.parent ≠ none →
    watcher.watched.kind.form = .property ∨ watcher.watched.kind.form = .function ∨
      watcher.watched.kind.form = .xml
  /-- What hangs from a part of an XML value is such a part or a function. -/
  behind_xml : ∀ parent ∈ db.watchers, ∀ child ∈ db.watchers, child.parent = some parent.slot →
    parent.watched.kind.form = .xml →
      child.watched.kind.form = .xml ∨ child.watched.kind.form = .function
  /-- No chain starts with a part of an XML value. -/
  of_root : ∀ chain ∈ db.chains, chain.watched.kind.form ≠ .xml
  /-- All parts of XML values are constructed. -/
  built : ∀ watcher ∈ db.watchers, watcher.watched.kind.form = .xml → watcher ∈ db.builtWatchers
  /-- With the constructed watchers in their slots, the wiring tells a class to the roots of static
  properties and to nothing else. -/
  wired : ∀ {numberSlot? : Float → Option Nat} {memory : Memory} {bindings watchers : Nat}
    {objects items : List Datum}, memory.array? watchers = some items →
    (∀ watcher ∈ db.builtWatchers, InPlace memory items watcher.slot) →
    ∃ events, db.TellsRoots items events ∧
      Performs numberSlot? (HoldArrays numberSlot? bindings objects watchers items.length) memory
        (db.constructed.flatMap rootWiring) (memory.note events)

/-- Where no root is a part of an XML value, the wiring tells them what they watch. -/
theorem tellsRoots_wireEvents {db : Database}
    (h : ∀ watcher ∈ db.builtWatchers, watcher.parent = none → watcher.watched.kind.form ≠ .xml)
    (items : List Datum) : db.TellsRoots items (db.builtWatchers.flatMap (wireEvents items)) := by
  have hvalue {root : Watcher} (hmem : root ∈ db.builtWatchers) (hnone : root.parent = none)
      (args : List Datum) : args = [rootValue root.watched] ↔
        ((∃ owner, root.watched.kind = .staticProperty owner ∧
            args = [.classObject (.ofQualified owner)]) ∨
          (root.watched.kind.form = .property ∨ root.watched.kind.form = .function) ∧
            args = [.document]) := by
    have hform := h root hmem hnone
    unfold rootValue
    cases hkind : root.watched.kind with
    | xml => simp [hkind, WatchedKind.form] at hform
    | _ => simp [WatchedKind.form]
  intro value args
  rw [List.mem_flatMap]
  refine exists_congr fun root => and_congr_right fun hmem => ?_
  rw [mem_wireEvents_iff]
  constructor
  · rintro (⟨hnone, heq⟩ | ⟨parent, -, ⟨-, heq⟩ | heq⟩)
    · obtain ⟨rfl, -, hargs⟩ := Event.called.inj heq
      exact ⟨hnone, rfl, (hvalue hmem hnone args).mp hargs⟩
    · exact Event.noConfusion heq
    · exact absurd (Event.called.inj heq).2.1 (by decide)
  · rintro ⟨hnone, rfl, hargs⟩
    rw [(hvalue hmem hnone args).mpr hargs]
    exact .inl ⟨hnone, rfl⟩

/-- **Forms respect their places.** Whatever names resolve to and whatever is bound: a part of an
XML value never starts a chain and has no events, a static property always does, and behind parts of
XML values there are only further parts and calls. So the code constructs all parts of XML values,
never wires one as a root, and tells a class to the roots that watch a static property of it, and
the document to all others. -/
theorem formsFit_ofBindings (resolver : Resolver) (bindings : List Binding) :
    (ofBindings resolver bindings).1.FormsFit := by
  set db := (ofBindings resolver bindings).1
  have hxml : ∀ watcher ∈ db.watchers, watcher.watched.kind.form = .xml →
      watcher.parent ≠ none ∧ watcher.watched.events = [] :=
    fun _ => parent_ne_none_of_xml
  have hroots : ∀ watcher ∈ db.builtWatchers, watcher.parent = none →
      watcher.watched.kind.form ≠ .xml := fun watcher hmem hnone hform =>
    (hxml watcher (db.sublist_builtWatchers.subset hmem) hform).1 hnone
  exact {
    of_xml := hxml
    of_static := fun _ => parent_eq_none_of_static
    of_child := fun watcher hmem hparent => by
      have hform := mt (parent_eq_none_of_static hmem) hparent
      cases hkind : watcher.watched.kind.form <;> simp_all
    behind_xml := fun _ hparent _ hchild => form_of_parent_xml hparent hchild
    of_root := fun chain hchain hform => by
      have hroot := rootOf_rootWatcher hchain
        (chain.watchers_eq_cons ▸ List.mem_cons_self)
      exact (hxml _ hroot.mem_watchers hform).1 rfl
    built := fun watcher hmem hform =>
      mem_builtWatchers_of_parent hmem (hxml watcher hmem hform).1
    wired := fun hitems hplace =>
      ⟨_, tellsRoots_wireEvents hroots _, performs_rootWirings db.constructed hitems hplace⟩ }

/-- A document with a feed of XML values, settings of unknown type, and a class with a total. -/
def feedTable : SymbolTable :=
  let feed : Definition :=
    { name := "feed", kind := .variable, type := some "XML", events := ["feedChange"] }
  let settings : Definition := { name := "settings", kind := .variable, type := some "Object" }
  let total : Definition :=
    { name := "total", kind := .variable, type := some "int", isStatic := true
      events := ["totalChange"] }
  .ofDeclarations "app.Main"
    [.ownMember feed, .ownMember settings, .member "app.Totals" total]

/-- The database of `{feed.entry.title}`, `{feed.entry.text()}`, `{Totals.total}` and
`{settings.theme}`. -/
def feedDatabase : Database :=
  let sources : List Expr :=
    [.path "feed.entry.title", .call (.path "feed.entry.text") [] .unknown, .path "Totals.total",
      .path "settings.theme"]
  (ofBindings feedTable.resolver (sources.foldl
    (fun bindings source =>
      Binding.record feedTable.resolver (some source) none .unknown bindings) [])).1

/-- Seven objects in an array at the first address. -/
def sevenObjects : List Datum := (List.range 7).map fun slot => .object (slot + 1)

/-- The array and the objects. -/
def sevenCells : List Cell :=
  .array sevenObjects :: List.replicate 7 (.record (.inPublic "Watcher") [])

/-- All forms where they are possible. The total is told its class when its object is wired, and
nothing else is. -/
theorem formsFit_feedDatabase :
    feedDatabase.watchers.map (fun watcher =>
        (watcher.watched.name, watcher.watched.kind.form, watcher.parent)) =
      [("feed", .property, none), ("entry", .xml, some 0), ("title", .xml, some 1),
        ("text", .function, some 1), ("total", .staticProperty, none),
        ("settings", .property, none), ("theme", .property, some 5)] ∧
      feedDatabase.FormsFit ∧
      ∃ events, feedDatabase.TellsRoots sevenObjects events ∧
        Performs (fun _ => none) (HoldArrays (fun _ => none) 8 [] 0 sevenObjects.length)
          ⟨sevenCells, fun _ => none, []⟩ (feedDatabase.constructed.flatMap rootWiring)
          (Memory.note ⟨sevenCells, fun _ => none, []⟩ events) := by
  have hfits : feedDatabase.FormsFit := formsFit_ofBindings _ _
  have hslots : feedDatabase.builtWatchers.map Watcher.slot = List.range 7 := by decide +kernel
  have hobjects : ∀ slot < 7, sevenObjects.getD slot .null = .object (slot + 1) ∧
      Memory.isRecord ⟨sevenCells, fun _ => none, []⟩ (slot + 1) := by decide
  refine ⟨by decide +kernel, hfits, hfits.wired rfl fun watcher hmem => ?_⟩
  have hlt : watcher.slot < 7 := by
    have hslot := List.mem_map_of_mem (f := Watcher.slot) hmem
    rwa [hslots, List.mem_range] at hslot
  obtain ⟨hvalue, hrecord⟩ := hobjects watcher.slot hlt
  exact ⟨hlt, watcher.slot + 1, hvalue, hrecord⟩

end Database

end Bindery
