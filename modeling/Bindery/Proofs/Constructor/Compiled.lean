import Bindery.Proofs.Constructor.Events
import Bindery.Proofs.Watch.Trie

/-!
# Compiled documents

Whatever document is compiled, its constructor code can be run: what one stage refers to has been
there since an earlier one.
-/

namespace Bindery

namespace Database

variable {resolver : Resolver} {bindings : List Binding}

/-- The database of recorded bindings is made of nothing but proper watchers. -/
theorem proper_of_mem_watchers {watcher : Watcher}
    (hmem : watcher ∈ (ofBindings resolver bindings).1.watchers) : watcher.watched.Proper := by
  have hproper : WatchTree.EveryAll (fun _ => Watched.Proper) []
      (analyzeSources resolver bindings).forest :=
    forest_induction resolver trivial
      (fun _ _ binding above hproper h => WatchForest.everyAll_insert binding above hproper h)
      bindings
  obtain ⟨path, hpath⟩ := mem_watchers_iff.mp hmem
  exact WatchTree.watched_of_mem_locatedAll _ hproper hpath

/-- The bindings that depend on a watcher have been recorded. -/
theorem lt_length_of_mem_bindings (h : Recorded bindings) {watcher : Watcher}
    (hmem : watcher ∈ (ofBindings resolver bindings).1.watchers) {slot : Nat}
    (hslot : slot ∈ watcher.bindings) : slot < bindings.length := by
  obtain ⟨path, hpath⟩ := mem_watchers_iff.mp hmem
  obtain ⟨-, hbindings, -⟩ := observers_of_mem_locatedWatchers h hpath
  rw [hbindings] at hslot
  obtain ⟨binding, hbinding, rfl, -⟩ := mem_observers.mp hslot
  exact h.slot_lt_length hbinding

/-- The slot of a watcher is its position. -/
theorem slot_lt_length {watcher : Watcher}
    (hmem : watcher ∈ (ofBindings resolver bindings).1.watchers) :
    watcher.slot < (ofBindings resolver bindings).1.watchers.length := by
  have hslot := List.mem_map_of_mem (f := Watcher.slot) hmem
  rw [map_slot_watchers_ofBindings] at hslot
  exact List.mem_range.mp hslot

/-- The closure that reads any property is needed for every constructed root of that form. -/
theorem needsPropertyGetter_of_mem_builtWatchers {db : Database} {watcher : Watcher}
    (hmem : watcher ∈ db.builtWatchers) (hroot : watcher.isRoot)
    (hform : watcher.watched.kind.form = .property) : db.needsPropertyGetter := by
  rw [builtWatchers, WatchChain.watchersAll_eq_flatMap] at hmem
  obtain ⟨chain, hchain, hwatcher⟩ := List.mem_flatMap.mp hmem
  have hnone : watcher.parent = none := by simpa [Watcher.isRoot] using hroot
  have heq := (rootOf_rootWatcher (List.mem_of_mem_filter hchain) hwatcher).eq_of_parent_eq_none
    hnone
  rw [← heq] at hform
  rw [needsPropertyGetter, List.any_eq_true]
  exact ⟨chain, hchain, by simpa [WatchChain.rootWatcher] using hform⟩

end Database

namespace ConstructorCode

/-- What constructor code has been generated from. -/
def context (code : ConstructorCode) (config : Config) (resolver : Resolver) :
    ConstructorContext where
  config := config
  resolver := resolver
  database := code.database
  propertyGetter := code.propertyGetter

/-- The constructor code for a database is the code of all four stages, with the closure that reads
any property emitted before if it is needed. -/
theorem ofDatabase_eq {config : Config} {resolver : Resolver} {db : Database}
    {out out' : Emission} {code : ConstructorCode}
    (h : ofDatabase config resolver db out = (code, out')) :
    ∃ start, start.problems = out.problems ∧ code.database = db ∧
      (db.needsPropertyGetter → Datum.IsClosure start.Names (.ofHandle? code.propertyGetter)
        (some (.ok .propertyGetter))) ∧
      (code.context config resolver).code start = (code.instructions, out') := by
  obtain ⟨rfl, rfl⟩ := Prod.mk.inj h
  by_cases hneeds : db.needsPropertyGetter
  · refine ⟨(out.emit .propertyGetter).2, rfl, rfl, fun _ => ?_, ?_⟩
    · simp only [if_pos hneeds]
      exact ⟨_, rfl, Emission.names_emit _ out⟩
    · simp only [context, if_pos hneeds]
  · refine ⟨out, rfl, rfl, fun hneeds' => absurd hneeds' hneeds, ?_⟩
    simp only [context, if_neg hneeds]

end ConstructorCode

/-- The code for recorded bindings can be run. -/
theorem ConstructorContext.runnable_ofBindings {context : ConstructorContext}
    {bindings : List Binding} (hrecorded : Recorded bindings) {resolver : Resolver}
    (hdatabase : context.database = (Database.ofBindings resolver bindings).1) {start : Emission}
    (hgetter : context.database.needsPropertyGetter →
      Datum.IsClosure start.Names (.ofHandle? context.propertyGetter)
        (some (.ok .propertyGetter))) :
    context.Runnable start := by
  obtain ⟨config, names, db, propertyGetter⟩ := context
  obtain rfl := hdatabase
  have hsublist := (Database.ofBindings resolver bindings).1.sublist_builtWatchers
  exact {
    pairs := fun _ => Database.ne_and_lt_length_of_mem_pairs hrecorded
    nodup_slots := (Database.nodup_slots_ofBindings resolver bindings).sublist (hsublist.map _)
    slot_lt := fun _ hmem => Database.slot_lt_length (hsublist.subset hmem)
    bindings_lt := fun _ hmem _ =>
      Database.lt_length_of_mem_bindings hrecorded (hsublist.subset hmem)
    proper := fun _ hmem => Database.proper_of_mem_watchers (hsublist.subset hmem)
    getter := fun _ hmem hroot hform =>
      hgetter (Database.needsPropertyGetter_of_mem_builtWatchers hmem hroot hform) }

/-- The code of a document comes from the bindings that the document records, and it can be run. -/
structure Compiled (doc : Document) (config : Config) (resolver : Resolver) (out out' : Emission)
    (code : ConstructorCode) (start : Emission) : Prop where
  records : doc.Records config resolver code.database.bindings
  database_eq : code.database = (Database.ofBindings resolver code.database.bindings).1
  runnable : (code.context config resolver).Runnable start
  reports : ReportsOnly (¬·.IsOfSelfPair) out.problems start.problems
  code_eq : (code.context config resolver).code start = (code.instructions, out')

/-- The code of a compiled document can be run. -/
theorem Document.exists_compiled {doc : Document} {config : Config} {resolver : Resolver}
    {out out' : Emission} {code : ConstructorCode}
    (h : doc.compile config resolver out = (.ok (some code), out')) :
    ∃ start, Compiled doc config resolver out out' code start := by
  obtain ⟨bindings, recorded, hrecords, -, hrecorded, hofDatabase⟩ := compile_eq_some h
  obtain ⟨start, hstart, hdatabase, hgetter, hcode⟩ := ConstructorCode.ofDatabase_eq hofDatabase
  have hreports : ReportsOnly Problem.IsOfAnalysis out.problems
      (out.problems ++ recorded ++ (Database.ofBindings resolver bindings).2) := by
    refine (ReportsOnly.append hrecorded).trans (.append fun problem hproblem => ?_)
    simp [Problem.IsOfAnalysis, Database.kind_of_mem_problems hproblem]
  obtain rfl : code.database.bindings = bindings := by
    rw [hdatabase]
    rfl
  rw [← hdatabase] at hgetter
  exact ⟨start, {
    records := hrecords
    database_eq := hdatabase
    runnable := ConstructorContext.runnable_ofBindings hrecords.recorded hdatabase hgetter
    reports := hstart ▸ hreports.mono fun _ => Problem.IsOfAnalysis.not_isOfSelfPair
    code_eq := hcode }⟩

/-- What can be computed of the code of a document tells that there is code. -/
theorem Document.exists_code {doc : Document} {config : Config} {resolver : Resolver}
    {out : Emission} {P : ConstructorCode → Prop} [DecidablePred P]
    (h : (match (doc.compile config resolver out).1 with
      | .ok (some code) => decide (P code)
      | _ => false) = true) :
    ∃ code out', doc.compile config resolver out = (.ok (some code), out') ∧ P code := by
  split at h
  · next code hcode => exact ⟨code, _, Prod.ext hcode rfl, of_decide_eq_true h⟩
  · exact absurd h Bool.false_ne_true

/-! ## Runs -/

namespace Compiled

variable {doc : Document} {config : Config} {resolver : Resolver} {out out' : Emission}
  {code : ConstructorCode} {start : Emission}
  (h : Compiled doc config resolver out out' code start)
include h

theorem map_slot : code.database.watchers.map Watcher.slot =
    List.range code.database.watchers.length := by
  rw [h.database_eq]
  exact Database.map_slot_watchers_ofBindings resolver code.database.bindings

theorem bindings_lt {watcher : Watcher} (hmem : watcher ∈ code.database.watchers) {slot : Nat}
    (hslot : slot ∈ watcher.bindings) : slot < code.database.bindings.length := by
  rw [h.database_eq] at hmem
  exact Database.lt_length_of_mem_bindings h.records.recorded hmem hslot

theorem nodup_halves : (PairCandidate.halves code.database.pairs).Nodup := by
  rw [h.database_eq]
  exact Database.nodup_halves_ofBindings h.records.recorded

theorem instructions_eq : code.instructions =
    ((code.context config resolver).allocation start).1 ++
      (code.context config resolver).middle start ++
      RuntimeObject.execution code.database.bindings.length := by
  have hcode := (code.context config resolver).code_eq start
  rwa [h.code_eq] at hcode

theorem separate {objects items : List Datum} {before after : Memory} {bindings watchers : Nat}
    (hrebuilt : (code.context config resolver).Rebuilt before after out' bindings watchers objects
      items) : ConstructorContext.Separate code.database objects items where
  nodup_objects := hrebuilt.nodup_objects
  nodup_halves := h.nodup_halves
  halves_lt slot hslot := by
    rw [← hrebuilt.isBinding.length_eq]
    rw [h.database_eq] at hslot
    exact Database.lt_length_of_mem_halves h.records.recorded hslot
  nodup_slots := by
    rw [h.map_slot]
    exact List.nodup_range
  slot_lt watcher hmem := by
    have hslot := List.mem_map_of_mem (f := Watcher.slot) hmem
    rw [h.map_slot] at hslot
    exact hrebuilt.length_items.symm ▸ List.mem_range.mp hslot
  injective := hrebuilt.injective

/-- The code runs to its end: the first stage loads the two arrays, and when the last one begins,
everything but the bindings has been run. -/
theorem runs {numberSlot? : Float → Option Nat} {locals : Nat → Option Datum}
    (hbindings : ReadsSlots numberSlot? code.database.bindings.length)
    (hwatchers : ReadsSlots numberSlot? code.database.watchers.length)
    (hdocument : locals 0 = some .document) (stack : List Datum) (memory : Memory) :
    ReportsOnly (¬·.IsOfSelfPair) out.problems out'.problems ∧
      ∃ allocated wired after locals' bindings watchers objects items,
        Runs numberSlot? ((code.context config resolver).allocation start).1 ⟨stack, locals⟩ memory
          ⟨stack, ConstructorContext.withArrays locals bindings watchers⟩ allocated ∧
        Runs numberSlot? ((code.context config resolver).middle start)
          ⟨stack, ConstructorContext.withArrays locals bindings watchers⟩ allocated
          ⟨stack, locals'⟩ wired ∧
        Runs numberSlot? (RuntimeObject.execution code.database.bindings.length)
          ⟨stack, locals'⟩ wired ⟨stack, locals'⟩ after ∧
        wired.journal = memory.journal ++
          ConstructorContext.earlierEvents code.database bindings watchers objects items ∧
        (code.context config resolver).Rebuilt memory after out' bindings watchers objects
          items := by
  have hruns := (code.context config resolver).runs_code h.runnable hbindings hwatchers hdocument
    stack memory
  rw [h.code_eq] at hruns
  obtain ⟨hfollows, hruns⟩ := hruns
  exact ⟨h.reports.trans (hfollows.reported.mono fun _ => Problem.IsOfClosure.not_isOfSelfPair),
    hruns⟩

end Compiled

end Bindery
