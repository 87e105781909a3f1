import Bindery.Proofs.Watch.Dependents
import Bindery.Proofs.Watch.Numbering
import Mathlib.Data.List.Nodup

/-!
# The trie of observed chains

The watchers of a database are the trie of the chains that its bindings observe: one watcher for
every non-empty beginning of a chain, hanging from the watcher of the beginning that is one key
shorter, with the bindings that observe it. The positions in the trie are read off the finished
watchers, by following their parents.
-/

namespace Bindery

namespace Database

/-- The path of a watcher: its key, preceded by the path of the watcher that its parent slot
names. -/
inductive AtPath (db : Database) : Watcher → WatchPath → Prop
  | root {watcher : Watcher} : watcher ∈ db.watchers → watcher.parent = none →
    AtPath db watcher [watcher.watched.key]
  | child {watcher parent : Watcher} {path : WatchPath} : AtPath db parent path →
    watcher ∈ db.watchers → watcher.parent = some parent.slot →
    AtPath db watcher (path ++ [watcher.watched.key])

/-- The watchers of a database form the trie of the chains of its bindings. -/
structure IsTrie (db : Database) (chains : Binding → List WatchPath) : Prop where
  /-- The slots of the watchers are their positions. -/
  map_slot : db.watchers.map Watcher.slot = List.range db.watchers.length
  /-- Following parents from a watcher ends at a root. -/
  exists_path : ∀ watcher ∈ db.watchers, ∃ path, db.AtPath watcher path
  /-- There is a watcher at each non-empty beginning of a chain, and nowhere else. -/
  exists_watcher_iff : ∀ path, (∃ watcher, db.AtPath watcher path) ↔
    path ≠ [] ∧ ∃ binding ∈ db.bindings, ∃ chain ∈ chains binding, path <+: chain
  /-- Two chains share their watchers exactly as far as they agree. -/
  slot_eq_iff : ∀ {watcher other path path'}, db.AtPath watcher path → db.AtPath other path' →
    (watcher.slot = other.slot ↔ path = path')
  /-- The last key of a path is that of the watcher. -/
  getLast?_path : ∀ {watcher path}, db.AtPath watcher path →
    path.getLast? = some watcher.watched.key
  /-- A watcher whose path is a single key has no parent. -/
  parent_of_root : ∀ {watcher path}, db.AtPath watcher path → path.dropLast = [] →
    watcher.parent = none
  /-- The parent of any other watcher is at the path without its last key. -/
  parent_of_child : ∀ {watcher path}, db.AtPath watcher path → path.dropLast ≠ [] →
    ∃ parent, db.AtPath parent path.dropLast ∧ watcher.parent = some parent.slot
  /-- The dependents of a watcher are strictly ascending. -/
  bindings_pairwise_lt : ∀ watcher ∈ db.watchers, watcher.bindings.Pairwise (· < ·)
  /-- The dependents of a watcher are the bindings with a chain that begins with its path. -/
  mem_bindings_iff : ∀ {watcher path}, db.AtPath watcher path → ∀ slot,
    (slot ∈ watcher.bindings ↔
      ∃ binding ∈ db.bindings, binding.slot = slot ∧ ∃ chain ∈ chains binding, path <+: chain)
  /-- What depends on a watcher depends on its parent. -/
  bindings_subset : ∀ watcher ∈ db.watchers, ∀ parent ∈ db.watchers,
    watcher.parent = some parent.slot → watcher.bindings ⊆ parent.bindings

/-! ## Watchers and their paths -/

/-- The watchers of a database in the order of their slots, each with its path. -/
def locatedWatchers (db : Database) : List (WatchPath × Watcher) :=
  WatchChain.locatedAll [] none 0 db.chains

theorem map_snd_locatedWatchers (db : Database) :
    db.locatedWatchers.map Prod.snd = db.watchers :=
  WatchChain.map_snd_locatedAll [] none 0 db.chains

theorem mem_watchers_iff {db : Database} {watcher : Watcher} :
    watcher ∈ db.watchers ↔ ∃ path, (path, watcher) ∈ db.locatedWatchers := by
  rw [← map_snd_locatedWatchers, List.mem_map]
  constructor
  · rintro ⟨⟨path, _⟩, hmem, rfl⟩
    exact ⟨path, hmem⟩
  · rintro ⟨path, hmem⟩
    exact ⟨(path, watcher), hmem, rfl⟩

theorem AtPath.mem_watchers {db : Database} {watcher : Watcher} {path : WatchPath}
    (h : db.AtPath watcher path) : watcher ∈ db.watchers := by
  cases h <;> assumption

section Numbered

variable {db : Database} (hslots : (db.watchers.map Watcher.slot).Nodup)
include hslots

/-- Where slots are different, following parents leads back along the path of a watcher. -/
theorem atPath_iff {watcher : Watcher} {path : WatchPath} :
    db.AtPath watcher path ↔ (path, watcher) ∈ db.locatedWatchers := by
  constructor
  · intro h
    induction h with
    | @root watcher hmem hparent =>
      obtain ⟨path, hpath⟩ := mem_watchers_iff.mp hmem
      rcases WatchChain.hangs_of_mem_locatedAll db.chains hpath with
        ⟨-, hkey, -⟩ | ⟨path', watcher', -, -, hparent', -⟩
      · rwa [hkey] at hpath
      · simp [hparent] at hparent'
    | @child watcher parent path _ hmem hparent ih =>
      obtain ⟨path', hpath'⟩ := mem_watchers_iff.mp hmem
      rcases WatchChain.hangs_of_mem_locatedAll db.chains hpath' with
        ⟨-, -, hnone, -⟩ | ⟨above, other, hother, hkey, hparent', -⟩
      · simp [hnone] at hparent
      · have hslot : other.slot = parent.slot := Option.some.inj (hparent'.symm.trans hparent)
        rw [← map_snd_locatedWatchers, List.map_map] at hslots
        have heq := List.inj_on_of_nodup_map hslots hother ih hslot
        obtain ⟨rfl, rfl⟩ := Prod.mk.inj heq
        rwa [hkey] at hpath'
  · intro h
    induction hlength : path.length generalizing watcher path with
    | zero =>
      rcases WatchChain.hangs_of_mem_locatedAll db.chains h with
        ⟨-, hkey, -⟩ | ⟨above, other, -, hkey, -⟩
      all_goals simp [hkey] at hlength
    | succ n ih =>
      have hmem := mem_watchers_iff.mpr ⟨path, h⟩
      rcases WatchChain.hangs_of_mem_locatedAll db.chains h with
        ⟨-, hkey, hnone, -⟩ | ⟨above, other, hother, hkey, hparent, -⟩
      · rw [hkey]
        exact .root hmem hnone
      · have habove : above.length = n := by
          rw [hkey, List.length_append, List.length_singleton] at hlength
          omega
        rw [hkey]
        exact .child (ih hother habove) hmem hparent

end Numbered

/-! ## Databases of recorded bindings -/

section OfBindings

variable (resolver : Resolver) (bindings : List Binding)

theorem distinctAll_analyzeSources :
    WatchTree.DistinctAll (analyzeSources resolver bindings).forest :=
  forest_induction resolver trivial
    (fun _ _ _ above _ h => WatchForest.distinctAll_insert above h) bindings

/-- The watchers of a database are in the order of their slots, which count from zero. -/
theorem map_slot_watchers_ofBindings :
    (ofBindings resolver bindings).1.watchers.map Watcher.slot =
      List.range (ofBindings resolver bindings).1.watchers.length := by
  have hslots := WatchTree.map_slot_watchersAll_numberAll none 0 0
    (analyzeSources resolver bindings).forest
  have hlength := congrArg List.length hslots
  rw [List.length_map, List.length_range'] at hlength
  rw [watchers, ofBindings, hslots, hlength, List.range_eq_range']

theorem nodup_slots_ofBindings :
    ((ofBindings resolver bindings).1.watchers.map Watcher.slot).Nodup := by
  rw [map_slot_watchers_ofBindings]
  exact List.nodup_range

variable {resolver bindings}

/-- The bindings that depend on a watcher are the observers of its path. -/
theorem observers_of_mem_locatedWatchers (h : Recorded bindings) {path : WatchPath}
    {watcher : Watcher}
    (hmem : (path, watcher) ∈ (ofBindings resolver bindings).1.locatedWatchers) :
    path ≠ [] ∧ watcher.bindings = observers resolver bindings path ∧
      observers resolver bindings path ≠ [] := by
  obtain ⟨key, rest, rfl, hdependents⟩ := WatchTree.dependents?_of_mem_locatedAll _
    (distinctAll_analyzeSources resolver bindings) hmem
  rw [dependents?_analyzeSources resolver h] at hdependents
  split at hdependents
  · simp at hdependents
  · next hne => exact ⟨by simp, (Option.some.inj hdependents).symm, hne⟩

/-- Every path with observers has a watcher. -/
theorem exists_mem_locatedWatchers (h : Recorded bindings) {path : WatchPath} (hpath : path ≠ [])
    (hobservers : observers resolver bindings path ≠ []) :
    ∃ watcher, (path, watcher) ∈ (ofBindings resolver bindings).1.locatedWatchers := by
  obtain ⟨key, rest, rfl⟩ := List.exists_cons_of_ne_nil hpath
  have hdependents := dependents?_analyzeSources resolver h (key :: rest)
  rw [if_neg hobservers] at hdependents
  exact WatchTree.mem_locatedAll_of_dependents? _ hdependents

/-- Observing a path is having a chain that begins with it. -/
theorem mem_observers_iff_startsWith {path : WatchPath} (hpath : path ≠ []) {slot : Nat} :
    slot ∈ observers resolver bindings path ↔ ∃ binding ∈ bindings, binding.slot = slot ∧
      ∃ chain ∈ binding.chains resolver, path <+: chain := by
  rw [mem_observers]
  constructor
  · rintro ⟨binding, hmem, hslot, hchain⟩
    exact ⟨binding, hmem, hslot, path, hchain, List.prefix_refl path⟩
  · rintro ⟨binding, hmem, hslot, chain, hchain, hprefix⟩
    exact ⟨binding, hmem, hslot, binding.closedChains resolver chain hchain path hprefix hpath⟩

/-! ### Positions in the trie -/

theorem atPath_ofBindings_iff {watcher : Watcher} {path : WatchPath} :
    (ofBindings resolver bindings).1.AtPath watcher path ↔
      (path, watcher) ∈ (ofBindings resolver bindings).1.locatedWatchers :=
  atPath_iff (nodup_slots_ofBindings resolver bindings)

/-- A slot belongs to one path only. -/
theorem path_eq_of_slot_eq {watcher other : Watcher} {path path' : WatchPath}
    (h : (ofBindings resolver bindings).1.AtPath watcher path)
    (h' : (ofBindings resolver bindings).1.AtPath other path')
    (hslot : watcher.slot = other.slot) : path = path' := by
  have hslots := nodup_slots_ofBindings resolver bindings
  rw [← map_snd_locatedWatchers, List.map_map] at hslots
  have hmem := atPath_ofBindings_iff.mp h
  have hmem' := atPath_ofBindings_iff.mp h'
  have heq := List.inj_on_of_nodup_map hslots hmem hmem' hslot
  exact (Prod.mk.inj heq).1

/-- One watcher at most is at a path. -/
theorem watcher_eq_of_path_eq {watcher other : Watcher} {path : WatchPath}
    (h : (ofBindings resolver bindings).1.AtPath watcher path)
    (h' : (ofBindings resolver bindings).1.AtPath other path) : watcher = other := by
  have hpaths : ((ofBindings resolver bindings).1.locatedWatchers.map Prod.fst).Nodup :=
    WatchTree.nodup_paths_numberAll _ (distinctAll_analyzeSources resolver bindings)
  have hmem := atPath_ofBindings_iff.mp h
  have hmem' := atPath_ofBindings_iff.mp h'
  have heq := List.inj_on_of_nodup_map hpaths hmem hmem' rfl
  exact (Prod.mk.inj heq).2

theorem ne_nil_of_atPath (h : Recorded bindings) {watcher : Watcher} {path : WatchPath}
    (hpath : (ofBindings resolver bindings).1.AtPath watcher path) : path ≠ [] :=
  (observers_of_mem_locatedWatchers h (atPath_ofBindings_iff.mp hpath)).1

/-- What depends on a watcher are the bindings with a chain that begins with its path. -/
theorem mem_bindings_iff_startsWith (h : Recorded bindings) {watcher : Watcher} {path : WatchPath}
    (hpath : (ofBindings resolver bindings).1.AtPath watcher path) (slot : Nat) :
    slot ∈ watcher.bindings ↔ ∃ binding ∈ bindings, binding.slot = slot ∧
      ∃ chain ∈ binding.chains resolver, path <+: chain := by
  obtain ⟨hne, hbindings, -⟩ :=
    observers_of_mem_locatedWatchers h (atPath_ofBindings_iff.mp hpath)
  rw [hbindings]
  exact mem_observers_iff_startsWith hne

/-- A watcher is at every beginning of a chain but the empty one, and nowhere else. -/
theorem exists_atPath_iff (h : Recorded bindings) (path : WatchPath) :
    (∃ watcher, (ofBindings resolver bindings).1.AtPath watcher path) ↔
      path ≠ [] ∧ ∃ binding ∈ bindings, ∃ chain ∈ binding.chains resolver, path <+: chain := by
  constructor
  · rintro ⟨watcher, hpath⟩
    obtain ⟨hne, -, hobservers⟩ :=
      observers_of_mem_locatedWatchers h (atPath_ofBindings_iff.mp hpath)
    obtain ⟨slot, hslot⟩ := List.exists_mem_of_ne_nil _ hobservers
    obtain ⟨binding, hmem, -, hchain⟩ := (mem_observers_iff_startsWith hne).mp hslot
    exact ⟨hne, binding, hmem, hchain⟩
  · rintro ⟨hne, binding, hmem, hchain⟩
    have hslot : binding.slot ∈ observers resolver bindings path :=
      (mem_observers_iff_startsWith hne).mpr ⟨binding, hmem, rfl, hchain⟩
    have hobservers := List.ne_nil_of_mem hslot
    obtain ⟨watcher, hwatcher⟩ := exists_mem_locatedWatchers h hne hobservers
    exact ⟨watcher, atPath_ofBindings_iff.mpr hwatcher⟩

/-- What depends on a watcher depends on its parent, whose path its own path extends. -/
theorem bindings_subset_parent (h : Recorded bindings) {watcher parent : Watcher}
    (hmem : watcher ∈ (ofBindings resolver bindings).1.watchers)
    (hparent : parent ∈ (ofBindings resolver bindings).1.watchers)
    (hslot : watcher.parent = some parent.slot) : watcher.bindings ⊆ parent.bindings := by
  intro slot hdepends
  obtain ⟨path, hlocated⟩ := mem_watchers_iff.mp hparent
  have hpath := atPath_ofBindings_iff.mpr hlocated
  have hbelow := AtPath.child hpath hmem hslot
  obtain ⟨binding, hbinding, heq, chain, hchain, hprefix⟩ :=
    (mem_bindings_iff_startsWith h hbelow slot).mp hdepends
  have habove : path <+: chain := (List.prefix_append path _).trans hprefix
  exact (mem_bindings_iff_startsWith h hpath slot).mpr
    ⟨binding, hbinding, heq, chain, hchain, habove⟩

/-- The watchers of a database are the trie of the chains that its bindings observe, whatever
bindings have been recorded. -/
theorem isTrie_ofBindings (h : Recorded bindings) :
    (ofBindings resolver bindings).1.IsTrie (Binding.chains resolver) := by
  refine {
    map_slot := map_slot_watchers_ofBindings resolver bindings
    exists_path := fun watcher hmem => ?_
    exists_watcher_iff := exists_atPath_iff h
    slot_eq_iff := fun hpath hpath' => ⟨path_eq_of_slot_eq hpath hpath', fun heq => ?_⟩
    getLast?_path := fun {watcher path} hpath => ?_
    parent_of_root := fun {watcher path} hpath hroot => ?_
    parent_of_child := fun {watcher path} hpath hchild => ?_
    bindings_pairwise_lt := fun watcher hmem => ?_
    mem_bindings_iff := mem_bindings_iff_startsWith h
    bindings_subset := fun watcher hmem parent hparent => bindings_subset_parent h hmem hparent }
  · obtain ⟨path, hpath⟩ := mem_watchers_iff.mp hmem
    exact ⟨path, atPath_ofBindings_iff.mpr hpath⟩
  · subst heq
    rw [watcher_eq_of_path_eq hpath hpath']
  · cases hpath <;> simp
  · cases hpath with
    | root _ hnone => exact hnone
    | @child _ parent path hpath _ _ =>
      rw [List.dropLast_concat] at hroot
      exact absurd hroot (ne_nil_of_atPath h hpath)
  · cases hpath with
    | root => simp at hchild
    | child hpath _ hparent =>
      rw [List.dropLast_concat]
      exact ⟨_, hpath, hparent⟩
  · obtain ⟨path, hpath⟩ := mem_watchers_iff.mp hmem
    obtain ⟨-, hbindings, -⟩ := observers_of_mem_locatedWatchers h hpath
    rw [hbindings]
    exact observers_pairwise_lt resolver h path

end OfBindings

/-- A document with a user, whose name and age announce their changes. -/
def forkedResolver : Resolver where
  documentClass := "app.Main"
  member? type name :=
    if type = "app.Main" && name = "user" then
      some { name, kind := .variable, type := some "app.User", events := ["userChange"] }
    else if type = "app.User" && (name = "name" || name = "age") then
      some { name, kind := .variable, type := none, events := [name ++ "Change"] }
    else none
  global? _ := none
  class? _ := none

/-- The bindings of `{user.name}`, `{user.age}` and `{this.user.name}`. -/
def forkedBindings : List Binding :=
  ["user.name", "user.age", "this.user.name"].foldl
    (fun bindings dotted =>
      Binding.record forkedResolver (some (Expr.path dotted)) none .unknown bindings)
    []

/-- Two chains that fork behind their first key, one of them observed twice: three watchers, the
first one shared by all bindings. -/
theorem isTrie_ofBindings_forked :
    Recorded forkedBindings ∧
      (ofBindings forkedResolver forkedBindings).1.IsTrie (Binding.chains forkedResolver) ∧
      (ofBindings forkedResolver forkedBindings).1.watchers.map
          (fun watcher => (watcher.watched.name, watcher.parent, watcher.bindings)) =
        [("user", none, [0, 1, 2]), ("name", some 0, [0, 2]), ("age", some 0, [1])] := by
  have hrecorded : Recorded forkedBindings :=
    .record _ _ _ _ (.record _ _ _ _ (.record _ _ _ _ .nil))
  exact ⟨hrecorded, isTrie_ofBindings hrecorded, by decide +kernel⟩

end Database

end Bindery
