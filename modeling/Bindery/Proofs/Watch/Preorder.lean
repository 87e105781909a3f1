import Bindery.Proofs.Watch.Insertions
import Bindery.Proofs.Watch.Roots
import Mathlib.Data.List.Basic

/-!
# Numbers in preorder

The numbers of the watchers of a forest are their positions in the recursive preorder: a watcher,
then everything below it, then its next sibling, where siblings stand in the order of their first
insertion. Everything about the slots of neighbours follows from the run of the watchers that hang
from a watcher, which stands right behind it.
-/

namespace Bindery

open WatchTree (DistinctAll numberAll)

/-- The visits of a preorder: each place before all that is below it, and this before the next
place. -/
inductive Preorder (below : WatchPath → List WatchPath) : List WatchPath → List WatchPath → Prop
  | nil : Preorder below [] []
  | cons {path : WatchPath} {paths inside after : List WatchPath} :
    Preorder below (below path) inside → Preorder below paths after →
      Preorder below (path :: paths) (path :: (inside ++ after))

/-! ## Runs -/

namespace WatchChain

mutual

theorem prefix_of_mem_located {above path : WatchPath} {parent : Option Nat} {depth : Nat}
    {watcher : Watcher} : (chain : WatchChain) →
    (path, watcher) ∈ located above parent depth chain → above <+: path
  | .link slot watched bindings children, h => by
    rw [located] at h
    rcases List.mem_cons.mp h with heq | hmem
    · obtain ⟨rfl, rfl⟩ := Prod.mk.inj heq
      exact List.prefix_append _ _
    · exact (List.prefix_append _ _).trans (prefix_of_mem_locatedAll children hmem)

/-- The paths of what hangs from a place begin with the path of the place. -/
theorem prefix_of_mem_locatedAll {above path : WatchPath} {parent : Option Nat} {depth : Nat}
    {watcher : Watcher} : (chains : List WatchChain) →
    (path, watcher) ∈ locatedAll above parent depth chains → above <+: path
  | chain :: chains, h => by
    rw [locatedAll] at h
    rcases List.mem_append.mp h with hmem | hmem
    · exact prefix_of_mem_located chain hmem
    · exact prefix_of_mem_locatedAll chains hmem

end

end WatchChain

namespace WatchTree

/-- The numbers of siblings increase. -/
theorem pairwise_lt_slot_numberAll (first : Nat) (trees : List WatchTree) :
    ((numberAll first trees).map WatchChain.slot).Pairwise (· < ·) ∧
      ∀ slot ∈ (numberAll first trees).map WatchChain.slot, first ≤ slot := by
  induction trees generalizing first with
  | nil => simp [numberAll]
  | cons tree trees ih =>
    obtain ⟨hpairwise, hle⟩ := ih (first + tree.size)
    have hslot : (tree.number first).slot = first := by cases tree; rfl
    have hsize : 0 < tree.size := by cases tree; simp [size]
    rw [numberAll, List.map_cons, hslot]
    refine ⟨List.pairwise_cons.mpr ⟨fun slot hmem => ?_, hpairwise⟩, fun slot hmem => ?_⟩
    · have := hle slot hmem
      omega
    · rcases List.mem_cons.mp hmem with rfl | hmem
      · exact Nat.le_refl _
      · have := hle slot hmem
        omega

end WatchTree

namespace WatchForest

/-- The watchers of a numbered forest with their paths, in the order of their slots. -/
def located (forest : WatchForest) : List (WatchPath × Watcher) :=
  WatchChain.locatedAll [] none 0 (numberAll 0 forest)

/-- The watchers of a numbered forest, in the order of their slots. -/
def watchers (forest : WatchForest) : List Watcher :=
  WatchChain.watchersAll none 0 (numberAll 0 forest)

/-- The slots of the roots of a numbered forest. -/
def rootSlots (forest : WatchForest) : List Nat := (numberAll 0 forest).map WatchChain.slot

/-- The paths of a forest, in the order of the numbers of their watchers. -/
def paths (forest : WatchForest) : List WatchPath := forest.located.map Prod.fst

theorem map_snd_located (forest : WatchForest) : forest.located.map Prod.snd = forest.watchers :=
  WatchChain.map_snd_locatedAll [] none 0 (numberAll 0 forest)

theorem mem_watchers_iff {forest : WatchForest} {watcher : Watcher} :
    watcher ∈ forest.watchers ↔ ∃ path, (path, watcher) ∈ forest.located := by
  simp [← map_snd_located]

theorem map_slot_located (forest : WatchForest) :
    forest.located.map (·.2.slot) = List.range forest.located.length := by
  have hslots : forest.located.map (·.2.slot) = List.range' 0 (WatchTree.sizeAll forest) := by
    rw [← WatchTree.map_slot_watchersAll_numberAll none 0 0 forest,
      ← WatchChain.map_snd_locatedAll [], List.map_map]
    rfl
  have hlength := congrArg List.length hslots
  rw [List.length_map, List.length_range'] at hlength
  rw [hslots, hlength, List.range_eq_range']

section Distinct

variable {forest : WatchForest} (hdistinct : DistinctAll forest)
include hdistinct

theorem nodup_paths : forest.paths.Nodup :=
  WatchTree.nodup_paths_numberAll forest hdistinct

/-- A watcher of a forest has the number of the tree at its path. -/
theorem exists_numbered {path : WatchPath} {watcher : Watcher}
    (h : (path, watcher) ∈ forest.located) :
    ∃ tree, forest.tree? path = some tree ∧ tree.Numbered path watcher forest.located := by
  obtain ⟨key, rest, tree, rfl, htree, hnumbered⟩ :=
    WatchTree.numbered_of_mem_locatedAll forest hdistinct h
  exact ⟨tree, htree, hnumbered⟩

theorem mem_paths_iff {path : WatchPath} : path ∈ forest.paths ↔ (forest.tree? path).isSome := by
  constructor
  · intro h
    obtain ⟨⟨_, watcher⟩, hmem, rfl⟩ := List.mem_map.mp h
    obtain ⟨tree, htree, -⟩ := exists_numbered hdistinct hmem
    exact Option.isSome_iff_exists.mpr ⟨tree, htree⟩
  · intro h
    obtain ⟨tree, htree⟩ := Option.isSome_iff_exists.mp h
    cases path with
    | nil => simp [tree?] at htree
    | cons key rest =>
      obtain ⟨watcher, hmem⟩ := WatchTree.mem_locatedAll_of_tree? forest htree
      exact List.mem_map.mpr ⟨_, hmem, rfl⟩

/-- The slot of a watcher is the position of its path. -/
theorem idxOf_eq_slot {path : WatchPath} {watcher : Watcher}
    (h : (path, watcher) ∈ forest.located) : forest.paths.idxOf path = watcher.slot := by
  obtain ⟨i, hi, hget⟩ := List.mem_iff_getElem.mp h
  have hlt : i < forest.paths.length := by simpa [paths] using hi
  have hpath : forest.paths[i] = path := by simp [paths, hget]
  have hslot : watcher.slot = i := by
    have hslots := forest.map_slot_located
    have := congrArg (·[i]?) hslots
    simpa [hi, hget] using this
  rw [hslot, ← hpath]
  exact (nodup_paths hdistinct).idxOf_getElem i _

/-- The numbers of siblings are the positions of their paths. -/
theorem map_slot_numberAll {above : WatchPath} {parent : Option Nat} {depth first : Nat}
    {trees : List WatchTree}
    (h : WatchChain.locatedAll above parent depth (numberAll first trees) ⊆ forest.located) :
    (numberAll first trees).map WatchChain.slot =
      (trees.map WatchTree.key).map fun key => forest.paths.idxOf (above ++ [key]) := by
  induction trees generalizing first with
  | nil => rfl
  | cons tree trees ih =>
    rw [numberAll, WatchChain.locatedAll] at h
    obtain ⟨hfirst, hrest⟩ := List.append_subset.mp h
    rw [numberAll, List.map_cons, ih hrest, List.map_cons, List.map_cons]
    congr 1
    obtain ⟨watched, bindings, children⟩ := tree
    exact (idxOf_eq_slot hdistinct (hfirst List.mem_cons_self)).symm

end Distinct

/-- The paths of a numbered forest are in preorder. -/
theorem preorder_locatedAll {forest : WatchForest} {below : WatchPath → List WatchPath}
    (hbelow : ∀ {path tree}, forest.tree? path = some tree →
      below path = tree.children.map fun child => path ++ [child.key])
    {above : WatchPath} (parent : Option Nat) (depth first : Nat) : (trees : List WatchTree) →
    DistinctAll trees → (∀ tree ∈ trees, forest.tree? (above ++ [tree.key]) = some tree) →
      Preorder below (trees.map fun tree => above ++ [tree.key])
        ((WatchChain.locatedAll above parent depth (numberAll first trees)).map Prod.fst)
  | [], _, _ => .nil
  | .node watched bindings children :: trees, hdistinct, hat => by
    have htree : forest.tree? (above ++ [watched.key]) = some (.node watched bindings children) :=
      hat _ List.mem_cons_self
    have hchildren : ∀ child ∈ children,
        forest.tree? ((above ++ [watched.key]) ++ [child.key]) = some child := by
      intro child hchild
      have hroot := root?_key hdistinct.2.1 hchild
      rw [tree?_append (by simp), htree, Option.bind_some]
      exact congrArg (·.bind (WatchTree.at? [])) hroot
    have hpaths : below (above ++ [watched.key]) =
        children.map fun child => (above ++ [watched.key]) ++ [child.key] := hbelow htree
    have hinside := preorder_locatedAll hbelow (some first) (depth + 1) (first + 1) children
      hdistinct.2.1 hchildren
    have hafter := preorder_locatedAll hbelow parent depth
      (first + (WatchTree.node watched bindings children).size) trees hdistinct.2.2
      fun tree htree => hat tree (List.mem_cons_of_mem _ htree)
    rw [numberAll, WatchTree.number, WatchChain.locatedAll, WatchChain.located, List.cons_append,
      List.map_cons, List.map_cons, List.map_append]
    exact .cons (hpaths ▸ hinside) hafter
termination_by trees => sizeOf trees

end WatchForest

/-! ## Neighbours -/

namespace WatchForest

variable (forest : WatchForest)

/-- A watcher is a root, or hangs from another one, which is numbered before it. -/
theorem parent_cases {watcher : Watcher} (h : watcher ∈ forest.watchers) :
    watcher.parent = none ∧ watcher.depth = 0 ∧ watcher.slot ∈ forest.rootSlots ∨
      ∃ parent ∈ forest.watchers, watcher.parent = some parent.slot ∧
        watcher.depth = parent.depth + 1 ∧ watcher.slot ∈ parent.children := by
  obtain ⟨path, hpath⟩ := mem_watchers_iff.mp h
  rcases WatchChain.hangs_of_mem_locatedAll _ hpath with
    ⟨hslot, -, hparent, hdepth⟩ | ⟨path', parent, hmem, -, hparent, hchild, hdepth⟩
  · exact .inl ⟨hparent, hdepth, hslot⟩
  · exact .inr ⟨parent, mem_watchers_iff.mpr ⟨path', hmem⟩, hparent, hdepth, hchild⟩

/-- The slot of a watcher is its position. -/
theorem map_slot_watchers :
    forest.watchers.map Watcher.slot = List.range forest.watchers.length := by
  rw [← map_snd_located, List.map_map, List.length_map]
  exact forest.map_slot_located

theorem nodup_slots : (forest.watchers.map Watcher.slot).Nodup :=
  forest.map_slot_watchers ▸ List.nodup_range

variable {forest}

/-- The children of a watcher are those that name it as their parent. -/
theorem mem_children_iff {parent : Watcher} (hparent : parent ∈ forest.watchers) {slot : Nat} :
    slot ∈ parent.children ↔
      ∃ child ∈ forest.watchers, child.slot = slot ∧ child.parent = some parent.slot :=
  WatchChain.mem_children_iff forest.nodup_slots hparent

/-- Roots alone have no watcher above them. -/
theorem depth_eq_zero_iff {watcher : Watcher} (h : watcher ∈ forest.watchers) :
    watcher.depth = 0 ↔ watcher.parent = none := by
  rcases forest.parent_cases h with ⟨hnone, hdepth, -⟩ | ⟨parent, -, hparent, hdepth, -⟩
  · simp [hnone, hdepth]
  · simp [hparent, hdepth]

section Distinct

variable (hdistinct : DistinctAll forest)
include hdistinct

/-- The children of a watcher have increasing numbers behind its own. -/
theorem pairwise_lt_children {watcher : Watcher} (h : watcher ∈ forest.watchers) :
    watcher.children.Pairwise (· < ·) ∧ ∀ slot ∈ watcher.children, watcher.slot < slot := by
  obtain ⟨path, hpath⟩ := mem_watchers_iff.mp h
  obtain ⟨tree, -, hnumbered⟩ := exists_numbered hdistinct hpath
  rw [hnumbered.children]
  exact WatchTree.pairwise_lt_slot_numberAll (watcher.slot + 1) tree.children

/-- A parent is numbered before the watchers that name it, which are one step deeper. -/
theorem exists_parent {watcher : Watcher} (h : watcher ∈ forest.watchers) {slot : Nat}
    (hslot : watcher.parent = some slot) :
    ∃ parent ∈ forest.watchers, parent.slot = slot ∧ slot < watcher.slot ∧
      watcher.depth = parent.depth + 1 := by
  rcases forest.parent_cases h with ⟨hnone, -⟩ | ⟨parent, hparent, heq, hdepth, hchild⟩
  · simp [hnone] at hslot
  · obtain rfl := Option.some.inj (heq.symm.trans hslot)
    exact ⟨parent, hparent, rfl, (pairwise_lt_children hdistinct hparent).2 _ hchild, hdepth⟩

end Distinct

end WatchForest

/-! ## The numbers of inserted watchers -/

namespace Insertion

/-- The paths of the watchers that hang from a place, in the order of their first insertion. -/
def pathsBelow (insertions : List Insertion) (path : WatchPath) : List WatchPath :=
  (keysBelow insertions path).map fun key => path ++ [key]

/-- Watchers, with their paths and with the slots of the roots, as insertions have asked for them
and numbered in preorder. -/
structure Numbered (insertions : List Insertion) (watchers : List Watcher) (roots : List Nat)
    (located : List (WatchPath × Watcher)) : Prop where
  map_snd : located.map Prod.snd = watchers
  /-- The slot of a watcher is its position. -/
  map_slot : watchers.map Watcher.slot = List.range watchers.length
  /-- There is one watcher for every path that has been inserted, and there are no others. -/
  nodup_paths : (located.map Prod.fst).Nodup
  mem_paths_iff : ∀ path, path ∈ located.map Prod.fst ↔
    ∃ insertion ∈ insertions, insertion.path = path
  /-- The watchers are in the recursive preorder of their paths. -/
  preorder : Preorder (pathsBelow insertions) (pathsBelow insertions []) (located.map Prod.fst)
  /-- Roots and children are listed in the order of their first insertion. -/
  roots_eq : roots = (pathsBelow insertions []).map (located.map Prod.fst).idxOf
  children_eq : ∀ path watcher, (path, watcher) ∈ located →
    watcher.children = (pathsBelow insertions path).map (located.map Prod.fst).idxOf
  /-- What is at and below a watcher has the slots from its own on. -/
  subtree : ∀ path watcher, (path, watcher) ∈ located →
    (located.filter (path <+: ·.1)).map (·.2.slot) =
      List.range' watcher.slot (located.filter (path <+: ·.1)).length
  roots_pairwise : roots.Pairwise (· < ·)
  children_pairwise : ∀ watcher ∈ watchers, watcher.children.Pairwise (· < ·)
  /-- Parents and children name each other, and roots have no parent. -/
  mem_roots_iff : ∀ slot, slot ∈ roots ↔
    ∃ watcher ∈ watchers, watcher.slot = slot ∧ watcher.parent = none
  mem_children_iff : ∀ parent ∈ watchers, ∀ slot, slot ∈ parent.children ↔
    ∃ child ∈ watchers, child.slot = slot ∧ child.parent = some parent.slot
  /-- A parent is a watcher with a smaller slot, one step less deep. -/
  exists_parent : ∀ watcher ∈ watchers, ∀ slot, watcher.parent = some slot →
    ∃ parent ∈ watchers, parent.slot = slot ∧ slot < watcher.slot ∧
      watcher.depth = parent.depth + 1
  depth_eq_zero_iff : ∀ watcher ∈ watchers, watcher.depth = 0 ↔ watcher.parent = none
  /-- A watcher watches what its first insertion has said, for the bindings of all of them. -/
  watched_eq : ∀ path watcher, (path, watcher) ∈ located →
    watchedAt? insertions path = some watcher.watched
  bindings_eq : ∀ path watcher, (path, watcher) ∈ located →
    watcher.bindings = dependentsAt insertions path

end Insertion

namespace WatchForest

variable {insertions : List Insertion}

/-- The trees that hang from a place are at the paths of the insertions there. -/
theorem Holds.pathsBelow_eq {forest : WatchForest} (h : forest.Holds insertions) {path : WatchPath}
    {tree : WatchTree} (htree : forest.tree? path = some tree) :
    Insertion.pathsBelow insertions path =
      tree.children.map fun child => path ++ [child.key] := by
  rw [Insertion.pathsBelow, (h.describes htree).keys, List.map_map]
  rfl

/-- The roots are at the paths of the insertions that name nothing. -/
theorem Holds.pathsBelow_nil {forest : WatchForest} (h : forest.Holds insertions) :
    Insertion.pathsBelow insertions [] = forest.map fun tree => [] ++ [tree.key] := by
  rw [Insertion.pathsBelow, h.keys, List.map_map]
  rfl

section Holds

variable {forest : WatchForest} (hholds : forest.Holds insertions)
  (hdistinct : DistinctAll forest)
include hholds hdistinct

/-- The watchers are in the preorder of the insertions. -/
theorem Holds.preorder :
    Preorder (Insertion.pathsBelow insertions) (Insertion.pathsBelow insertions [])
      forest.paths := by
  have hroots : ∀ tree ∈ forest, forest.tree? ([] ++ [tree.key]) = some tree := by
    intro tree htree
    rw [List.nil_append, tree?, root?_key hdistinct htree, Option.bind_some, WatchTree.at?]
  rw [hholds.pathsBelow_nil]
  exact preorder_locatedAll hholds.pathsBelow_eq none 0 0 forest hdistinct hroots

section Located

variable {path : WatchPath} {watcher : Watcher} (h : (path, watcher) ∈ forest.located)
include h

/-- The children of a watcher have the positions of the paths below its own. -/
theorem Holds.children_eq :
    watcher.children = (Insertion.pathsBelow insertions path).map forest.paths.idxOf := by
  obtain ⟨tree, htree, hnumbered⟩ := exists_numbered hdistinct h
  have hsub : tree.run path watcher ⊆ forest.located := hnumbered.infix_run.subset
  rw [hnumbered.children, hholds.pathsBelow_eq htree,
    map_slot_numberAll hdistinct fun entry hentry => hsub (List.mem_cons_of_mem _ hentry),
    List.map_map, List.map_map]
  rfl

theorem Holds.bindings_eq : watcher.bindings = Insertion.dependentsAt insertions path := by
  obtain ⟨tree, htree, hnumbered⟩ := exists_numbered hdistinct h
  rw [hnumbered.bindings, (hholds.describes htree).bindings]

end Located

end Holds

end WatchForest

end Bindery
