import Bindery.Proofs.Watch.Forest

/-!
# Numbered forests

Numbering a forest keeps every watcher at its path. The numbers run through the forest in preorder
without a gap, and each watcher names as its parent the watcher one step further up.
-/

namespace Bindery

/-! ## Watchers with their paths -/

namespace WatchChain

mutual

/-- The watchers of a chain in preorder, each with the path that leads to it. -/
def located (above : WatchPath) (parent : Option Nat) (depth : Nat) :
    WatchChain → List (WatchPath × Watcher)
  | .link slot watched bindings children =>
    (above ++ [watched.key],
      { slot, watched, bindings, parent, depth, children := children.map WatchChain.slot }) ::
      locatedAll (above ++ [watched.key]) (some slot) (depth + 1) children

/-- The watchers of several chains in preorder, each with the path that leads to it. -/
def locatedAll (above : WatchPath) (parent : Option Nat) (depth : Nat) :
    List WatchChain → List (WatchPath × Watcher)
  | [] => []
  | chain :: chains => located above parent depth chain ++ locatedAll above parent depth chains

end

mutual

theorem map_snd_located (above : WatchPath) (parent : Option Nat) (depth : Nat) :
    (chain : WatchChain) →
      (located above parent depth chain).map Prod.snd = watchers parent depth chain
  | .link slot watched bindings children => by
    rw [located, watchers, List.map_cons, map_snd_locatedAll _ (some slot) _ children]

/-- Without their paths, these are the watchers of the chains. -/
theorem map_snd_locatedAll (above : WatchPath) (parent : Option Nat) (depth : Nat) :
    (chains : List WatchChain) →
      (locatedAll above parent depth chains).map Prod.snd = watchersAll parent depth chains
  | [] => rfl
  | chain :: chains => by
    rw [locatedAll, watchersAll, List.map_append, map_snd_located above parent depth chain,
      map_snd_locatedAll above parent depth chains]

end

mutual

theorem hangs_of_mem_located {above : WatchPath} {parent : Option Nat} {depth : Nat}
    {path : WatchPath} {watcher : Watcher} : (chain : WatchChain) →
    (path, watcher) ∈ located above parent depth chain →
      watcher.slot = chain.slot ∧ path = above ++ [watcher.watched.key] ∧
          watcher.parent = parent ∧ watcher.depth = depth ∨
        ∃ path' watcher', (path', watcher') ∈ located above parent depth chain ∧
          path = path' ++ [watcher.watched.key] ∧ watcher.parent = some watcher'.slot ∧
          watcher.slot ∈ watcher'.children ∧ watcher.depth = watcher'.depth + 1
  | .link slot watched bindings children, h => by
    rw [located] at h ⊢
    rcases List.mem_cons.mp h with heq | hmem
    · obtain ⟨rfl, rfl⟩ := Prod.mk.inj heq
      exact .inl ⟨rfl, rfl, rfl, rfl⟩
    · right
      rcases hangs_of_mem_locatedAll children hmem with
        ⟨hslot, hpath, hparent, hdepth⟩ | ⟨path', watcher', hmem', hrest⟩
      · exact ⟨_, _, List.mem_cons_self, hpath, hparent, hslot, hdepth⟩
      · exact ⟨path', watcher', List.mem_cons_of_mem _ hmem', hrest⟩

/-- A watcher starts one of the chains, or hangs from another watcher one step above. -/
theorem hangs_of_mem_locatedAll {above : WatchPath} {parent : Option Nat} {depth : Nat}
    {path : WatchPath} {watcher : Watcher} : (chains : List WatchChain) →
    (path, watcher) ∈ locatedAll above parent depth chains →
      watcher.slot ∈ chains.map WatchChain.slot ∧ path = above ++ [watcher.watched.key] ∧
          watcher.parent = parent ∧ watcher.depth = depth ∨
        ∃ path' watcher', (path', watcher') ∈ locatedAll above parent depth chains ∧
          path = path' ++ [watcher.watched.key] ∧ watcher.parent = some watcher'.slot ∧
          watcher.slot ∈ watcher'.children ∧ watcher.depth = watcher'.depth + 1
  | chain :: chains, h => by
    rw [locatedAll] at h ⊢
    rcases List.mem_append.mp h with hmem | hmem
    · rcases hangs_of_mem_located chain hmem with
        ⟨hslot, hrest⟩ | ⟨path', watcher', hmem', hrest⟩
      · exact .inl ⟨by simp [hslot], hrest⟩
      · exact .inr ⟨path', watcher', List.mem_append_left _ hmem', hrest⟩
    · rcases hangs_of_mem_locatedAll chains hmem with
        ⟨hslot, hrest⟩ | ⟨path', watcher', hmem', hrest⟩
      · exact .inl ⟨List.mem_cons_of_mem _ hslot, hrest⟩
      · exact .inr ⟨path', watcher', List.mem_append_right _ hmem', hrest⟩

end

end WatchChain

/-! ## Slots -/

namespace WatchTree

mutual

theorem watched_of_mem_located {P : WatchPath → Watched → Prop} {above path : WatchPath}
    {parent : Option Nat} {depth first : Nat} {watcher : Watcher} : (tree : WatchTree) →
    tree.Every P above → (path, watcher) ∈ (tree.number first).located above parent depth →
      P path watcher.watched
  | .node watched bindings children, hevery, hmem => by
    rw [number, WatchChain.located] at hmem
    rcases List.mem_cons.mp hmem with heq | hmem
    · obtain ⟨rfl, rfl⟩ := Prod.mk.inj heq
      exact hevery.1
    · exact watched_of_mem_locatedAll children hevery.2 hmem

/-- What is true of everything in a forest is true of its numbered watchers. -/
theorem watched_of_mem_locatedAll {P : WatchPath → Watched → Prop} {above path : WatchPath}
    {parent : Option Nat} {depth first : Nat} {watcher : Watcher} : (trees : List WatchTree) →
    EveryAll P above trees →
    (path, watcher) ∈ WatchChain.locatedAll above parent depth (numberAll first trees) →
      P path watcher.watched
  | tree :: trees, hevery, hmem => by
    rw [numberAll, WatchChain.locatedAll] at hmem
    rcases List.mem_append.mp hmem with hmem | hmem
    · exact watched_of_mem_located tree hevery.1 hmem
    · exact watched_of_mem_locatedAll trees hevery.2 hmem

end

mutual

theorem map_slot_watchers_number (parent : Option Nat) (depth first : Nat) :
    (tree : WatchTree) →
      ((tree.number first).watchers parent depth).map Watcher.slot = List.range' first tree.size
  | node watched bindings children => by
    rw [number, WatchChain.watchers, List.map_cons,
      map_slot_watchersAll_numberAll (some first) (depth + 1) (first + 1) children, size,
      List.range'_succ]

/-- The slots of a numbered forest count from the first number without a gap. -/
theorem map_slot_watchersAll_numberAll (parent : Option Nat) (depth first : Nat) :
    (trees : List WatchTree) →
      (WatchChain.watchersAll parent depth (numberAll first trees)).map Watcher.slot =
        List.range' first (sizeAll trees)
  | [] => by
    rw [numberAll, WatchChain.watchersAll, sizeAll]
    rfl
  | tree :: trees => by
    rw [numberAll, WatchChain.watchersAll, List.map_append,
      map_slot_watchers_number parent depth first tree,
      map_slot_watchersAll_numberAll parent depth (first + tree.size) trees, sizeAll,
      List.range'_append_1]

end

end WatchTree

/-! ## Trees and their numbers -/

namespace WatchForest

open WatchTree (DistinctAll)

theorem mem_of_root? {key : WatchKey} {forest : WatchForest} {tree : WatchTree}
    (h : forest.root? key = some tree) : tree ∈ forest := by
  induction forest with
  | nil => simp [root?] at h
  | cons first trees ih =>
    by_cases hkey : first.key = key
    · simp only [root?, if_pos hkey, Option.some.injEq] at h
      exact h ▸ List.mem_cons_self
    · exact List.mem_cons_of_mem _ (ih (by simpa [root?, hkey] using h))

/-- Where keys are different, every root is found under its key. -/
theorem root?_key {forest : WatchForest} (hdistinct : DistinctAll forest) {tree : WatchTree}
    (h : tree ∈ forest) : forest.root? tree.key = some tree := by
  induction forest with
  | nil => simp at h
  | cons first trees ih =>
    obtain ⟨hkeys, -, hrest⟩ := hdistinct
    rcases List.mem_cons.mp h with rfl | h
    · simp [root?]
    · rw [root?, if_neg (Ne.symm (hkeys tree h)), ih hrest h]

end WatchForest

/-- What stands from a watcher on where a tree has been numbered: the watcher, and behind it all
that hangs from the tree. -/
def WatchTree.run (path : WatchPath) (watcher : Watcher) (tree : WatchTree) :
    List (WatchPath × Watcher) :=
  (path, watcher) :: WatchChain.locatedAll path (some watcher.slot) (watcher.depth + 1)
    (numberAll (watcher.slot + 1) tree.children)

/-- A watcher has the number of the tree at its path: it watches the same for the same bindings,
and what hangs from the tree is numbered right behind it. -/
structure WatchTree.Numbered (tree : WatchTree) (path : WatchPath) (watcher : Watcher)
    (located : List (WatchPath × Watcher)) : Prop where
  watched : watcher.watched = tree.watched
  bindings : watcher.bindings = tree.bindings
  children : watcher.children = (numberAll (watcher.slot + 1) tree.children).map WatchChain.slot
  infix_run : tree.run path watcher <:+: located

namespace WatchTree

theorem Numbered.mono {tree : WatchTree} {path : WatchPath} {watcher : Watcher}
    {located located' : List (WatchPath × Watcher)} (h : tree.Numbered path watcher located)
    (hpart : located <:+: located') : tree.Numbered path watcher located' :=
  { h with infix_run := h.infix_run.trans hpart }

mutual

theorem numbered_of_mem_located {above path : WatchPath} {parent : Option Nat}
    {depth first : Nat} {watcher : Watcher} : (tree : WatchTree) → tree.Distinct →
    (path, watcher) ∈ (tree.number first).located above parent depth →
      ∃ rest inner, path = above ++ tree.key :: rest ∧ tree.at? rest = some inner ∧
        inner.Numbered path watcher ((tree.number first).located above parent depth)
  | .node watched bindings children, hdistinct, h => by
    rw [number, WatchChain.located] at h ⊢
    rcases List.mem_cons.mp h with heq | hmem
    · obtain ⟨rfl, rfl⟩ := Prod.mk.inj heq
      exact ⟨[], _, rfl, rfl, rfl, rfl, rfl, List.infix_rfl⟩
    · obtain ⟨key, rest, inner, rfl, hinner, hnumbered⟩ :=
        numbered_of_mem_locatedAll children hdistinct hmem
      exact ⟨key :: rest, inner, by simp [WatchTree.key, WatchTree.watched], hinner,
        hnumbered.mono (List.suffix_cons _ _).isInfix⟩

/-- A watcher of a numbered forest has the number of the tree to which its path leads. -/
theorem numbered_of_mem_locatedAll {above path : WatchPath} {parent : Option Nat}
    {depth first : Nat} {watcher : Watcher} : (trees : List WatchTree) → DistinctAll trees →
    (path, watcher) ∈ WatchChain.locatedAll above parent depth (numberAll first trees) →
      ∃ key rest inner, path = above ++ key :: rest ∧
        WatchForest.tree? (key :: rest) trees = some inner ∧
        inner.Numbered path watcher
          (WatchChain.locatedAll above parent depth (numberAll first trees))
  | tree :: trees, hdistinct, h => by
    rw [numberAll, WatchChain.locatedAll] at h ⊢
    rcases List.mem_append.mp h with hmem | hmem
    · obtain ⟨rest, inner, hpath, hinner, hnumbered⟩ :=
        numbered_of_mem_located tree hdistinct.2.1 hmem
      refine ⟨tree.key, rest, inner, hpath, ?_, hnumbered.mono (List.prefix_append _ _).isInfix⟩
      rw [WatchForest.tree?, WatchForest.root?_key hdistinct List.mem_cons_self]
      exact hinner
    · obtain ⟨key, rest, inner, hpath, hinner, hnumbered⟩ :=
        numbered_of_mem_locatedAll trees hdistinct.2.2 hmem
      refine ⟨key, rest, inner, hpath, ?_, hnumbered.mono (List.suffix_append _ _).isInfix⟩
      obtain ⟨other, hother, hat⟩ := Option.bind_eq_some_iff.mp hinner
      have hkey : tree.key ≠ key := by
        rw [← WatchForest.key_of_root? hother]
        exact Ne.symm (hdistinct.1 other (WatchForest.mem_of_root? hother))
      rw [WatchForest.tree?, WatchForest.root?, if_neg hkey, hother]
      exact hat

end

mutual

theorem mem_located_of_at? {above rest : WatchPath} {parent : Option Nat}
    {depth first : Nat} {inner : WatchTree} : (tree : WatchTree) → tree.at? rest = some inner →
      ∃ watcher, (above ++ tree.key :: rest, watcher) ∈
        (tree.number first).located above parent depth
  | .node watched bindings children, h => by
    rw [number, WatchChain.located]
    cases rest with
    | nil => exact ⟨_, List.mem_cons_self⟩
    | cons key rest =>
      obtain ⟨watcher, hmem⟩ : ∃ watcher, ((above ++ [watched.key]) ++ key :: rest, watcher) ∈
          WatchChain.locatedAll (above ++ [watched.key]) (some first) (depth + 1)
            (numberAll (first + 1) children) := mem_locatedAll_of_tree? children h
      refine ⟨watcher, List.mem_cons_of_mem _ ?_⟩
      simpa [WatchTree.key, WatchTree.watched] using hmem

/-- The end of every path in a forest is a watcher of the numbered forest. -/
theorem mem_locatedAll_of_tree? {above : WatchPath} {key : WatchKey} {rest : WatchPath}
    {parent : Option Nat} {depth first : Nat} {inner : WatchTree} : (trees : List WatchTree) →
    WatchForest.tree? (key :: rest) trees = some inner →
      ∃ watcher, (above ++ key :: rest, watcher) ∈
        WatchChain.locatedAll above parent depth (numberAll first trees)
  | [], h => by simp [WatchForest.tree?, WatchForest.root?] at h
  | tree :: trees, h => by
    rw [numberAll, WatchChain.locatedAll]
    rw [WatchForest.tree?, WatchForest.root?] at h
    by_cases hkey : tree.key = key
    · subst hkey
      rw [if_pos rfl] at h
      obtain ⟨watcher, hmem⟩ := mem_located_of_at? tree h
      exact ⟨watcher, List.mem_append_left _ hmem⟩
    · rw [if_neg hkey] at h
      obtain ⟨watcher, hmem⟩ := mem_locatedAll_of_tree? trees h
      exact ⟨watcher, List.mem_append_right _ hmem⟩

end

mutual

theorem nodup_paths_number {above : WatchPath} {parent : Option Nat} {depth first : Nat} :
    (tree : WatchTree) → tree.Distinct →
      (((tree.number first).located above parent depth).map Prod.fst).Nodup
  | .node watched bindings children, hdistinct => by
    rw [number, WatchChain.located, List.map_cons, List.nodup_cons]
    refine ⟨fun h => ?_, nodup_paths_numberAll children hdistinct⟩
    obtain ⟨⟨path, watcher⟩, hmem, hpath⟩ := List.mem_map.mp h
    obtain ⟨key, rest, -, hrest, -⟩ := numbered_of_mem_locatedAll children hdistinct hmem
    have hlength := congrArg List.length (hpath.symm.trans hrest)
    simp at hlength

/-- No two watchers of a numbered forest are at the same path. -/
theorem nodup_paths_numberAll {above : WatchPath} {parent : Option Nat} {depth first : Nat} :
    (trees : List WatchTree) → DistinctAll trees →
      ((WatchChain.locatedAll above parent depth (numberAll first trees)).map Prod.fst).Nodup
  | [], _ => by simp [numberAll, WatchChain.locatedAll]
  | tree :: trees, hdistinct => by
    rw [numberAll, WatchChain.locatedAll, List.map_append, List.nodup_append]
    refine ⟨nodup_paths_number tree hdistinct.2.1, nodup_paths_numberAll trees hdistinct.2.2, ?_⟩
    intro path hpath path' hpath' heq
    obtain ⟨⟨_, watcher⟩, hmem, rfl⟩ := List.mem_map.mp hpath
    obtain ⟨⟨_, watcher'⟩, hmem', rfl⟩ := List.mem_map.mp hpath'
    obtain ⟨rest, -, hrest, -⟩ := numbered_of_mem_located tree hdistinct.2.1 hmem
    obtain ⟨key, rest', inner, hrest', hinner, -⟩ :=
      numbered_of_mem_locatedAll trees hdistinct.2.2 hmem'
    -- Both paths go on with the same key, but the keys of the roots are different.
    have hkey : tree.key = key := by
      have := List.append_cancel_left (hrest.symm.trans (heq.trans hrest'))
      exact (List.cons.inj this).1
    obtain ⟨other, hother, -⟩ := Option.bind_eq_some_iff.mp hinner
    refine hdistinct.1 other (WatchForest.mem_of_root? hother) ?_
    rw [WatchForest.key_of_root? hother, hkey]

end

/-! ## Dependents -/

/-- A watcher of a numbered forest is at a path that leads to it in the forest. -/
theorem dependents?_of_mem_locatedAll {above path : WatchPath} {parent : Option Nat}
    {depth first : Nat} {watcher : Watcher} (trees : List WatchTree)
    (hdistinct : DistinctAll trees)
    (h : (path, watcher) ∈ WatchChain.locatedAll above parent depth (numberAll first trees)) :
    ∃ key rest, path = above ++ key :: rest ∧
      WatchForest.dependents? (key :: rest) trees = some watcher.bindings := by
  obtain ⟨key, rest, inner, hpath, hinner, hnumbered⟩ :=
    numbered_of_mem_locatedAll trees hdistinct h
  refine ⟨key, rest, hpath, ?_⟩
  rw [WatchForest.dependents?_eq_map_tree?, hinner, Option.map_some, hnumbered.bindings]

/-- Where a path has dependents, there is a watcher of the numbered forest. -/
theorem mem_locatedAll_of_dependents? {above : WatchPath} {key : WatchKey} {rest : WatchPath}
    {parent : Option Nat} {depth first : Nat} {slots : List Nat} (trees : List WatchTree)
    (h : WatchForest.dependents? (key :: rest) trees = some slots) :
    ∃ watcher, (above ++ key :: rest, watcher) ∈
      WatchChain.locatedAll above parent depth (numberAll first trees) := by
  rw [WatchForest.dependents?_eq_map_tree?] at h
  obtain ⟨inner, hinner, -⟩ := Option.map_eq_some_iff.mp h
  exact mem_locatedAll_of_tree? trees hinner

end WatchTree

end Bindery
