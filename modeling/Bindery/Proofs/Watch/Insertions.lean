import Bindery.Proofs.Watch.Dependents
import Bindery.Proofs.Watch.Numbering

/-!
# Sequences of insertions

A forest of watchers grows by insertions, each of them among the roots or below a watcher that an
earlier insertion has named. What the forest holds at a path can be read off the sequence: the
watcher as the first insertion with this path has described it, the bindings of all of them, and
below it the keys of the insertions that name it, all in the order in which they first arrived.
-/

namespace Bindery

/-- A watcher to be found or added at a place, with a binding that depends on it. -/
structure Insertion where
  /-- The watcher to hang from, or nothing for a root. -/
  above : WatchPath
  watched : Watched
  binding : Nat

namespace Insertion

/-- Where the watcher is afterwards, by which later insertions name it. -/
def path (insertion : Insertion) : WatchPath := insertion.above ++ [insertion.watched.key]

/-- Insertions each of which is among the roots or names a watcher that is already there. -/
inductive Ordered : List Insertion → Prop
  | nil : Ordered []
  | concat {insertions : List Insertion} {insertion : Insertion} : Ordered insertions →
    insertion.above = [] ∨ (∃ earlier ∈ insertions, earlier.path = insertion.above) →
      Ordered (insertions ++ [insertion])

/-- The keys of the watchers that hang from a place, in the order of their first insertion. -/
def keysBelow (insertions : List Insertion) (path : WatchPath) : List WatchKey :=
  ((insertions.filter (·.above = path)).map (·.watched.key)).eraseDups

/-- What the watcher at a path watches: what its first insertion has said. -/
def watchedAt? (insertions : List Insertion) (path : WatchPath) : Option Watched :=
  (insertions.find? (·.path = path)).map Insertion.watched

/-- The bindings that depend on the watcher at a path, in the order of their first insertion. -/
def dependentsAt (insertions : List Insertion) (path : WatchPath) : List Nat :=
  ((insertions.filter (·.path = path)).map Insertion.binding).eraseDups

@[simp] theorem path_ne_nil (insertion : Insertion) : insertion.path ≠ [] := by
  simp [path]

/-- The path of a watcher is longer than those along the way. -/
theorem ne_path_of_prefix (insertion : Insertion) {path : WatchPath}
    (hpath : path <+: insertion.above) : path ≠ insertion.path := by
  rintro rfl
  have hlength := hpath.length_le
  rw [Insertion.path, List.length_append, List.length_singleton] at hlength
  omega

/-- Another element either is there already or comes last. -/
theorem eraseDups_concat {α : Type} [BEq α] [LawfulBEq α] (list : List α) (a : α) :
    (list ++ [a]).eraseDups = if a ∈ list then list.eraseDups else list.eraseDups ++ [a] := by
  rw [List.eraseDups_append]
  by_cases h : a ∈ list <;> simp [List.removeAll, List.eraseDups_cons, h]

section Concat

variable (insertions : List Insertion) (insertion : Insertion)

theorem keysBelow_concat (path : WatchPath) :
    keysBelow (insertions ++ [insertion]) path =
      if insertion.above = path ∧ insertion.watched.key ∉ keysBelow insertions path then
        keysBelow insertions path ++ [insertion.watched.key]
      else keysBelow insertions path := by
  unfold keysBelow
  by_cases habove : insertion.above = path
  · simp only [List.filter_append, List.filter_cons, habove, decide_true, if_true,
      List.filter_nil, List.map_append, List.map_cons, List.map_nil, eraseDups_concat,
      List.mem_eraseDups, true_and, ite_not]
  · simp [habove]

theorem watchedAt?_concat (path : WatchPath) :
    watchedAt? (insertions ++ [insertion]) path =
      if path = insertion.path then some ((watchedAt? insertions path).getD insertion.watched)
      else watchedAt? insertions path := by
  unfold watchedAt?
  rw [List.find?_append]
  by_cases h : path = insertion.path
  · subst h
    cases insertions.find? (·.path = insertion.path) <;> simp
  · simp [h, Ne.symm h]

theorem dependentsAt_concat (path : WatchPath) :
    dependentsAt (insertions ++ [insertion]) path =
      if path = insertion.path then
        noteDependent insertion.binding (dependentsAt insertions path)
      else dependentsAt insertions path := by
  unfold dependentsAt
  by_cases h : path = insertion.path
  · subst h
    have hfilter : (insertions ++ [insertion]).filter (·.path = insertion.path) =
        insertions.filter (·.path = insertion.path) ++ [insertion] := by simp
    rw [if_pos rfl, hfilter, List.map_append, noteDependent]
    simp only [List.mem_eraseDups]
    exact eraseDups_concat _ insertion.binding
  · simp [h, Ne.symm h]

end Concat

end Insertion

/-! ## Keys -/

namespace WatchForest

/-- Insertion among the roots adds the key of the watcher, if it is new. -/
theorem map_key_insertHere (watched : Watched) (binding : Nat) (forest : WatchForest) :
    (forest.insertHere watched binding).map WatchTree.key =
      if watched.key ∈ forest.map WatchTree.key then forest.map WatchTree.key
      else forest.map WatchTree.key ++ [watched.key] := by
  induction forest with
  | nil => rfl
  | cons tree trees ih =>
    rw [insertHere]
    by_cases h : tree.key = watched.key
    · simp [h]
    · rw [if_neg h, List.map_cons, ih, List.map_cons]
      by_cases hmem : watched.key ∈ trees.map WatchTree.key
      · rw [if_pos hmem, if_pos (List.mem_cons_of_mem _ hmem)]
      · rw [if_neg hmem, if_neg (by simpa [Ne.symm h] using hmem), List.cons_append]

/-- Insertion below a root keeps the keys of the roots. -/
theorem map_key_insert_cons (watched : Watched) (binding : Nat) (first : WatchKey)
    (above : WatchPath) (forest : WatchForest) :
    (forest.insert watched binding (first :: above)).map WatchTree.key =
      forest.map WatchTree.key := by
  rw [insert_cons, List.map_map]
  exact List.map_congr_left fun tree _ => WatchTree.key_changeBelow first _ tree

/-! ## Forests of insertions -/

/-- The forest that insertions make of an empty one. -/
def ofInsertions (insertions : List Insertion) : WatchForest :=
  insertions.foldl (fun forest insertion =>
    forest.insert insertion.watched insertion.binding insertion.above) []

theorem ofInsertions_concat (insertions : List Insertion) (insertion : Insertion) :
    ofInsertions (insertions ++ [insertion]) =
      (ofInsertions insertions).insert insertion.watched insertion.binding insertion.above := by
  rw [ofInsertions, List.foldl_append]
  rfl

/-- A tree at a path is as insertions have made it. -/
structure Describes (insertions : List Insertion) (path : WatchPath) (tree : WatchTree) :
    Prop where
  watched : Insertion.watchedAt? insertions path = some tree.watched
  bindings : Insertion.dependentsAt insertions path = tree.bindings
  keys : Insertion.keysBelow insertions path = tree.children.map WatchTree.key

section Concat

variable {insertions : List Insertion} {insertion : Insertion} {path : WatchPath}

/-- An insertion below a place adds its key to those that hang from this place, or goes on below
one of them. -/
theorem keysBelow_concat_of_prefix (hpath : path <+: insertion.above) {trees : WatchForest}
    (h : Insertion.keysBelow insertions path = trees.map WatchTree.key) :
    Insertion.keysBelow (insertions ++ [insertion]) path =
      (trees.insert insertion.watched insertion.binding
        (insertion.above.drop path.length)).map WatchTree.key := by
  obtain ⟨rest, hrest⟩ := hpath
  rw [Insertion.keysBelow_concat, h, ← hrest, List.drop_left]
  cases rest with
  | nil =>
    rw [List.append_nil, insert, map_key_insertHere]
    by_cases hmem : insertion.watched.key ∈ trees.map WatchTree.key <;> simp [hmem]
  | cons key rest =>
    rw [map_key_insert_cons, if_neg (by simp)]

variable {tree : WatchTree}

/-- Another insertion of a watcher that is there adds a binding to it. -/
theorem Describes.again (h : Describes insertions insertion.path tree) :
    Describes (insertions ++ [insertion]) insertion.path (tree.addBinding insertion.binding) where
  watched := by simp [Insertion.watchedAt?_concat, h.watched]
  bindings := by simp [Insertion.dependentsAt_concat, h.bindings]
  keys := by
    have hne : ¬insertion.above = insertion.path := by simp [Insertion.path]
    simp [Insertion.keysBelow_concat, hne, h.keys]

/-- The first insertion of a watcher describes it. -/
theorem Describes.first (hnew : ∀ earlier ∈ insertions, earlier.path ≠ insertion.path)
    (hbelow : ∀ earlier ∈ insertions, earlier.above ≠ insertion.path) :
    Describes (insertions ++ [insertion]) insertion.path
      (.node insertion.watched [insertion.binding] []) where
  watched := by
    have hnone : Insertion.watchedAt? insertions insertion.path = none := by
      simpa [Insertion.watchedAt?] using hnew
    simp [Insertion.watchedAt?_concat, hnone, WatchTree.watched]
  bindings := by
    have hnil : Insertion.dependentsAt insertions insertion.path = [] := by
      have hfilter : insertions.filter (·.path = insertion.path) = [] := by simpa using hnew
      rw [Insertion.dependentsAt, hfilter, List.map_nil, List.eraseDups_nil]
    simp [Insertion.dependentsAt_concat, hnil, noteDependent, WatchTree.bindings]
  keys := by
    have hnil : Insertion.keysBelow insertions insertion.path = [] := by
      have hfilter : insertions.filter (·.above = insertion.path) = [] := by simpa using hbelow
      rw [Insertion.keysBelow, hfilter, List.map_nil, List.eraseDups_nil]
    have hne : ¬insertion.above = insertion.path := by simp [Insertion.path]
    simp [Insertion.keysBelow_concat, hne, hnil, WatchTree.children]

/-- An insertion further below changes what hangs from a tree. -/
theorem Describes.along (h : Describes insertions path tree) (hpath : path <+: insertion.above) :
    Describes (insertions ++ [insertion]) path
      (tree.mapChildren (insert insertion.watched insertion.binding
        (insertion.above.drop path.length))) where
  watched := by
    have hne := insertion.ne_path_of_prefix hpath
    simp [Insertion.watchedAt?_concat, hne, h.watched]
  bindings := by
    have hne := insertion.ne_path_of_prefix hpath
    simp [Insertion.dependentsAt_concat, hne, h.bindings]
  keys := by
    rw [WatchTree.children_mapChildren]
    exact keysBelow_concat_of_prefix hpath h.keys

/-- An insertion elsewhere changes nothing. -/
theorem Describes.elsewhere (h : Describes insertions path tree) (hne : path ≠ insertion.path)
    (hpath : ¬path <+: insertion.above) : Describes (insertions ++ [insertion]) path tree where
  watched := by simp [Insertion.watchedAt?_concat, hne, h.watched]
  bindings := by simp [Insertion.dependentsAt_concat, hne, h.bindings]
  keys := by
    have habove : ¬insertion.above = path := fun heq => hpath (heq ▸ List.prefix_rfl)
    simp [Insertion.keysBelow_concat, habove, h.keys]

end Concat

/-- A forest holds what insertions describe and nothing else. -/
structure Holds (forest : WatchForest) (insertions : List Insertion) : Prop where
  isSome_iff : ∀ path, (forest.tree? path).isSome ↔ ∃ insertion ∈ insertions, insertion.path = path
  keys : Insertion.keysBelow insertions [] = forest.map WatchTree.key
  describes : ∀ {path tree}, forest.tree? path = some tree → Describes insertions path tree

/-- Places of a forest are what further insertions may name. -/
theorem Holds.hasPlace {forest : WatchForest} {insertions : List Insertion}
    (h : forest.Holds insertions) {above : WatchPath}
    (habove : above = [] ∨ ∃ earlier ∈ insertions, earlier.path = above) :
    forest.HasPlace above := by
  refine habove.imp_right fun hearlier => ?_
  rw [dependents?_eq_map_tree?, Option.isSome_map]
  exact (h.isSome_iff above).mpr hearlier

end WatchForest

/-- In an ordered sequence, whatever is named has been inserted. -/
theorem Insertion.Ordered.exists_above {insertions : List Insertion} (h : Ordered insertions) :
    ∀ insertion ∈ insertions, insertion.above = [] ∨
      ∃ earlier ∈ insertions, earlier.path = insertion.above := by
  induction h with
  | nil => simp
  | @concat insertions last _ hlast ih =>
    have hmem {insertion : Insertion} (h : insertion.above = [] ∨
        ∃ earlier ∈ insertions, earlier.path = insertion.above) :
        insertion.above = [] ∨ ∃ earlier ∈ insertions ++ [last], earlier.path = insertion.above :=
      h.imp_right fun ⟨earlier, hearlier, hpath⟩ =>
        ⟨earlier, List.mem_append_left _ hearlier, hpath⟩
    intro insertion hinsertion
    rcases List.mem_append.mp hinsertion with hinsertion | hinsertion
    · exact hmem (ih insertion hinsertion)
    · obtain rfl := List.mem_singleton.mp hinsertion
      exact hmem hlast

namespace WatchForest

/-- One more insertion into a forest that holds what the earlier ones describe. -/
theorem Holds.insert {forest : WatchForest} {insertions : List Insertion} {insertion : Insertion}
    (h : forest.Holds insertions) (hordered : Insertion.Ordered insertions)
    (habove : insertion.above = [] ∨ ∃ earlier ∈ insertions, earlier.path = insertion.above) :
    (forest.insert insertion.watched insertion.binding insertion.above).Holds
      (insertions ++ [insertion]) := by
  have htree (path : WatchPath) :=
    tree?_insert insertion.watched insertion.binding (h.hasPlace habove) path
  refine ⟨fun path => ?_, keysBelow_concat_of_prefix List.nil_prefix h.keys,
    fun {path tree} hsome => ?_⟩
  · have hpath : (∃ other ∈ insertions ++ [insertion], other.path = path) ↔
        (∃ other ∈ insertions, other.path = path) ∨ path = insertion.path := by
      simp [or_and_right, exists_or, eq_comm]
    rw [htree, hpath, ← h.isSome_iff]
    by_cases heq : path = insertion.above ++ [insertion.watched.key]
    · simp [heq, Insertion.path]
    · rw [if_neg heq, or_iff_left (show ¬path = insertion.path from heq)]
      split <;> simp
  · rw [htree] at hsome
    split at hsome
    · next heq =>
      obtain rfl : path = insertion.path := heq
      cases hold : forest.tree? insertion.path with
      | some old =>
        rw [hold] at hsome
        obtain rfl := Option.some.inj hsome
        exact (h.describes hold).again
      | none =>
        rw [hold] at hsome
        obtain rfl := Option.some.inj hsome
        have hnew : ∀ earlier ∈ insertions, earlier.path ≠ insertion.path := by
          intro earlier hearlier hpath
          have hsome := (h.isSome_iff insertion.path).mpr ⟨earlier, hearlier, hpath⟩
          simp [hold] at hsome
        refine .first hnew fun earlier hearlier hpath => ?_
        -- What hangs from the new watcher would have named it before.
        rcases hordered.exists_above earlier hearlier with hnil | ⟨other, hother, heq⟩
        · exact insertion.path_ne_nil (hpath.symm.trans hnil)
        · exact hnew other hother (heq.trans hpath)
    · next hne =>
      split at hsome
      · next halong =>
        obtain ⟨old, hold, rfl⟩ := Option.map_eq_some_iff.mp hsome
        exact (h.describes hold).along halong
      · next halong => exact (h.describes hsome).elsewhere hne halong

/-- The forest of an ordered sequence of insertions holds what they describe. -/
theorem holds_ofInsertions {insertions : List Insertion} (h : Insertion.Ordered insertions) :
    (ofInsertions insertions).Holds insertions := by
  induction h with
  | nil => exact ⟨fun path => by cases path <;> simp [ofInsertions, tree?, root?], rfl,
      fun {path _} hsome => by cases path <;> simp [ofInsertions, tree?, root?] at hsome⟩
  | concat hordered habove ih =>
    rw [ofInsertions_concat]
    exact ih.insert hordered habove

end WatchForest

/-! ## The insertions of an analysis -/

namespace Database

open WatchForest (Grown ofInsertions ofInsertions_concat holds_ofInsertions)

/-- What a forest of insertions grows into is a forest of insertions. -/
theorem exists_insertions_of_grown {binding : Nat} {before after : WatchForest}
    (h : Grown binding before after)
    (hbefore : ∃ insertions, Insertion.Ordered insertions ∧ before = ofInsertions insertions) :
    ∃ insertions, Insertion.Ordered insertions ∧ after = ofInsertions insertions := by
  induction h with
  | refl => exact hbefore
  | @insert _ watched above _ _ hplace ih =>
    obtain ⟨insertions, hordered, rfl⟩ := ih
    refine ⟨insertions ++ [⟨above, watched, binding⟩], .concat hordered ?_,
      (ofInsertions_concat insertions ⟨above, watched, binding⟩).symm⟩
    refine hplace.imp_right fun hsome => ?_
    rw [WatchForest.dependents?_eq_map_tree?, Option.isSome_map] at hsome
    exact ((holds_ofInsertions hordered).isSome_iff above).mp hsome

/-- The watchers of every database are the numbered ones of an ordered sequence of insertions. -/
theorem exists_insertions (resolver : Resolver) (bindings : List Binding) :
    ∃ insertions, Insertion.Ordered insertions ∧
      (ofBindings resolver bindings).1.chains =
        WatchTree.numberAll 0 (ofInsertions insertions) := by
  obtain ⟨insertions, hordered, heq⟩ : ∃ insertions, Insertion.Ordered insertions ∧
      (analyzeSources resolver bindings).forest = ofInsertions insertions := by
    refine List.foldlRecOn bindings _
      (motive := fun state : WatchAnalysis => ∃ insertions, Insertion.Ordered insertions ∧
        state.forest = ofInsertions insertions) ⟨[], .nil, rfl⟩ fun state ih binding _ => ?_
    exact exists_insertions_of_grown (noted_analyzeSource resolver binding state).2 ih
  exact ⟨insertions, hordered, congrArg (WatchTree.numberAll 0) heq⟩

end Database

end Bindery
