import Bindery.Binding.Database
import Bindery.Proofs.Watch.Numbering
import Mathlib.Data.List.Flatten
import Mathlib.Data.List.Nodup

/-!
# Roots of watchers

Following parents, every watcher leads to a root. Whether a watcher is constructed when the program
runs is decided at its root alone: the chains that are constructed consist of the watchers whose
root can be made to fire.
-/

namespace Bindery

/-! ## Chains as lists of watchers -/

namespace WatchChain

theorem watchersAll_eq_flatMap (parent : Option Nat) (depth : Nat) (chains : List WatchChain) :
    watchersAll parent depth chains = chains.flatMap (watchers parent depth) := by
  induction chains with
  | nil => rfl
  | cons chain chains ih => rw [watchersAll, ih, List.flatMap_cons]

/-- The first watcher of a chain by itself. -/
def rootWatcher (chain : WatchChain) : Watcher where
  slot := chain.slot
  watched := chain.watched
  bindings := chain.bindings
  parent := none
  depth := 0
  children := chain.children.map WatchChain.slot

theorem watchers_eq_cons (chain : WatchChain) :
    chain.watchers none 0 =
      chain.rootWatcher :: watchersAll (some chain.slot) 1 chain.children := by
  obtain ⟨slot, watched, bindings, children⟩ := chain
  rw [watchers]
  rfl

theorem isUnobservable_rootWatcher (chain : WatchChain) :
    chain.rootWatcher.isUnobservable = chain.isUnobservable := by
  simp [Watcher.isUnobservable, isUnobservable, rootWatcher]

/-- The first watcher of a chain. -/
theorem exists_first (parent : Option Nat) (depth : Nat) (chain : WatchChain) :
    ∃ first ∈ chain.watchers parent depth, first.slot = chain.slot ∧ first.parent = parent := by
  obtain ⟨slot, watched, bindings, children⟩ := chain
  rw [watchers]
  exact ⟨_, List.mem_cons_self, rfl, rfl⟩

mutual

theorem exists_child_of_mem_watchers {watcher : Watcher} {slot : Nat}
    (hslot : slot ∈ watcher.children) {parent : Option Nat} {depth : Nat} :
    (chain : WatchChain) → watcher ∈ chain.watchers parent depth →
    ∃ child ∈ chain.watchers parent depth, child.slot = slot ∧ child.parent = some watcher.slot
  | .link root watched bindings children, hmem => by
    rw [watchers] at hmem ⊢
    rcases List.mem_cons.mp hmem with rfl | hmem
    · obtain ⟨chain, hchain, rfl⟩ := List.mem_map.mp hslot
      obtain ⟨first, hfirst, hslot, hparent⟩ := exists_first (some root) (depth + 1) chain
      refine ⟨first, List.mem_cons_of_mem _ ?_, hslot, hparent⟩
      rw [watchersAll_eq_flatMap]
      exact List.mem_flatMap.mpr ⟨chain, hchain, hfirst⟩
    · obtain ⟨child, hchild, heq⟩ := exists_child_of_mem_watchersAll hslot children hmem
      exact ⟨child, List.mem_cons_of_mem _ hchild, heq⟩

/-- The children of a watcher name it as their parent. -/
theorem exists_child_of_mem_watchersAll {watcher : Watcher} {slot : Nat}
    (hslot : slot ∈ watcher.children) {parent : Option Nat} {depth : Nat} :
    (chains : List WatchChain) → watcher ∈ watchersAll parent depth chains →
    ∃ child ∈ watchersAll parent depth chains,
      child.slot = slot ∧ child.parent = some watcher.slot
  | chain :: chains, hmem => by
    rw [watchersAll] at hmem ⊢
    rcases List.mem_append.mp hmem with hmem | hmem
    · obtain ⟨child, hchild, heq⟩ := exists_child_of_mem_watchers hslot chain hmem
      exact ⟨child, List.mem_append_left _ hchild, heq⟩
    · obtain ⟨child, hchild, heq⟩ := exists_child_of_mem_watchersAll hslot chains hmem
      exact ⟨child, List.mem_append_right _ hchild, heq⟩

end

mutual

theorem parent_of_mem_watchers {child : Watcher} {parent : Option Nat} {depth : Nat} :
    (chain : WatchChain) → child ∈ chain.watchers parent depth →
    (child.parent = parent ∧ child.slot = chain.slot) ∨
      ∃ watcher ∈ chain.watchers parent depth,
        child.parent = some watcher.slot ∧ child.slot ∈ watcher.children
  | .link root watched bindings children, hmem => by
    rw [watchers] at hmem ⊢
    rcases List.mem_cons.mp hmem with rfl | hmem
    · exact .inl ⟨rfl, rfl⟩
    · right
      rcases parent_of_mem_watchersAll children hmem with ⟨hparent, hslot⟩ | ⟨watcher, hwatcher, h⟩
      · exact ⟨_, List.mem_cons_self, hparent, hslot⟩
      · exact ⟨watcher, List.mem_cons_of_mem _ hwatcher, h⟩

/-- A watcher that is not one of the first ones is among the children of another. -/
theorem parent_of_mem_watchersAll {child : Watcher} {parent : Option Nat} {depth : Nat} :
    (chains : List WatchChain) → child ∈ watchersAll parent depth chains →
    (child.parent = parent ∧ child.slot ∈ chains.map slot) ∨
      ∃ watcher ∈ watchersAll parent depth chains,
        child.parent = some watcher.slot ∧ child.slot ∈ watcher.children
  | chain :: chains, hmem => by
    rw [watchersAll] at hmem ⊢
    rcases List.mem_append.mp hmem with hmem | hmem
    · rcases parent_of_mem_watchers chain hmem with ⟨hparent, hslot⟩ | ⟨watcher, hwatcher, h⟩
      · exact .inl ⟨hparent, List.mem_map.mpr ⟨chain, List.mem_cons_self, hslot.symm⟩⟩
      · exact .inr ⟨watcher, List.mem_append_left _ hwatcher, h⟩
    · rcases parent_of_mem_watchersAll chains hmem with ⟨hparent, hslot⟩ | ⟨watcher, hwatcher, h⟩
      · exact .inl ⟨hparent, List.mem_cons_of_mem _ hslot⟩
      · exact .inr ⟨watcher, List.mem_append_right _ hwatcher, h⟩

end

/-- Where slots are different, the children of a watcher are those that name it as their parent. -/
theorem mem_children_iff {chains : List WatchChain}
    (hslots : ((watchersAll none 0 chains).map Watcher.slot).Nodup) {parent : Watcher}
    (hparent : parent ∈ watchersAll none 0 chains) {slot : Nat} :
    slot ∈ parent.children ↔
      ∃ child ∈ watchersAll none 0 chains,
        child.slot = slot ∧ child.parent = some parent.slot := by
  constructor
  · intro hslot
    exact exists_child_of_mem_watchersAll hslot chains hparent
  · rintro ⟨child, hchild, rfl, hslot⟩
    rcases parent_of_mem_watchersAll chains hchild with
      ⟨hnone, -⟩ | ⟨watcher, hwatcher, hslot', hmem⟩
    · simp [hnone] at hslot
    · have heq := Option.some.inj (hslot'.symm.trans hslot)
      obtain rfl := List.inj_on_of_nodup_map hslots hwatcher hparent heq
      exact hmem

end WatchChain

/-! ## Roots -/

namespace Database

/-- The watchers of the chains that are constructed, in the order of their slots. -/
def builtWatchers (db : Database) : List Watcher :=
  WatchChain.watchersAll none 0 db.constructed

/-- The watcher to which the parents of a watcher lead in the end. -/
inductive RootOf (db : Database) : Watcher → Watcher → Prop
  | root {watcher : Watcher} : watcher ∈ db.watchers → watcher.parent = none →
    RootOf db watcher watcher
  | child {watcher parent root : Watcher} : watcher ∈ db.watchers →
    watcher.parent = some parent.slot → RootOf db parent root → RootOf db watcher root

/-- A watcher is constructed if something can make its root fire. -/
def IsBuilt (db : Database) (watcher : Watcher) : Prop :=
  ∃ root, db.RootOf watcher root ∧ root.isUnobservable = false

theorem sublist_builtWatchers (db : Database) : db.builtWatchers.Sublist db.watchers := by
  rw [builtWatchers, watchers, WatchChain.watchersAll_eq_flatMap,
    WatchChain.watchersAll_eq_flatMap]
  exact List.filter_sublist.flatMap _

theorem RootOf.mem_watchers {db : Database} {watcher root : Watcher}
    (h : db.RootOf watcher root) : watcher ∈ db.watchers := by
  cases h <;> assumption

/-- Where slots are different, a watcher has one root. -/
theorem RootOf.unique {db : Database} (hslots : (db.watchers.map Watcher.slot).Nodup)
    {watcher root root' : Watcher} (h : db.RootOf watcher root) (h' : db.RootOf watcher root') :
    root = root' := by
  induction h with
  | root _ hnone =>
    cases h' with
    | root => rfl
    | child _ hparent _ => simp [hnone] at hparent
  | child _ hparent hroot ih =>
    cases h' with
    | root _ hnone => simp [hnone] at hparent
    | child _ hparent' hroot' =>
      have hslot := Option.some.inj (hparent.symm.trans hparent')
      obtain rfl := List.inj_on_of_nodup_map hslots hroot.mem_watchers hroot'.mem_watchers hslot
      exact ih hroot'

variable {db : Database}

mutual

theorem rootOf_of_mem_watchers {parent root watcher : Watcher} {depth : Nat} :
    (chain : WatchChain) → db.RootOf parent root →
    (∀ watcher ∈ chain.watchers (some parent.slot) depth, watcher ∈ db.watchers) →
    watcher ∈ chain.watchers (some parent.slot) depth → db.RootOf watcher root
  | .link slot watched bindings children, hroot, hsub, hmem => by
    rw [WatchChain.watchers] at hsub hmem
    have hfirst := RootOf.child (hsub _ List.mem_cons_self) rfl hroot
    rcases List.mem_cons.mp hmem with rfl | hmem
    · exact hfirst
    · exact rootOf_of_mem_watchersAll children hfirst
        (fun watcher hwatcher => hsub watcher (List.mem_cons_of_mem _ hwatcher)) hmem

/-- What hangs from a watcher has the same root. -/
theorem rootOf_of_mem_watchersAll {parent root watcher : Watcher} {depth : Nat} :
    (chains : List WatchChain) → db.RootOf parent root →
    (∀ watcher ∈ WatchChain.watchersAll (some parent.slot) depth chains,
      watcher ∈ db.watchers) →
    watcher ∈ WatchChain.watchersAll (some parent.slot) depth chains → db.RootOf watcher root
  | chain :: chains, hroot, hsub, hmem => by
    rw [WatchChain.watchersAll] at hsub hmem
    rcases List.mem_append.mp hmem with hmem | hmem
    · exact rootOf_of_mem_watchers chain hroot
        (fun watcher hwatcher => hsub watcher (List.mem_append_left _ hwatcher)) hmem
    · exact rootOf_of_mem_watchersAll chains hroot
        (fun watcher hwatcher => hsub watcher (List.mem_append_right _ hwatcher)) hmem

end

/-- The root of all watchers of a chain is its first one. -/
theorem rootOf_rootWatcher {chain : WatchChain} (hchain : chain ∈ db.chains) {watcher : Watcher}
    (hmem : watcher ∈ chain.watchers none 0) : db.RootOf watcher chain.rootWatcher := by
  have hsub (watcher : Watcher) (hwatcher : watcher ∈ chain.watchers none 0) :
      watcher ∈ db.watchers := by
    rw [watchers, WatchChain.watchersAll_eq_flatMap]
    exact List.mem_flatMap.mpr ⟨chain, hchain, hwatcher⟩
  rw [WatchChain.watchers_eq_cons] at hsub hmem
  have hroot : db.RootOf chain.rootWatcher chain.rootWatcher :=
    .root (hsub _ List.mem_cons_self) rfl
  rcases List.mem_cons.mp hmem with rfl | hmem
  · exact hroot
  · exact rootOf_of_mem_watchersAll chain.children hroot
      (fun watcher hwatcher => hsub watcher (List.mem_cons_of_mem _ hwatcher)) hmem

/-- The constructed chains consist of the watchers whose root something can make fire. -/
theorem mem_builtWatchers_iff (hslots : (db.watchers.map Watcher.slot).Nodup)
    {watcher : Watcher} :
    watcher ∈ db.builtWatchers ↔ watcher ∈ db.watchers ∧ db.IsBuilt watcher := by
  constructor
  · intro hmem
    refine ⟨db.sublist_builtWatchers.subset hmem, ?_⟩
    rw [builtWatchers, WatchChain.watchersAll_eq_flatMap] at hmem
    obtain ⟨chain, hchain, hwatcher⟩ := List.mem_flatMap.mp hmem
    obtain ⟨hchain, hobservable⟩ := List.mem_filter.mp hchain
    refine ⟨chain.rootWatcher, rootOf_rootWatcher hchain hwatcher, ?_⟩
    rw [WatchChain.isUnobservable_rootWatcher]
    simpa using hobservable
  · rintro ⟨hmem, root, hroot, hobservable⟩
    rw [watchers, WatchChain.watchersAll_eq_flatMap] at hmem
    obtain ⟨chain, hchain, hwatcher⟩ := List.mem_flatMap.mp hmem
    have heq := hroot.unique hslots (rootOf_rootWatcher hchain hwatcher)
    rw [heq, WatchChain.isUnobservable_rootWatcher] at hobservable
    rw [builtWatchers, WatchChain.watchersAll_eq_flatMap]
    have hbuilt : chain ∈ db.constructed := List.mem_filter.mpr ⟨hchain, by simp [hobservable]⟩
    exact List.mem_flatMap.mpr ⟨chain, hbuilt, hwatcher⟩

/-- A watcher without a parent is its own root. -/
theorem RootOf.eq_of_parent_eq_none {watcher root : Watcher} (h : db.RootOf watcher root)
    (hnone : watcher.parent = none) : root = watcher := by
  cases h with
  | root => rfl
  | child _ hparent _ => simp [hnone] at hparent

/-- What a constructed watcher hangs from is constructed as well. -/
theorem IsBuilt.exists_parent {watcher : Watcher} (h : db.IsBuilt watcher) {slot : Nat}
    (hslot : watcher.parent = some slot) :
    ∃ parent ∈ db.watchers, parent.slot = slot ∧ db.IsBuilt parent := by
  obtain ⟨root, hroot, hobservable⟩ := h
  cases hroot with
  | root _ hnone => simp [hnone] at hslot
  | child _ hparent hroot =>
    exact ⟨_, hroot.mem_watchers, Option.some.inj (hparent.symm.trans hslot), root, hroot,
      hobservable⟩

/-- Every watcher has a root. -/
theorem exists_rootOf {watcher : Watcher} (hmem : watcher ∈ db.watchers) :
    ∃ root, db.RootOf watcher root := by
  rw [watchers, WatchChain.watchersAll_eq_flatMap] at hmem
  obtain ⟨chain, hchain, hwatcher⟩ := List.mem_flatMap.mp hmem
  exact ⟨_, rootOf_rootWatcher hchain hwatcher⟩

end Database

end Bindery
