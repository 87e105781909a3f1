import Bindery.Watch.Tree

/-!
# What a forest of watchers holds

A forest of watchers is read by paths: a path either leads to a watcher, and then to the bindings
that depend on it, or nowhere. Inserting a watcher changes the answer for its own path and for no
other one. Besides, the watchers that hang from the same place always have different keys, so that
every watcher of the forest is the one that its path leads to.
-/

namespace Bindery

/-- Notes that a binding depends on a watcher; further notes of the same binding change nothing. -/
def noteDependent (binding : Nat) (dependents : List Nat) : List Nat :=
  if binding ∈ dependents then dependents else dependents ++ [binding]

@[simp] theorem noteDependent_noteDependent (binding : Nat) (dependents : List Nat) :
    noteDependent binding (noteDependent binding dependents) =
      noteDependent binding dependents := by
  unfold noteDependent
  by_cases h : binding ∈ dependents <;> simp [h]

namespace WatchTree

@[simp] theorem watched_addBinding (binding : Nat) (tree : WatchTree) :
    (tree.addBinding binding).watched = tree.watched := by
  cases tree; rfl

@[simp] theorem watched_mapChildren (f : List WatchTree → List WatchTree)
    (tree : WatchTree) : (tree.mapChildren f).watched = tree.watched := by
  cases tree; rfl

@[simp] theorem key_addBinding (binding : Nat) (tree : WatchTree) :
    (tree.addBinding binding).key = tree.key := by
  cases tree; rfl

@[simp] theorem children_addBinding (binding : Nat) (tree : WatchTree) :
    (tree.addBinding binding).children = tree.children := by
  cases tree; rfl

@[simp] theorem bindings_addBinding (binding : Nat) (tree : WatchTree) :
    (tree.addBinding binding).bindings = noteDependent binding tree.bindings := by
  cases tree; rfl

@[simp] theorem key_mapChildren (f : List WatchTree → List WatchTree) (tree : WatchTree) :
    (tree.mapChildren f).key = tree.key := by
  cases tree; rfl

@[simp] theorem bindings_mapChildren (f : List WatchTree → List WatchTree) (tree : WatchTree) :
    (tree.mapChildren f).bindings = tree.bindings := by
  cases tree; rfl

@[simp] theorem children_mapChildren (f : List WatchTree → List WatchTree) (tree : WatchTree) :
    (tree.mapChildren f).children = f tree.children := by
  cases tree; rfl

/-- Changes what hangs from the root if the root has a key. -/
def changeBelow (key : WatchKey) (f : List WatchTree → List WatchTree) (tree : WatchTree) :
    WatchTree :=
  if tree.key = key then tree.mapChildren f else tree

@[simp] theorem key_changeBelow (key : WatchKey) (f : List WatchTree → List WatchTree)
    (tree : WatchTree) : (tree.changeBelow key f).key = tree.key := by
  unfold changeBelow
  split <;> simp

end WatchTree

namespace WatchForest

/-- The tree among others whose root has a key. -/
def root? (key : WatchKey) : WatchForest → Option WatchTree
  | [] => none
  | tree :: trees => if tree.key = key then some tree else root? key trees

end WatchForest

namespace WatchTree

/-- The tree to which a path below the root leads, if it leads to one. -/
def at? : WatchPath → WatchTree → Option WatchTree
  | [], tree => some tree
  | key :: path, tree => (WatchForest.root? key tree.children).bind (at? path)

theorem at?_append (path rest : WatchPath) (tree : WatchTree) :
    tree.at? (path ++ rest) = (tree.at? path).bind (at? rest) := by
  induction path generalizing tree with
  | nil => rfl
  | cons first path ih =>
    rw [List.cons_append, at?, at?, Option.bind_assoc]
    exact congrArg _ (funext ih)

end WatchTree

namespace WatchForest

open WatchTree (at?)

/-- The tree to which a path leads, if it leads to one. -/
def tree? : WatchPath → WatchForest → Option WatchTree
  | [], _ => none
  | key :: path, forest => (forest.root? key).bind (at? path)

/-- The bindings that depend on the watcher to which a path leads, if it leads to one. -/
def dependents? : WatchPath → WatchForest → Option (List Nat)
  | [], _ => none
  | [key], forest => (forest.root? key).map WatchTree.bindings
  | key :: next :: path, forest =>
    (forest.root? key).bind fun tree => dependents? (next :: path) tree.children

/-- A place at which a watcher can hang: the beginning, or below a watcher that is there. -/
def HasPlace (forest : WatchForest) (above : WatchPath) : Prop :=
  above = [] ∨ (forest.dependents? above).isSome

@[simp] theorem dependents?_nil_right (path : WatchPath) :
    dependents? path ([] : WatchForest) = none := by
  match path with
  | [] | [_] | _ :: _ :: _ => rfl

/-- The bindings that depend on a path are those of the tree to which it leads. -/
theorem dependents?_eq_map_tree? : (path : WatchPath) → (forest : WatchForest) →
    forest.dependents? path = (forest.tree? path).map WatchTree.bindings
  | [], _ => rfl
  | [key], forest => by rw [dependents?, tree?]; cases forest.root? key <;> rfl
  | key :: next :: path, forest => by
    rw [dependents?, tree?, Option.map_bind]
    congr 1
    funext tree
    exact dependents?_eq_map_tree? (next :: path) tree.children

/-- A longer path leads on from where the shorter one leads. -/
theorem tree?_append {path : WatchPath} (hpath : path ≠ []) (rest : WatchPath)
    (forest : WatchForest) :
    forest.tree? (path ++ rest) = (forest.tree? path).bind (at? rest) := by
  obtain ⟨first, path, rfl⟩ := List.exists_cons_of_ne_nil hpath
  rw [List.cons_append, tree?, tree?, Option.bind_assoc]
  exact congrArg _ (funext (WatchTree.at?_append path rest))

/-! ## Insertion -/

/-- Insertion among the roots adds the binding to the root with the key, or else a new root. -/
theorem root?_insertHere (watched : Watched) (binding : Nat) (key : WatchKey)
    (forest : WatchForest) :
    (forest.insertHere watched binding).root? key =
      if key = watched.key then
        some (((forest.root? key).map (·.addBinding binding)).getD (.node watched [binding] []))
      else forest.root? key := by
  induction forest with
  | nil =>
    by_cases h : key = watched.key
    · simp [insertHere, root?, WatchTree.key, WatchTree.watched, h]
    · simp [insertHere, root?, WatchTree.key, WatchTree.watched, h, Ne.symm h]
  | cons tree trees ih =>
    by_cases htree : tree.key = watched.key
    · by_cases h : key = watched.key
      · simp [insertHere, root?, htree, h]
      · simp [insertHere, root?, htree, Ne.symm h, h]
    · by_cases hkey : tree.key = key
      · have h : ¬key = watched.key := fun h => htree (hkey.trans h)
        simp [insertHere, root?, hkey, h]
      · simp [insertHere, root?, htree, hkey, ih]

/-- A change that keeps all keys is found under the same key. -/
theorem root?_map {f : WatchTree → WatchTree} (hf : ∀ tree, (f tree).key = tree.key)
    (key : WatchKey) (forest : WatchForest) :
    root? key (forest.map f) = (root? key forest).map f := by
  induction forest with
  | nil => rfl
  | cons tree trees ih =>
    by_cases h : tree.key = key
    · simp [root?, hf, h]
    · simp [root?, hf, h, ih]

/-- Insertion below a watcher changes what hangs from this watcher. -/
theorem insert_cons (watched : Watched) (binding : Nat) (first : WatchKey) (path : WatchPath)
    (forest : WatchForest) :
    insert watched binding (first :: path) forest =
      forest.map (WatchTree.changeBelow first (insert watched binding path)) := rfl

theorem root?_insert_cons (watched : Watched) (binding : Nat) (first : WatchKey)
    (path : WatchPath) (key : WatchKey) (forest : WatchForest) :
    (insert watched binding (first :: path) forest).root? key =
      (forest.root? key).map (WatchTree.changeBelow first (insert watched binding path)) :=
  root?_map (WatchTree.key_changeBelow first _) key forest

/-- A root that is found under a key has this key. -/
theorem key_of_root? {key : WatchKey} {forest : WatchForest} {tree : WatchTree}
    (h : forest.root? key = some tree) : tree.key = key := by
  induction forest with
  | nil => simp [root?] at h
  | cons first trees ih =>
    by_cases hkey : first.key = key
    · simp only [root?, if_pos hkey, Option.some.injEq] at h
      rw [← h, hkey]
    · exact ih (by simpa [root?, hkey] using h)

/-- Below a path with a place, each step but the last leads to a watcher with the rest of it. -/
theorem HasPlace.step {forest : WatchForest} {key : WatchKey} {path : WatchPath}
    (h : forest.HasPlace (key :: path)) :
    ∃ tree, forest.root? key = some tree ∧ HasPlace tree.children path := by
  rcases h with h | h
  · simp at h
  · cases hroot : forest.root? key with
    | none => cases path <;> simp [dependents?, hroot] at h
    | some tree =>
      refine ⟨tree, rfl, ?_⟩
      cases path with
      | nil => exact .inl rfl
      | cons next path => exact .inr (by simpa [dependents?, hroot] using h)

/-- Insertion among the roots changes the tree of the watcher and no other one. -/
theorem tree?_insertHere (watched : Watched) (binding : Nat) (forest : WatchForest)
    (path : WatchPath) :
    (forest.insertHere watched binding).tree? path =
      if path = [watched.key] then
        some (((forest.tree? path).map (·.addBinding binding)).getD (.node watched [binding] []))
      else forest.tree? path := by
  match path with
  | [] => rfl
  | [key] =>
    rw [tree?, root?_insertHere, tree?]
    by_cases h : key = watched.key
    · cases hroot : forest.root? watched.key <;> simp [h, hroot, at?]
    · simp [h]
  | key :: next :: path =>
    rw [tree?, root?_insertHere, tree?]
    by_cases h : key = watched.key
    · cases hroot : forest.root? watched.key with
      | none => simp [h, hroot, at?, WatchTree.children, root?]
      | some tree => simp [h, hroot, at?]
    · simp [h]

/-- Insertion at a place changes the tree at the path of the watcher and what hangs from the trees
along the way. -/
theorem tree?_insert (watched : Watched) (binding : Nat) {above : WatchPath}
    {forest : WatchForest} (hplace : forest.HasPlace above) (path : WatchPath) :
    (forest.insert watched binding above).tree? path =
      if path = above ++ [watched.key] then
        some (((forest.tree? path).map (·.addBinding binding)).getD (.node watched [binding] []))
      else if path <+: above then
        (forest.tree? path).map (·.mapChildren (insert watched binding (above.drop path.length)))
      else forest.tree? path := by
  induction above generalizing forest path with
  | nil =>
    rw [insert, tree?_insertHere, List.nil_append]
    cases path <;> simp [tree?]
  | cons first above ih =>
    obtain ⟨tree, hroot, hbelow⟩ := hplace.step
    cases path with
    | nil => simp [tree?]
    | cons key path =>
      rw [tree?, root?_insert_cons, tree?]
      by_cases hkey : key = first
      · subst hkey
        have hchange : tree.changeBelow key (insert watched binding above) =
            tree.mapChildren (insert watched binding above) :=
          if_pos (key_of_root? hroot)
        rw [hroot, Option.map_some, Option.bind_some, Option.bind_some, hchange]
        cases path with
        | nil => simp [at?]
        | cons next path =>
          have hat := ih hbelow (next :: path)
          simp only [tree?] at hat
          simp only [at?, WatchTree.children_mapChildren, hat, List.cons_append, List.cons.injEq,
            true_and, List.cons_prefix_cons, List.length_cons, List.drop_succ_cons]
      · -- The first key leads past the insertion.
        have hchange : (forest.root? key).map
            (WatchTree.changeBelow first (insert watched binding above)) = forest.root? key := by
          cases hother : forest.root? key with
          | none => rfl
          | some other =>
            have hne : ¬other.key = first := by rwa [key_of_root? hother]
            rw [Option.map_some, WatchTree.changeBelow, if_neg hne]
        simp [hchange, hkey]

/-- Inserting a watcher notes the binding under the path of the watcher and changes nothing under
any other path. -/
theorem dependents?_insert (watched : Watched) (binding : Nat) {above : WatchPath}
    {forest : WatchForest} (hplace : forest.HasPlace above) (path : WatchPath) :
    dependents? path (forest.insert watched binding above) =
      if path = above ++ [watched.key] then
        some (noteDependent binding ((forest.dependents? path).getD []))
      else forest.dependents? path := by
  rw [dependents?_eq_map_tree?, dependents?_eq_map_tree?, tree?_insert watched binding hplace]
  by_cases hpath : path = above ++ [watched.key]
  · rw [if_pos hpath, if_pos hpath]
    cases forest.tree? path with
    | none => simp [WatchTree.bindings, noteDependent]
    | some tree => exact congrArg some (WatchTree.bindings_addBinding binding tree)
  · rw [if_neg hpath, if_neg hpath]
    split
    · rw [Option.map_map]
      congr 1
      funext tree
      exact WatchTree.bindings_mapChildren _ tree
    · rfl

end WatchForest

/-! ## What holds everywhere in a forest -/

namespace WatchTree

mutual

/-- Whether everything that a tree below a path watches has a property, which may depend on the
path that leads to it. -/
def Every (P : WatchPath → Watched → Prop) (above : WatchPath) : WatchTree → Prop
  | node watched _ children =>
    P (above ++ [watched.key]) watched ∧ EveryAll P (above ++ [watched.key]) children

/-- Whether everything that several trees below a path watch has a property. -/
def EveryAll (P : WatchPath → Watched → Prop) (above : WatchPath) : List WatchTree → Prop
  | [] => True
  | tree :: trees => Every P above tree ∧ EveryAll P above trees

end

mutual

/-- Whether watchers that hang from the same watcher of a tree always have different keys. -/
def Distinct : WatchTree → Prop
  | node _ _ children => DistinctAll children

/-- Whether watchers at the same place of several trees always have different keys. -/
def DistinctAll : List WatchTree → Prop
  | [] => True
  | tree :: trees =>
    (∀ other ∈ trees, other.key ≠ tree.key) ∧ Distinct tree ∧ DistinctAll trees

end

section Every

variable {P : WatchPath → Watched → Prop} {above : WatchPath} {tree : WatchTree}

theorem every_addBinding {binding : Nat} (h : tree.Every P above) :
    (tree.addBinding binding).Every P above := by
  cases tree; exact h

theorem every_changeBelow {key : WatchKey} {f : List WatchTree → List WatchTree}
    (hf : ∀ trees, EveryAll P (above ++ [key]) trees → EveryAll P (above ++ [key]) (f trees))
    (h : tree.Every P above) : (tree.changeBelow key f).Every P above := by
  cases tree with
  | node watched slots children =>
    unfold changeBelow
    split
    · next hkey =>
      obtain rfl : watched.key = key := hkey
      exact ⟨h.1, hf children h.2⟩
    · exact h

end Every

theorem distinct_addBinding {binding : Nat} {tree : WatchTree} (h : tree.Distinct) :
    (tree.addBinding binding).Distinct := by
  cases tree; exact h

theorem distinct_changeBelow {f : List WatchTree → List WatchTree}
    (hf : ∀ trees, DistinctAll trees → DistinctAll (f trees)) {key : WatchKey} {tree : WatchTree}
    (h : tree.Distinct) : (tree.changeBelow key f).Distinct := by
  cases tree with
  | node watched slots children =>
    unfold changeBelow
    split
    · exact hf children h
    · exact h

end WatchTree

namespace WatchForest

open WatchTree (Every EveryAll Distinct DistinctAll)

section Every

variable {P : WatchPath → Watched → Prop} {watched : Watched} (binding : Nat)

theorem everyAll_insertHere {base : WatchPath} (hwatched : P (base ++ [watched.key]) watched)
    {forest : WatchForest} (h : EveryAll P base forest) :
    EveryAll P base (forest.insertHere watched binding) := by
  induction forest with
  | nil => exact ⟨⟨hwatched, trivial⟩, trivial⟩
  | cons tree trees ih =>
    rw [insertHere]
    split
    · exact ⟨WatchTree.every_addBinding h.1, h.2⟩
    · exact ⟨h.1, ih h.2⟩

/-- Insertion keeps a property that the new watcher has at its path. -/
theorem everyAll_insert {base : WatchPath} (above : WatchPath)
    (hwatched : P (base ++ above ++ [watched.key]) watched) {forest : WatchForest}
    (h : EveryAll P base forest) : EveryAll P base (forest.insert watched binding above) := by
  induction above generalizing base forest with
  | nil =>
    rw [List.append_nil] at hwatched
    exact everyAll_insertHere binding hwatched h
  | cons key above ih =>
    rw [List.append_cons base key above] at hwatched
    rw [insert_cons]
    induction forest with
    | nil => trivial
    | cons tree trees ihtrees =>
      exact ⟨WatchTree.every_changeBelow (fun _ => ih hwatched) h.1, ihtrees h.2⟩

end Every

/-- Insertion among the roots adds no key but that of the watcher. -/
theorem key_of_mem_insertHere {watched : Watched} {binding : Nat} {forest : WatchForest}
    {tree : WatchTree} (h : tree ∈ forest.insertHere watched binding) :
    tree.key = watched.key ∨ ∃ other ∈ forest, other.key = tree.key := by
  induction forest with
  | nil =>
    rw [insertHere, List.mem_singleton] at h
    exact .inl (by rw [h]; rfl)
  | cons first trees ih =>
    rw [insertHere] at h
    split at h
    · next hkey =>
      rcases List.mem_cons.mp h with rfl | h
      · exact .inl (by simp [hkey])
      · exact .inr ⟨tree, List.mem_cons_of_mem _ h, rfl⟩
    · rcases List.mem_cons.mp h with rfl | h
      · exact .inr ⟨tree, List.mem_cons_self, rfl⟩
      · rcases ih h with h | ⟨other, hmem, hother⟩
        · exact .inl h
        · exact .inr ⟨other, List.mem_cons_of_mem _ hmem, hother⟩

theorem distinctAll_insertHere {watched : Watched} {binding : Nat} {forest : WatchForest}
    (h : DistinctAll forest) : DistinctAll (forest.insertHere watched binding) := by
  induction forest with
  | nil => exact ⟨by simp, trivial, trivial⟩
  | cons tree trees ih =>
    obtain ⟨hkeys, htree, htrees⟩ := h
    rw [insertHere]
    split
    · exact ⟨by simpa using hkeys, WatchTree.distinct_addBinding htree, htrees⟩
    · next hne =>
      refine ⟨fun other hother => ?_, htree, ih htrees⟩
      rcases key_of_mem_insertHere hother with hkey | ⟨old, hold, hkey⟩
      · rw [hkey]
        exact Ne.symm hne
      · rw [← hkey]
        exact hkeys old hold

/-- Insertion keeps the keys at the same place different. -/
theorem distinctAll_insert {watched : Watched} {binding : Nat} (above : WatchPath)
    {forest : WatchForest} (h : DistinctAll forest) :
    DistinctAll (forest.insert watched binding above) := by
  induction above generalizing forest with
  | nil => exact distinctAll_insertHere h
  | cons key above ih =>
    rw [insert_cons]
    induction forest with
    | nil => trivial
    | cons tree trees ihtrees =>
      obtain ⟨hkeys, htree, htrees⟩ := h
      refine ⟨fun other hother => ?_, WatchTree.distinct_changeBelow (fun _ => ih) htree,
        ihtrees htrees⟩
      obtain ⟨old, hold, rfl⟩ := List.mem_map.mp hother
      simpa using hkeys old hold

end WatchForest

end Bindery
