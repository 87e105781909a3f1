import Bindery.Proofs.Document.Growth
import Bindery.Proofs.Links
import Mathlib.Data.List.Perm.Subperm
import Mathlib.Data.List.Range

/-!
# Documents in preorder

The walk through a document takes nodes from a stack, and puts their children there instead. What
comes out is the recursive preorder of the tree that hangs from the document. This tree follows from
the parents alone: a node hangs from the node that it names as its parent if that had been added
before. All others, such as a node that names itself and whatever hangs from it, are never reached.
-/

namespace Bindery

namespace Document

open Link

/-! ## The preorder of a tree -/

/-- The nodes that name a node as their parent and were added after it, in the order in which they
were added. -/
def laterChildren (doc : Document) (id : Nat) : List Nat :=
  (List.range doc.size).filter fun child => doc.parent? child = some id ∧ id < child

theorem mem_laterChildren {doc : Document} {id child : Nat} :
    child ∈ doc.laterChildren id ↔ doc.parent? child = some id ∧ id < child := by
  simp only [laterChildren, List.mem_filter, List.mem_range, decide_eq_true_eq,
    and_iff_right_iff_imp]
  rintro ⟨hparent, -⟩
  exact lt_size_of_parent? (Option.isSome_of_eq_some hparent)

/-- A node and then, child by child, all that hangs from it. -/
def preorder (doc : Document) (id : Nat) : List Nat :=
  id :: (doc.laterChildren id).attach.flatMap fun ⟨child, _⟩ => doc.preorder child
termination_by doc.size - id
decreasing_by
  rename_i hmem
  obtain ⟨hparent, hlt⟩ := mem_laterChildren.mp hmem
  have hsize := lt_size_of_parent? (Option.isSome_of_eq_some hparent)
  omega

theorem preorder_eq (doc : Document) (id : Nat) :
    doc.preorder id = id :: (doc.laterChildren id).flatMap doc.preorder := by
  rw [preorder, List.flatMap_subtype (g := doc.preorder) (by simp), List.unattach_attach]

/-! ## What the preorder visits -/

section Preorder

variable {doc : Document} {id other : Nat}

theorem self_mem_preorder (doc : Document) (id : Nat) : id ∈ doc.preorder id := by
  rw [preorder_eq]
  exact List.mem_cons_self

theorem preorder_sublist {child : Nat} (h : child ∈ doc.laterChildren id) :
    (doc.preorder child).Sublist ((doc.laterChildren id).flatMap doc.preorder) := by
  rw [List.flatMap_def]
  exact List.sublist_flatten_of_mem (List.mem_map_of_mem h)

/-- What the preorder of a node visits besides the node itself has a parent that was added, and is
visited, before it. -/
theorem eq_or_exists_parent_of_mem_preorder (h : other ∈ doc.preorder id) :
    other = id ∨ ∃ parent, doc.parent? other = some parent ∧ parent < other ∧
      [parent, other].Sublist (doc.preorder id) := by
  induction id using preorder.induct doc with
  | case1 id ih =>
    rw [preorder_eq] at h ⊢
    rcases List.mem_cons.mp h with heq | hbelow
    · exact .inl heq
    · right
      obtain ⟨child, hchild, hmem⟩ := List.mem_flatMap.mp hbelow
      obtain ⟨hparent, hlt⟩ := mem_laterChildren.mp hchild
      rcases ih child hchild hmem with rfl | ⟨parent, hfound, hless, hsublist⟩
      · refine ⟨id, hparent, hlt, .cons_cons id ?_⟩
        exact List.singleton_sublist.mpr hbelow
      · exact ⟨parent, hfound, hless, .cons id (hsublist.trans (preorder_sublist hchild))⟩

/-- The preorder of a node goes on to the children of all that it visits. -/
theorem mem_preorder_of_mem_laterChildren {child : Nat} (h : other ∈ doc.preorder id)
    (hchild : child ∈ doc.laterChildren other) : child ∈ doc.preorder id := by
  induction id using preorder.induct doc with
  | case1 id ih =>
    rw [preorder_eq] at h ⊢
    refine List.mem_cons_of_mem _ ?_
    rcases List.mem_cons.mp h with rfl | hbelow
    · exact List.mem_flatMap.mpr ⟨child, hchild, doc.self_mem_preorder child⟩
    · obtain ⟨next, hnext, hmem⟩ := List.mem_flatMap.mp hbelow
      exact List.mem_flatMap.mpr ⟨next, hnext, ih next hnext hmem⟩

/-- The preorder of a node visits only what was added after it. -/
theorem le_of_mem_preorder (h : other ∈ doc.preorder id) : id ≤ other := by
  induction other using Nat.strong_induction_on with
  | _ other ih =>
    rcases eq_or_exists_parent_of_mem_preorder h with rfl | ⟨parent, -, hlt, hsublist⟩
    · exact le_rfl
    · have hparent : parent ∈ doc.preorder id := hsublist.subset List.mem_cons_self
      have hle := ih parent hlt hparent
      omega

/-- Nothing hangs from two children of one node: its parent would hang from both of them. -/
theorem disjoint_preorder {child child' : Nat} (hchild : child ∈ doc.laterChildren id)
    (hchild' : child' ∈ doc.laterChildren id) (hne : child ≠ child') :
    (doc.preorder child).Disjoint (doc.preorder child') := by
  intro node hnode hnode'
  obtain ⟨hparent, hlt⟩ := mem_laterChildren.mp hchild
  obtain ⟨hparent', hlt'⟩ := mem_laterChildren.mp hchild'
  induction node using Nat.strong_induction_on with
  | _ node ih =>
    rcases eq_or_exists_parent_of_mem_preorder hnode with heq | ⟨up, hup, hless, hsublist⟩ <;>
      rcases eq_or_exists_parent_of_mem_preorder hnode' with heq' | ⟨up', hup', -, hsublist'⟩
    · exact hne (heq.symm.trans heq')
    · -- The first child hangs from the second one, and so does its parent, which was added before.
      rw [heq, hparent] at hup'
      obtain rfl := Option.some.inj hup'
      have hle := le_of_mem_preorder (hsublist'.subset List.mem_cons_self)
      omega
    · rw [heq', hparent'] at hup
      obtain rfl := Option.some.inj hup
      have hle := le_of_mem_preorder (hsublist.subset List.mem_cons_self)
      omega
    · obtain rfl := Option.some.inj (hup.symm.trans hup')
      exact ih up hless (hsublist.subset List.mem_cons_self) (hsublist'.subset List.mem_cons_self)

theorem nodup_preorder (doc : Document) (id : Nat) : (doc.preorder id).Nodup := by
  induction id using preorder.induct doc with
  | case1 id ih =>
    rw [preorder_eq, List.nodup_cons, List.nodup_flatMap]
    refine ⟨?_, ih, ?_⟩
    · intro hmem
      obtain ⟨child, hchild, hbelow⟩ := List.mem_flatMap.mp hmem
      have hlt := (mem_laterChildren.mp hchild).2
      have hle := le_of_mem_preorder hbelow
      omega
    · have hnodup : (doc.laterChildren id).Nodup := List.nodup_range.filter _
      exact hnodup.imp_of_mem fun hchild hchild' hne => disjoint_preorder hchild hchild' hne

/-- From the document, the preorder visits what hangs from it. -/
theorem mem_preorder_zero_iff : id ∈ doc.preorder 0 ↔ doc.Rooted id := by
  constructor
  · intro h
    induction id using Nat.strong_induction_on with
    | _ id ih =>
      rcases eq_or_exists_parent_of_mem_preorder h with rfl | ⟨parent, hparent, hlt, hsublist⟩
      · exact .root
      · exact .child (ih parent hlt (hsublist.subset List.mem_cons_self)) hparent hlt
  · intro h
    induction h with
    | root => exact doc.self_mem_preorder 0
    | child _ hparent hlt ih =>
      exact mem_preorder_of_mem_laterChildren ih (mem_laterChildren.mpr ⟨hparent, hlt⟩)

end Preorder

/-! ## The walk -/

section Walk

variable {doc : Document} {className : String} {id : Nat}

/-- A node has the children that name it as their parent and were not added before it, in the order
in which they were added. -/
theorem Built.children_eq (h : doc.Built className) (id : Nat) :
    doc.children id =
      (List.range doc.size).filter fun child => doc.parent? child = some id ∧ id ≤ child := by
  induction h with
  | start => cases id <;> rfl
  | @add doc parent kind span _ ih =>
    have hold : (List.range doc.size).filter (fun child =>
          (doc.add parent kind span).parent? child = some id ∧ id ≤ child) =
        (List.range doc.size).filter fun child => doc.parent? child = some id ∧ id ≤ child := by
      refine List.filter_congr fun child hchild => ?_
      have hlt : child < doc.size := List.mem_range.mp hchild
      rw [parent?_add, if_neg (by omega)]
    rw [children_add, size_add, List.range_succ, List.filter_append, hold, ih,
      List.filter_singleton, parent?_add, if_pos rfl]
    simp

/-- To what hangs from the document, no child was added with itself as its parent. -/
theorem Built.children_eq_laterChildren (h : doc.Built className) (hrooted : doc.Rooted id) :
    doc.children id = doc.laterChildren id := by
  rw [h.children_eq, laterChildren]
  refine List.filter_congr fun child _ => ?_
  have hne : doc.parent? child = some id → child ≠ id := by
    rintro hparent rfl
    have hlt := (hrooted.parent h.ordered hparent).2
    omega
  rw [decide_eq_decide]
  constructor
  · rintro ⟨hparent, hle⟩
    have := hne hparent
    exact ⟨hparent, by omega⟩
  · rintro ⟨hparent, hlt⟩
    exact ⟨hparent, by omega⟩

/-- A stack of nodes is visited in the preorders of the nodes, one after the other, as far as visits
are allowed. -/
theorem Built.visit_eq (h : doc.Built className) (fuel : Nat) (stack : List Nat)
    (hstack : ∀ node ∈ stack, doc.Rooted node) :
    doc.visit fuel stack = (stack.flatMap doc.preorder).take fuel := by
  induction fuel generalizing stack with
  | zero => simp [visit]
  | succ fuel ih =>
    cases stack with
    | nil => simp [visit]
    | cons node stack =>
      obtain ⟨hnode, hrest⟩ := List.forall_mem_cons.mp hstack
      have hchildren : ∀ child ∈ doc.children node, doc.Rooted child :=
        fun child hchild => hnode.of_mem_children h.ordered hchild
      rw [visit, ih _ (List.forall_mem_append.mpr ⟨hchildren, hrest⟩),
        h.children_eq_laterChildren hnode, List.flatMap_cons, preorder_eq, List.flatMap_append]
      rfl

/-- There are no more nodes in the preorder than in the document. -/
theorem Ordered.length_preorder_le (h : doc.Ordered className) :
    (doc.preorder 0).length ≤ doc.size := by
  have hsubset : doc.preorder 0 ⊆ List.range doc.size := by
    intro id hid
    rw [List.mem_range]
    rcases eq_or_exists_parent_of_mem_preorder hid with rfl | ⟨parent, hparent, -⟩
    · exact h.size_pos
    · exact lt_size_of_parent? (Option.isSome_of_eq_some hparent)
  simpa using ((doc.nodup_preorder 0).subperm hsubset).length_le

theorem Built.visit_zero (h : doc.Built className) {fuel : Nat} (hle : doc.size ≤ fuel) :
    doc.visit fuel [0] = doc.preorder 0 := by
  rw [h.visit_eq fuel [0] (by simpa using Rooted.root), List.flatMap_singleton,
    List.take_of_length_le (h.ordered.length_preorder_le.trans hle)]

/-- The way up from what hangs from the document ends there. -/
theorem Rooted.exists_follow (h : doc.Rooted id) :
    ∃ steps ≤ id, follow doc.parent? steps id = some 0 := by
  induction h with
  | root => exact ⟨0, le_rfl, rfl⟩
  | @child parent id _ hparent hlt ih =>
    obtain ⟨steps, hle, hfollow⟩ := ih
    exact ⟨steps + 1, by omega, by rw [follow, hparent, Option.bind_some, hfollow]⟩

/-- What a walk through a document makes of it. -/
structure WalksInPreorder (doc : Document) : Prop where
  /-- As many visits as there are nodes are enough: with more of them allowed, it is the same. -/
  visit_eq : ∀ fuel, doc.size ≤ fuel → doc.visit fuel [0] = doc.walk
  /-- The nodes come in the recursive preorder of the tree. -/
  walk_eq : doc.walk = doc.preorder 0
  /-- Those come that hang from the document, from parent to parent that were added before. -/
  mem_walk_iff : ∀ id, id ∈ doc.walk ↔ doc.Rooted id
  /-- None of them comes twice. -/
  nodup : doc.walk.Nodup
  /-- Each comes after its parent. -/
  parent_before : ∀ id ∈ doc.walk, id ≠ 0 →
    ∃ parent, doc.parent? id = some parent ∧ [parent, id].Sublist doc.walk
  /-- The way up from each ends at the document. -/
  follow_eq : ∀ id ∈ doc.walk, ∃ steps ≤ id, follow doc.parent? steps id = some 0 ∧
    EndsAfter doc.parent? id steps

/-- **A walk is the preorder of the tree.** In a document that was grown node by node, with whatever
numbers for parents, the walk ends and gives the recursive preorder of the tree that hangs from the
document, with children in the order in which they were added. -/
theorem walksInPreorder (h : doc.Built className) : doc.WalksInPreorder := by
  have hwalk : doc.walk = doc.preorder 0 := h.visit_zero le_rfl
  refine {
    visit_eq := fun fuel hle => by rw [hwalk, h.visit_zero hle]
    walk_eq := hwalk
    mem_walk_iff := fun id => by rw [hwalk, mem_preorder_zero_iff]
    nodup := hwalk ▸ doc.nodup_preorder 0
    parent_before := fun id hid hne => ?_
    follow_eq := fun id hid => ?_ }
  · rw [hwalk] at hid ⊢
    rcases eq_or_exists_parent_of_mem_preorder hid with rfl | ⟨parent, hparent, -, hsublist⟩
    · exact absurd rfl hne
    · exact ⟨parent, hparent, hsublist⟩
  · rw [hwalk, mem_preorder_zero_iff] at hid
    obtain ⟨steps, hle, hfollow⟩ := hid.exists_follow
    exact ⟨steps, hle, hfollow, 0, hfollow, h.ordered.parent?_zero⟩

end Walk

/-- A document in which the second node names itself as its parent, the fourth one names the fifth,
which is added later, and the sixth one hangs from the second. -/
def tangledDocument : Document :=
  ofClass "Main"
    |>.add 0 (.instance none "Box") .unknown
    |>.add 2 (.property "text") .unknown
    |>.add 1 (.property "label") .unknown
    |>.add 5 (.property "text") .unknown
    |>.add 0 (.instance none "Label") .unknown
    |>.add 2 (.data (.identifier "title" .unknown) false) .unknown

/-- The walk reaches the two instances, and the label behind the first of them. -/
theorem walksInPreorder_tangled :
    tangledDocument.Built "Main" ∧ tangledDocument.WalksInPreorder ∧
      tangledDocument.walk = [0, 1, 3, 5] := by
  have hbuilt : tangledDocument.Built "Main" :=
    .add _ _ _ (.add _ _ _ (.add _ _ _ (.add _ _ _ (.add _ _ _ (.add _ _ _ .start)))))
  exact ⟨hbuilt, walksInPreorder hbuilt, by decide⟩

end Document

end Bindery
