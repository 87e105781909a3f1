import Bindery.Document.Walk
import Mathlib.Data.List.Basic

/-!
# Growing documents

Documents grow node by node, and a node may name any number as its parent. It becomes a child only
if the parent is there, so children come behind their parents, except for nodes that name
themselves. No such node, and nothing below it, hangs from the document: the nodes that a walk
reaches lead back up to the document, each of them to a smaller number.
-/

namespace Bindery

namespace Document

/-- The documents of a class that come about by adding nodes one after the other, whatever numbers
they name as their parents. -/
inductive Built (className : String) : Document → Prop
  | start : Built className (ofClass className)
  | add {doc : Document} (parent : Nat) (kind : NodeKind) (span : Span) :
    Built className doc → Built className (doc.add parent kind span)

/-! ## Adding a node -/

/-- What becomes of the node of a number when a child is added under a parent. -/
def adopt (parent child id : Nat) (node : Node) : Node :=
  if parent = id then { node with children := node.children ++ [child] } else node

section Adopt

variable (parent child id : Nat) (node : Node)

@[simp] theorem kind_adopt : (adopt parent child id node).kind = node.kind := by
  unfold adopt
  split <;> rfl

@[simp] theorem parent_adopt : (adopt parent child id node).parent = node.parent := by
  unfold adopt
  split <;> rfl

@[simp] theorem generatedId_adopt :
    (adopt parent child id node).generatedId = node.generatedId := by
  unfold adopt
  split <;> rfl

@[simp] theorem children_adopt : (adopt parent child id node).children =
    node.children ++ if parent = id then [child] else [] := by
  unfold adopt
  split <;> simp

end Adopt

section Add

variable (doc : Document) (parent : Nat) (kind : NodeKind) (span : Span)

/-- The node of a number stays the same but for its children, and the new one comes behind. -/
theorem node?_add (id : Nat) :
    (doc.add parent kind span).node? id = (if id = doc.size then
      some ⟨kind, some parent, [], span, (NodeKind.unnamedClass? kind).map
        (generatedId doc.className · (doc.generated + 1))⟩
      else doc.node? id).map (adopt parent doc.size id) := by
  by_cases hid : id = doc.size
  · have hsize : id = doc.nodes.size := hid
    rw [if_pos hid]
    simp only [add, node?, Array.getElem?_modify, Array.getElem?_push, if_pos hsize]
    cases NodeKind.unnamedClass? kind <;> unfold adopt <;> split <;> rfl
  · have hsize : id ≠ doc.nodes.size := hid
    rw [if_neg hid]
    simp only [add, node?, Array.getElem?_modify, Array.getElem?_push, if_neg hsize]
    unfold adopt
    split <;> simp

theorem kind?_add (id : Nat) :
    (doc.add parent kind span).kind? id = if id = doc.size then some kind else doc.kind? id := by
  rw [kind?, node?_add, kind?]
  split <;> simp [Option.map_map, Function.comp_def]

theorem parent?_add (id : Nat) : (doc.add parent kind span).parent? id =
    if id = doc.size then some parent else doc.parent? id := by
  rw [parent?, node?_add, parent?]
  split
  · simp
  · cases doc.node? id <;> simp

/-- Behind the last node there is none. -/
theorem node?_size : doc.node? doc.size = none := by
  simp [node?, size]

/-- The new node is the last child of its parent, if that is there. -/
theorem children_add (id : Nat) : (doc.add parent kind span).children id =
    doc.children id ++ if parent = id ∧ id ≤ doc.size then [doc.size] else [] := by
  rw [children, node?_add, children]
  by_cases hid : id = doc.size
  · subst hid
    simp [node?_size]
  · rw [if_neg hid]
    cases hnode : doc.node? id with
    | none =>
      have hsize : doc.size ≤ id := Array.getElem?_eq_none_iff.mp hnode
      simp [show ¬id ≤ doc.size by omega]
    | some node =>
      have hsize : id < doc.size := (Array.getElem?_eq_some_iff.mp hnode).1
      simp [Nat.le_of_lt hsize]

theorem generated_add :
    (doc.add parent kind span).generated =
      doc.generated + if (NodeKind.unnamedClass? kind).isSome then 1 else 0 := by
  unfold add
  cases NodeKind.unnamedClass? kind <;> simp

theorem className_add (hpos : 0 < doc.size) :
    (doc.add parent kind span).className = doc.className := by
  unfold className
  rw [kind?_add, if_neg (by omega)]

end Add

/-- What has a kind is a node of the document. -/
theorem lt_size_of_kind? {doc : Document} {id : Nat} {kind : NodeKind}
    (h : doc.kind? id = some kind) : id < doc.size := by
  obtain ⟨node, hnode, -⟩ := Option.map_eq_some_iff.mp h
  exact (Array.getElem?_eq_some_iff.mp hnode).1

/-- What names a parent is a node of the document. -/
theorem lt_size_of_parent? {doc : Document} {id : Nat} (h : (doc.parent? id).isSome) :
    id < doc.size := by
  by_contra hle
  have hnone : doc.node? id = none := Array.getElem?_eq_none_iff.mpr (Nat.le_of_not_lt hle)
  simp [parent?, hnone] at h

/-! ## Parents and children -/

/-- What growing keeps of the tree: it starts at the document, and a child comes behind the node
that it names as its parent, or is that node. -/
structure Ordered (doc : Document) (className : String) : Prop where
  size_pos : 0 < doc.size
  kind?_zero : doc.kind? 0 = some (.document className)
  parent?_zero : doc.parent? 0 = none
  parent?_of_mem : ∀ parent, ∀ child ∈ doc.children parent,
    doc.parent? child = some parent ∧ parent ≤ child ∧ child < doc.size

theorem ordered_ofClass (className : String) : (ofClass className).Ordered className where
  size_pos := by simp [ofClass, size]
  kind?_zero := rfl
  parent?_zero := rfl
  parent?_of_mem parent child hchild := by
    have hnone : (ofClass className).children parent = [] := by
      cases parent <;> rfl
    simp [hnone] at hchild

theorem Ordered.add {doc : Document} {className : String} (h : doc.Ordered className)
    (parent : Nat) (kind : NodeKind) (span : Span) :
    (doc.add parent kind span).Ordered className where
  size_pos := by simp
  kind?_zero := by rw [kind?_add, if_neg (by have := h.size_pos; omega), h.kind?_zero]
  parent?_zero := by rw [parent?_add, if_neg (by have := h.size_pos; omega), h.parent?_zero]
  parent?_of_mem owner child hchild := by
    rw [children_add] at hchild
    rw [parent?_add, size_add]
    rcases List.mem_append.mp hchild with hold | hnew
    · obtain ⟨hparent, hle, hlt⟩ := h.parent?_of_mem owner child hold
      exact ⟨by rw [if_neg (by omega), hparent], hle, by omega⟩
    · split at hnew
      · next howner =>
        obtain rfl := List.mem_singleton.mp hnew
        exact ⟨by rw [if_pos rfl, howner.1], howner.2, by omega⟩
      · simp at hnew

theorem Built.ordered {className : String} {doc : Document} (h : doc.Built className) :
    doc.Ordered className := by
  induction h with
  | start => exact ordered_ofClass className
  | add parent kind span _ ih => exact ih.add parent kind span

/-! ## Walking -/

/-- A node hangs from the document: from parent to parent the numbers get smaller, down to that of
the document. -/
inductive Rooted (doc : Document) : Nat → Prop
  | root : Rooted doc 0
  | child {parent id : Nat} : Rooted doc parent → doc.parent? id = some parent → parent < id →
    Rooted doc id

/-- The parent of a node that hangs from the document hangs from it, too. -/
theorem Rooted.parent {doc : Document} {className : String} (hordered : doc.Ordered className)
    {id parent : Nat} (h : doc.Rooted id) (hparent : doc.parent? id = some parent) :
    doc.Rooted parent ∧ parent < id := by
  cases h with
  | root => simp [hordered.parent?_zero] at hparent
  | child hrooted hfound hlt =>
    obtain rfl := Option.some.inj (hfound.symm.trans hparent)
    exact ⟨hrooted, hlt⟩

/-- The children of a node that hangs from the document hang from it, too. -/
theorem Rooted.of_mem_children {doc : Document} {className : String}
    (hordered : doc.Ordered className) {id child : Nat} (h : doc.Rooted id)
    (hchild : child ∈ doc.children id) : doc.Rooted child := by
  obtain ⟨hparent, hle, -⟩ := hordered.parent?_of_mem id child hchild
  rcases Nat.lt_or_eq_of_le hle with hlt | rfl
  · exact .child h hparent hlt
  · exact h

/-- All nodes that a walk visits hang from the document. -/
theorem Ordered.rooted_of_mem_walk {doc : Document} {className : String}
    (h : doc.Ordered className) {id : Nat} (hmem : id ∈ doc.walk) : doc.Rooted id := by
  have hvisit (fuel : Nat) (stack : List Nat) (hstack : ∀ node ∈ stack, doc.Rooted node) :
      ∀ node ∈ doc.visit fuel stack, doc.Rooted node := by
    fun_induction visit doc fuel stack with
    | case1 | case2 => simp
    | case3 fuel id stack ih =>
      obtain ⟨hid, hrest⟩ := List.forall_mem_cons.mp hstack
      refine List.forall_mem_cons.mpr ⟨hid, ih (List.forall_mem_append.mpr ⟨?_, hrest⟩)⟩
      exact fun child hchild => hid.of_mem_children h hchild
  exact hvisit doc.size [0] (by simpa using Rooted.root) id hmem

end Document

end Bindery
