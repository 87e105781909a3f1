import Bindery.Destination.Position
import Bindery.Document.Walk
import Bindery.Proofs.Expr.Implicit
import Mathlib.Data.List.Forall2

/-!
# Documents without an explicit document

Two documents differ in explicit names only if they have the same nodes, but for `this.` in front of
some names of document members in their expressions. Such documents have the same normal form. The
tree, and the destinations that follow from it, are those of the normal form.
-/

namespace Bindery

variable (resolver : Resolver)

/-! ## Explicit names -/

/-- What a node stands for, with some names of document members prefixed with `this.`. -/
inductive NodeKind.Prefixed : NodeKind → NodeKind → Prop
  | refl (kind : NodeKind) : Prefixed kind kind
  | data {expr expr' : Expr} (twoWay : Bool) : expr.Prefixed resolver expr' →
    Prefixed (.data expr twoWay) (.data expr' twoWay)
  | binding {source source' destination destination' : Option Expr} (twoWay : Bool) :
    Option.Rel (Expr.Prefixed resolver) source source' →
      Option.Rel (Expr.Prefixed resolver) destination destination' →
      Prefixed (.binding source destination twoWay) (.binding source' destination' twoWay)

/-- A node with some names of document members prefixed with `this.`. -/
structure Node.Prefixed (node node' : Node) : Prop where
  kind : node.kind.Prefixed resolver node'.kind
  parent : node.parent = node'.parent
  children : node.children = node'.children
  span : node.span = node'.span
  generatedId : node.generatedId = node'.generatedId

/-- A document with some names of its members prefixed with `this.`. -/
structure Document.Prefixed (doc doc' : Document) : Prop where
  nodes : List.Forall₂ (Node.Prefixed resolver) doc.nodes.toList doc'.nodes.toList
  generated : doc.generated = doc'.generated

/-! ## The normal form -/

/-- What a node stands for, with expressions in normal form. -/
def NodeKind.implicit : NodeKind → NodeKind
  | data expr twoWay => data (expr.implicit resolver) twoWay
  | binding source destination twoWay =>
    binding (source.map (Expr.implicit resolver)) (destination.map (Expr.implicit resolver)) twoWay
  | kind => kind

/-- A node with expressions in normal form. -/
def Node.implicit (node : Node) : Node := { node with kind := node.kind.implicit resolver }

/-- A document with expressions in normal form. -/
def Document.implicit (doc : Document) : Document :=
  { doc with nodes := doc.nodes.map (Node.implicit resolver) }

section Prefixed

variable {resolver}

theorem map_implicit_eq_of_prefixed {e e' : Option Expr}
    (h : Option.Rel (Expr.Prefixed resolver) e e') :
    e.map (Expr.implicit resolver) = e'.map (Expr.implicit resolver) := by
  cases h with
  | none => rfl
  | some h => exact congrArg some (Expr.implicit_eq_of_prefixed _ h)

theorem NodeKind.Prefixed.implicit_eq {kind kind' : NodeKind} (h : kind.Prefixed resolver kind') :
    kind.implicit resolver = kind'.implicit resolver := by
  cases h with
  | refl => rfl
  | data twoWay h => rw [implicit, implicit, Expr.implicit_eq_of_prefixed _ h]
  | binding twoWay hsource hdestination =>
    rw [implicit, implicit, map_implicit_eq_of_prefixed hsource,
      map_implicit_eq_of_prefixed hdestination]

theorem Node.Prefixed.implicit_eq {node node' : Node} (h : node.Prefixed resolver node') :
    node.implicit resolver = node'.implicit resolver := by
  simp only [implicit, Node.mk.injEq]
  exact ⟨h.kind.implicit_eq, h.parent, h.children, h.span, h.generatedId⟩

/-- Documents that differ in explicit names only have the same normal form. -/
theorem Document.Prefixed.implicit_eq {doc doc' : Document} (h : doc.Prefixed resolver doc') :
    doc.implicit resolver = doc'.implicit resolver := by
  have hnodes {nodes nodes' : List Node} (h : List.Forall₂ (Node.Prefixed resolver) nodes nodes') :
      nodes.map (Node.implicit resolver) = nodes'.map (Node.implicit resolver) := by
    induction h with
    | nil => rfl
    | cons hnode _ ih => rw [List.map_cons, List.map_cons, hnode.implicit_eq, ih]
  simp only [implicit, Document.mk.injEq]
  refine ⟨Array.toList_inj.mp ?_, h.generated⟩
  rw [Array.toList_map, Array.toList_map, hnodes h.nodes]

end Prefixed

namespace Document

variable (doc : Document)

/-! ## The tree -/

theorem node?_implicit (id : Nat) :
    (doc.implicit resolver).node? id = (doc.node? id).map (Node.implicit resolver) := by
  simp [node?, implicit]

theorem kind?_implicit (id : Nat) :
    (doc.implicit resolver).kind? id = (doc.kind? id).map (NodeKind.implicit resolver) := by
  rw [kind?, node?_implicit, kind?, Option.map_map, Option.map_map]
  rfl

@[simp] theorem parent?_implicit (id : Nat) :
    (doc.implicit resolver).parent? id = doc.parent? id := by
  rw [parent?, node?_implicit, parent?, Option.bind_map]
  rfl

@[simp] theorem children_implicit (id : Nat) :
    (doc.implicit resolver).children id = doc.children id := by
  rw [children, node?_implicit, children, Option.map_map]
  rfl

@[simp] theorem span_implicit (id : Nat) : (doc.implicit resolver).span id = doc.span id := by
  rw [span, node?_implicit, span, Option.map_map]
  rfl

@[simp] theorem id?_implicit (id : Nat) : (doc.implicit resolver).id? id = doc.id? id := by
  rw [id?, node?_implicit, id?]
  cases doc.node? id with
  | none => rfl
  | some node =>
    obtain ⟨kind, parent, children, span, generatedId⟩ := node
    cases kind <;> rfl

@[simp] theorem size_implicit : (doc.implicit resolver).size = doc.size := by
  simp [size, implicit]

/-- The nodes of the normal form are visited in the same order. -/
theorem walk_implicit : (doc.implicit resolver).walk = doc.walk := by
  have hvisit (fuel : Nat) (stack : List Nat) :
      (doc.implicit resolver).visit fuel stack = doc.visit fuel stack := by
    induction fuel generalizing stack with
    | zero => rfl
    | succ fuel ih =>
      cases stack with
      | nil => rfl
      | cons id stack => rw [visit, visit, ih, children_implicit]
  rw [walk, walk, size_implicit, hvisit]

/-! ## Destinations -/

theorem modelPath_implicit (fuel : Nat) (node : Option Nat) (segments : List Segment) :
    (doc.implicit resolver).modelPath fuel node segments = doc.modelPath fuel node segments := by
  induction fuel generalizing node segments with
  | zero => rfl
  | succ fuel ih =>
    cases node with
    | none => rfl
    | some id =>
      rw [modelPath, modelPath, kind?_implicit]
      cases doc.kind? id with
      | none => rfl
      | some kind => cases kind <;> simp only [Option.map_some, NodeKind.implicit, parent?_implicit,
          id?_implicit, ih]

theorem propertySegments?_implicit (property : Nat) (name : String) :
    (doc.implicit resolver).propertySegments? property name =
      doc.propertySegments? property name := by
  rw [propertySegments?, propertySegments?, parent?_implicit]
  congr 1
  funext owner
  rw [kind?_implicit]
  cases doc.kind? owner with
  | none => rfl
  | some kind => cases kind <;> simp only [Option.map_some, NodeKind.implicit, id?_implicit]

/-- The destination of an embedded expression follows from the tree alone. -/
theorem placement_implicit (node : Nat) :
    (doc.implicit resolver).placement node = doc.placement node := by
  rw [placement, placement, kind?_implicit, span_implicit]
  cases doc.kind? node with
  | none => rfl
  | some kind =>
    cases kind with
    | data expr twoWay =>
      simp only [Option.map_some, NodeKind.implicit, parent?_implicit, Expr.isConcat_implicit,
        size_implicit, modelPath_implicit, propertySegments?_implicit, kind?_implicit]
      cases doc.parent? node with
      | none => rfl
      | some parent =>
        dsimp only
        cases doc.kind? parent with
        | none => rfl
        | some kind => cases kind <;> rfl
    | _ => rfl

end Document

end Bindery
