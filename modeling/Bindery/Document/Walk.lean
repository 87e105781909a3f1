import Bindery.Document.Basic

/-!
# Walking documents

Down the tree, every node is visited before its children and these in their order. Up the tree,
the walk follows the numbers that nodes name as their parents. A node may be its own parent, and
nodes may name each other, so the upward walk is cut off at a given length.
-/

namespace Bindery.Document

/-- Visits the nodes on a stack, each followed by its children, for at most `fuel` visits. -/
def visit (doc : Document) : (fuel : Nat) → (stack : List Nat) → List Nat
  | 0, _ => []
  | _, [] => []
  | fuel + 1, id :: stack => id :: visit doc fuel (doc.children id ++ stack)

/-- All nodes that hang from the document node. None of them is reached twice, so there are at
most as many visits as nodes. -/
def walk (doc : Document) : List Nat := doc.visit doc.size [0]

/-- At most `limit` numbers up from a node: its parent, the parent of that, and so on. -/
def ancestors (doc : Document) : (limit : Nat) → (id : Nat) → List Nat
  | 0, _ => []
  | limit + 1, id =>
    match doc.parent? id with
    | some parent => parent :: ancestors doc limit parent
    | none => []

end Bindery.Document
