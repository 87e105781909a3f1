import Bindery.Expr.Basic

/-!
# Documents

The tree of a markup document, as far as data binding sees it. Nodes are numbered in the order in
which they are added, the document itself being node 0. A node may name any number as its parent:
it becomes a child only if a node of that number exists once it has been added, which includes
the node itself.
-/

namespace Bindery

/-- What a node stands for. -/
inductive NodeKind where
  /-- The document itself, which becomes a class. -/
  | document (className : String)
  /-- A tag that creates an object. -/
  | instance (id : Option String) (className : String)
  /-- A property that is set on the parent, as an attribute or a child tag. -/
  | property (name : String)
  /-- A data model. -/
  | model (id : Option String)
  /-- The one tag directly inside a data model. -/
  | modelRoot
  /-- A property inside a data model; repeated tags are numbered as elements of an array. -/
  | modelProperty (name : String) (index : Option Nat)
  /-- An embedded expression, whose destination follows from its place. -/
  | data (expr : Expr) (twoWay : Bool)
  /-- A tag that names the source and the destination of a binding. -/
  | binding (source : Option Expr) (destination : Option Expr) (twoWay : Bool)
deriving Inhabited

/-- A node with its neighbours in the tree. -/
structure Node where
  kind : NodeKind
  parent : Option Nat
  children : List Nat
  span : Span
  /-- The id of an instance or a model to which the author gave none. -/
  generatedId : Option String
deriving Inhabited

/-- A document under construction; the place of a node in the array is its number. -/
structure Document where
  nodes : Array Node
  /-- How many ids have been generated. -/
  generated : Nat

namespace Document

/-- The document that consists of its class alone. -/
def ofClass (className : String) : Document where
  nodes := #[⟨.document className, none, [], .unknown, none⟩]
  generated := 0

/-- The number of nodes. -/
def size (doc : Document) : Nat := doc.nodes.size

/-- The node of a number. -/
def node? (doc : Document) (id : Nat) : Option Node := doc.nodes[id]?

/-- What the node of a number stands for. -/
def kind? (doc : Document) (id : Nat) : Option NodeKind := (doc.node? id).map (·.kind)

/-- The number that a node names as its parent, whether or not there is such a node. -/
def parent? (doc : Document) (id : Nat) : Option Nat := (doc.node? id).bind (·.parent)

/-- The numbers of the children of a node, in the order in which they were added. -/
def children (doc : Document) (id : Nat) : List Nat := ((doc.node? id).map (·.children)).getD []

/-- Where a node stands in the markup. -/
def span (doc : Document) (id : Nat) : Span := ((doc.node? id).map (·.span)).getD .unknown

/-- The qualified name of the class that the document becomes. -/
def className (doc : Document) : String :=
  match doc.kind? 0 with
  | some (.document className) => className
  | _ => ""

/-- The class name under which an id is generated, for the nodes that need one. -/
def NodeKind.unnamedClass? : NodeKind → Option String
  | .instance none className => some className
  | .model none => some "Model"
  | _ => none

/-- A generated id consists of the names of the document's class and of the node's class, and a
number that all generated ids of the document share. -/
def generatedId (documentClass className : String) (number : Nat) : String :=
  "_" ++ Text.localName documentClass ++ "_" ++ Text.localName className ++ toString number

/-- Adds a node under a parent. Its number is the size of the document before. -/
def add (doc : Document) (parent : Nat) (kind : NodeKind) (span : Span) : Document :=
  let (id, generated) :=
    match NodeKind.unnamedClass? kind with
    | some className =>
      (some (generatedId doc.className className (doc.generated + 1)), doc.generated + 1)
    | none => (none, doc.generated)
  let nodes := doc.nodes.push ⟨kind, some parent, [], span, id⟩
  { nodes := nodes.modify parent fun node => { node with children := node.children ++ [doc.size] }
    generated }

/-- The id of an instance or a model: the author's, or else the generated one. -/
def id? (doc : Document) (id : Nat) : Option String := do
  let node ← doc.node? id
  match node.kind with
  | .instance id _ | .model id => id <|> node.generatedId
  | _ => none

/-- Adding a node makes the document one node longer. -/
@[simp] theorem size_add (doc : Document) (parent : Nat) (kind : NodeKind) (span : Span) :
    (doc.add parent kind span).size = doc.size + 1 := by
  unfold add size
  cases NodeKind.unnamedClass? kind <;> simp

end Document

end Bindery
