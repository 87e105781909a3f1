import Bindery.Watch.Key

/-!
# Trees of watchers

The property-access chains of all bindings form a forest: chains share their watchers as far as
their keys agree, and fork where they differ. While chains are being added, a watcher is addressed
by its path. Once all are there, the watchers are numbered in preorder, and the numbers become
slots of the array that holds them when the program runs.
-/

namespace Bindery

/-- A watcher with the bindings that depend on it and what hangs from it, in order of arrival. -/
inductive WatchTree where
  | node (watched : Watched) (bindings : List Nat) (children : List WatchTree)
deriving Inhabited

namespace WatchTree

/-- What the root watches. -/
def watched : WatchTree → Watched
  | node watched _ _ => watched

/-- The bindings that depend on the root. -/
def bindings : WatchTree → List Nat
  | node _ bindings _ => bindings

/-- The trees that hang from the root. -/
def children : WatchTree → List WatchTree
  | node _ _ children => children

/-- The key of the root. -/
def key (tree : WatchTree) : WatchKey := tree.watched.key

/-- Notes that a binding depends on the watcher at the root. -/
def addBinding (binding : Nat) : WatchTree → WatchTree
  | node watched bindings children =>
    node watched (if binding ∈ bindings then bindings else bindings ++ [binding]) children

/-- Changes what hangs from the root. -/
def mapChildren (f : List WatchTree → List WatchTree) : WatchTree → WatchTree
  | node watched bindings children => node watched bindings (f children)

mutual

/-- The number of watchers in a tree. -/
def size : WatchTree → Nat
  | node _ _ children => sizeAll children + 1

/-- The number of watchers in several trees. -/
def sizeAll : List WatchTree → Nat
  | [] => 0
  | tree :: trees => size tree + sizeAll trees

end

end WatchTree

/-- The trees of all chains, in the order in which their roots arrived. -/
abbrev WatchForest := List WatchTree

namespace WatchForest

/-- Finds or adds the tree of a watcher among others, and notes that a binding depends on it. -/
def insertHere (watched : Watched) (binding : Nat) : WatchForest → WatchForest
  | [] => [.node watched [binding] []]
  | tree :: trees =>
    if tree.key = watched.key then tree.addBinding binding :: trees
    else tree :: insertHere watched binding trees

/-- Finds or adds a watcher below a path, and notes that a binding depends on it. -/
def insert (watched : Watched) (binding : Nat) : WatchPath → WatchForest → WatchForest
  | [], forest => insertHere watched binding forest
  | key :: path, forest =>
    forest.map fun tree =>
      if tree.key = key then tree.mapChildren (insert watched binding path) else tree

end WatchForest

/-- A numbered watcher with what hangs from it. -/
inductive WatchChain where
  | link (slot : Nat) (watched : Watched) (bindings : List Nat) (children : List WatchChain)
deriving Inhabited

namespace WatchChain

/-- The number of the first watcher. -/
def slot : WatchChain → Nat
  | link slot .. => slot

/-- What the first watcher observes. -/
def watched : WatchChain → Watched
  | link _ watched .. => watched

/-- The bindings that depend on the first watcher. -/
def bindings : WatchChain → List Nat
  | link _ _ bindings _ => bindings

/-- The chains that hang from the first watcher. -/
def children : WatchChain → List WatchChain
  | link _ _ _ children => children

/-- Whether nothing can make any watcher of the chain fire. -/
def isUnobservable (chain : WatchChain) : Bool :=
  chain.watched.isUnobservable chain.children.isEmpty

end WatchChain

mutual

/-- Numbers the watchers of a tree in preorder, from `first` on. -/
def WatchTree.number (first : Nat) : WatchTree → WatchChain
  | .node watched bindings children =>
    .link first watched bindings (WatchTree.numberAll (first + 1) children)

/-- Numbers the watchers of several trees one after the other. -/
def WatchTree.numberAll (first : Nat) : List WatchTree → List WatchChain
  | [] => []
  | tree :: trees =>
    WatchTree.number first tree :: WatchTree.numberAll (first + tree.size) trees

end

/-- A numbered watcher by itself, with the slots of its neighbours. -/
structure Watcher where
  slot : Nat
  watched : Watched
  /-- The slots of the bindings that run again when the watcher fires. -/
  bindings : List Nat
  parent : Option Nat
  children : List Nat
  /-- How many watchers are above this one. -/
  depth : Nat
deriving Inhabited

namespace Watcher

/-- Whether the watcher starts a chain. -/
def isRoot (watcher : Watcher) : Bool := watcher.parent.isNone

/-- Whether nothing can make the watcher fire. -/
def isUnobservable (watcher : Watcher) : Bool :=
  watcher.watched.isUnobservable watcher.children.isEmpty

end Watcher

mutual

/-- The watchers of a chain in preorder, which is the order of their slots. -/
def WatchChain.watchers (parent : Option Nat) (depth : Nat) : WatchChain → List Watcher
  | .link slot watched bindings children =>
    { slot, watched, bindings, parent, depth, children := children.map WatchChain.slot } ::
      WatchChain.watchersAll (some slot) (depth + 1) children

/-- The watchers of several chains in preorder. -/
def WatchChain.watchersAll (parent : Option Nat) (depth : Nat) : List WatchChain → List Watcher
  | [] => []
  | chain :: chains =>
    WatchChain.watchers parent depth chain ++ WatchChain.watchersAll parent depth chains

end

end Bindery
