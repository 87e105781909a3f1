import Bindery.Binding.Basic
import Bindery.Text.Visible
import Bindery.Watch.Analysis

/-!
# Binding databases

All that is known of the bindings of a document once their sources have been analysed: the
bindings, the chains of watchers, and which bindings are two halves of one.
-/

namespace Bindery

/-- What the constructor code of a document is generated from. -/
structure Database where
  /-- The bindings, in the order of their slots. -/
  bindings : List Binding
  /-- The watchers, numbered in preorder. -/
  chains : List WatchChain
  /-- The slots of the bindings that are the reverse of each other, the lower one first. -/
  pairs : List (Nat × Nat)

/-- The two texts of a binding that has both, and its slot. -/
structure PairCandidate where
  slot : Nat
  source : String
  destination : String
deriving Repr, DecidableEq

namespace PairCandidate

/-- A binding that lacks one of its texts has no counterpart. -/
def ofBinding? (binding : Binding) : Option PairCandidate := do
  return ⟨binding.slot, ← binding.sourceText, ← binding.destinationText⟩

/-- Whether each of two bindings starts where the other one ends. -/
def isReverse (a b : PairCandidate) : Bool :=
  b.source = a.destination && b.destination = a.source

/-- Pairs every candidate with the first later one that is its reverse and not yet taken. -/
def pair : List PairCandidate → List (Nat × Nat)
  | [] => []
  | a :: rest =>
    match rest.find? a.isReverse with
    | some b => (a.slot, b.slot) :: pair (rest.eraseP a.isReverse)
    | none => pair rest
termination_by candidates => candidates.length
decreasing_by
  · have := List.length_eraseP_le (p := a.isReverse) (l := rest)
    simp only [List.length_cons]
    omega
  · simp

end PairCandidate

namespace Database

/-- Analyses the sources of all bindings, in the order of their slots. -/
def analyzeSources (resolver : Resolver) (bindings : List Binding) : WatchAnalysis :=
  bindings.foldl
    (fun state binding =>
      match binding.source with
      | some source => (WatchContext.analyze ⟨resolver, binding.slot⟩ source state).2
      | none => state)
    {}

/-- The database of some bindings, and what there is to report about their sources. -/
def ofBindings (resolver : Resolver) (bindings : List Binding) : Database × List Problem :=
  let analysis := analyzeSources resolver bindings
  ({ bindings
     chains := WatchTree.numberAll 0 analysis.forest
     pairs := PairCandidate.pair (bindings.filterMap PairCandidate.ofBinding?) },
    analysis.problems)

/-- The watchers, in the order of their slots. -/
def watchers (db : Database) : List Watcher := WatchChain.watchersAll none 0 db.chains

/-- The chains that are constructed: those that something can make fire. -/
def constructed (db : Database) : List WatchChain := db.chains.filter (!·.isUnobservable)

/-- Whether a constructed chain starts at a property of the document, for which the constructed
code needs the closure that reads any property of it. -/
def needsPropertyGetter (db : Database) : Bool :=
  db.constructed.any (·.watched.kind.form = .property)

end Database

/-! ## Summary -/

namespace Database

/-- The word for a form of watchers. -/
def formText : WatchForm → String
  | .property => "PROPERTY"
  | .staticProperty => "STATIC_PROPERTY"
  | .function => "FUNCTION"
  | .xml => "XML"

/-- Texts between brackets. -/
def bracketed (items : List String) : String := "[" ++ String.intercalate ", " items ++ "]"

/-- The line of a binding: its slot, its texts and whether its source is simple. -/
def bindingLine (binding : Binding) : String :=
  "    [" ++ toString binding.slot ++ "] " ++ binding.sourceText.getD "<none>" ++ " -> " ++
    binding.destinationText.getD "<none>" ++ (if binding.isSimple then " (simple)" else "")

/-- The line of a watcher, indented by its depth. -/
def watcherLine (watcher : Watcher) : String :=
  "    " ++ String.join (List.replicate watcher.depth "  ") ++
    "[" ++ toString watcher.slot ++ "] " ++ formText watcher.watched.kind.form ++ " " ++
    watcher.watched.name ++ " events=" ++ bracketed (watcher.watched.events.map Text.shown) ++
    " bindings=" ++ bracketed (watcher.bindings.map toString) ++
    " children=" ++ bracketed (watcher.children.map toString)

/-- The line of two bindings that are the reverse of each other. -/
def pairLine (pair : Nat × Nat) : String :=
  "    " ++ toString pair.1 ++ " <-> " ++ toString pair.2

/-- A readable summary of a database. -/
def summary (db : Database) : String :=
  let watchers := db.watchers
  let lines :=
    ["db:", "  bindings (" ++ toString db.bindings.length ++ "):"] ++
    db.bindings.map bindingLine ++
    ["  watchers (" ++ toString watchers.length ++ "):"] ++
    watchers.map watcherLine ++
    ["  two-way pairs (" ++ toString db.pairs.length ++ "):"] ++
    db.pairs.map pairLine
  String.join (lines.map (· ++ "\n"))

end Database

end Bindery
