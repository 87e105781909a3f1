import Bindery.Expr.Text

/-!
# What a watcher watches

A watcher observes one step of a property-access chain: a property of an instance, a static
property, the result of a function or a part of an XML value. Two steps at the same place of two
chains are the same step when their keys agree.
-/

namespace Bindery

/-- The forms of watchers, with what only some of them need. -/
inductive WatchedKind where
  | property
  /-- A static property of the class of this qualified name. -/
  | staticProperty (owner : String)
  | function (args : List Expr)
  | xml
deriving Inhabited

/-- What one watcher observes. -/
structure Watched where
  kind : WatchedKind
  name : String
  /-- The events that announce a change, sorted and without repetition. -/
  events : List String
deriving Inhabited

/-- The forms of watchers by themselves. -/
inductive WatchForm where
  | property
  | staticProperty
  | function
  | xml
deriving Repr, DecidableEq, Inhabited

/-- The identity of a watcher among its siblings. -/
structure WatchKey where
  form : WatchForm
  name : String
  /-- The class of a static property, the arguments of a function, and otherwise nothing. -/
  qualifier : String
  events : List String
deriving Repr, DecidableEq, Inhabited

/-- The place of a watcher: its key, preceded by the keys of the watchers above it. -/
abbrev WatchPath := List WatchKey

namespace WatchedKind

/-- The form of a watcher without what only this form needs. -/
def form : WatchedKind → WatchForm
  | property => .property
  | staticProperty _ => .staticProperty
  | function _ => .function
  | xml => .xml

/-- What distinguishes watchers of one form and name: calls differ when their arguments differ in
their canonical text. -/
def qualifier : WatchedKind → String
  | staticProperty owner => owner
  | function args => "(" ++ String.intercalate ", " (Expr.argTexts args) ++ ")"
  | property | xml => ""

end WatchedKind

namespace Watched

/-- The identity of a watcher among its siblings. -/
def key (watched : Watched) : WatchKey :=
  { form := watched.kind.form
    name := watched.name
    qualifier := watched.kind.qualifier
    events := watched.events }

/-- Whether nothing can make a watcher fire: it has no events and nothing hangs from it. The result
of a function can always change with its arguments. -/
def isUnobservable (watched : Watched) (isLeaf : Bool) : Bool :=
  isLeaf && watched.events.isEmpty && watched.kind.form != .function

end Watched

/-- Puts a text into a sorted list that has every text at most once. -/
def insertText (text : String) : List String → List String
  | [] => [text]
  | first :: rest =>
    if text = first then first :: rest
    else if text < first then text :: first :: rest
    else first :: insertText text rest

/-- The events of a definition as a set: sorted by code points, without repetition. -/
def eventSet (events : List String) : List String := events.foldr insertText []

/-- A set has the members of the list it was made from. -/
theorem mem_eventSet {event : String} {events : List String} :
    event ∈ eventSet events ↔ event ∈ events := by
  have insert_iff (text : String) (set : List String) :
      event ∈ insertText text set ↔ event = text ∨ event ∈ set := by
    induction set with
    | nil => simp [insertText]
    | cons first rest ih =>
      simp only [insertText]
      split
      · next h => subst h; simp
      · split
        · simp
        · simp only [List.mem_cons, ih]
          exact or_left_comm
  induction events with
  | nil => simp [eventSet]
  | cons first rest ih =>
    rw [eventSet, List.foldr_cons, insert_iff, List.mem_cons]
    exact or_congr_right ih

end Bindery
