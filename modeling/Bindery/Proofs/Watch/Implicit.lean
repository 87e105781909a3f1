import Bindery.Binding.Database
import Bindery.Proofs.Expr.Implicit
import Bindery.Proofs.Watch.Forest

/-!
# Watching expressions without an explicit document

The analysis of an expression and that of its normal form insert the same watchers, but for the form
of the arguments that watched calls remember. Nor does that form show when watchers are numbered.
-/

namespace Bindery

/-! ## Normal forms of watchers -/

section Implicit

variable (resolver : Resolver)

/-- A form of watchers with the arguments of a call in normal form. -/
def WatchedKind.implicit : WatchedKind → WatchedKind
  | function args => function (Expr.implicitAll resolver args)
  | kind => kind

/-- What a watcher observes, with arguments in normal form. -/
def Watched.implicit (watched : Watched) : Watched :=
  { watched with kind := watched.kind.implicit resolver }

@[simp] theorem WatchedKind.form_implicit (kind : WatchedKind) :
    (kind.implicit resolver).form = kind.form := by
  cases kind <;> rfl

@[simp] theorem Watched.key_implicit (watched : Watched) :
    (watched.implicit resolver).key = watched.key := by
  obtain ⟨kind, name, events⟩ := watched
  cases kind <;> simp [implicit, WatchedKind.implicit, key, WatchedKind.form, WatchedKind.qualifier]

@[simp] theorem Watched.isUnobservable_implicit (watched : Watched) (isLeaf : Bool) :
    (watched.implicit resolver).isUnobservable isLeaf = watched.isUnobservable isLeaf := by
  simp [isUnobservable, implicit]

namespace WatchTree

mutual

/-- A tree of watchers with all arguments in normal form. -/
def implicit : WatchTree → WatchTree
  | node watched bindings children =>
    node (watched.implicit resolver) bindings (implicitAll children)

/-- Several trees of watchers with all arguments in normal form. -/
def implicitAll : List WatchTree → List WatchTree
  | [] => []
  | tree :: trees => implicit tree :: implicitAll trees

end

theorem implicitAll_eq_map (trees : List WatchTree) :
    implicitAll resolver trees = trees.map (implicit resolver) := by
  induction trees with
  | nil => rfl
  | cons tree trees ih => rw [implicitAll, ih, List.map_cons]

@[simp] theorem key_implicit (tree : WatchTree) : (tree.implicit resolver).key = tree.key := by
  obtain ⟨watched, bindings, children⟩ := tree
  rw [implicit]
  exact watched.key_implicit resolver

mutual

@[simp] theorem size_implicit : (tree : WatchTree) → (tree.implicit resolver).size = tree.size
  | node _ _ children => by rw [implicit, size, size, sizeAll_implicitAll children]

theorem sizeAll_implicitAll :
    (trees : List WatchTree) → sizeAll (implicitAll resolver trees) = sizeAll trees
  | [] => rfl
  | tree :: trees => by
    rw [implicitAll, sizeAll, sizeAll, size_implicit tree, sizeAll_implicitAll trees]

end

end WatchTree

namespace WatchForest

open WatchTree (implicitAll implicitAll_eq_map)

theorem insertHere_implicitAll (watched : Watched) (binding : Nat) (forest : WatchForest) :
    insertHere (watched.implicit resolver) binding (implicitAll resolver forest) =
      implicitAll resolver (forest.insertHere watched binding) := by
  induction forest with
  | nil => rfl
  | cons tree trees ih =>
    rw [implicitAll, insertHere, insertHere, WatchTree.key_implicit, Watched.key_implicit]
    split
    · cases tree; rfl
    · rw [ih, implicitAll]

/-- Insertion does not look at the form of arguments. -/
theorem insert_implicitAll (watched : Watched) (binding : Nat) (above : WatchPath)
    (forest : WatchForest) :
    insert (watched.implicit resolver) binding above (implicitAll resolver forest) =
      implicitAll resolver (forest.insert watched binding above) := by
  induction above generalizing forest with
  | nil => exact insertHere_implicitAll resolver watched binding forest
  | cons key above ih =>
    rw [insert_cons, insert_cons, implicitAll_eq_map, implicitAll_eq_map, List.map_map,
      List.map_map]
    refine List.map_congr_left fun tree _ => ?_
    simp only [Function.comp, WatchTree.changeBelow, WatchTree.key_implicit]
    split
    · obtain ⟨watched, bindings, children⟩ := tree
      simp only [WatchTree.implicit, WatchTree.mapChildren, ih]
    · rfl

end WatchForest

/-- The state of an analysis with all arguments in normal form. -/
def WatchAnalysis.implicit (state : WatchAnalysis) : WatchAnalysis :=
  { state with forest := WatchTree.implicitAll resolver state.forest }

end Implicit

/-! ## Analysis -/

namespace WatchContext

variable (context : WatchContext)

/-- What a step of the analysis gives, with all arguments in normal form. -/
def implicitResult (result : Subject × WatchAnalysis) : Subject × WatchAnalysis :=
  (result.1, result.2.implicit context.resolver)

section Steps

variable (span : Span) (name : String) (args : List Expr) (state : WatchAnalysis)

theorem watch_implicit (above : WatchPath) (watched : Watched) (type : Option String) :
    context.watch above (watched.implicit context.resolver) type
        (state.implicit context.resolver) =
      context.implicitResult (context.watch above watched type state) := by
  simp only [watch, implicitResult, WatchAnalysis.implicit, Watched.key_implicit,
    WatchForest.insert_implicitAll]

theorem watchBelow_implicit (above : Option WatchPath) (watched : Watched)
    (type : Option String) :
    context.watchBelow above (watched.implicit context.resolver) type
        (state.implicit context.resolver) =
      context.implicitResult (context.watchBelow above watched type state) := by
  cases above with
  | none => rfl
  | some above => exact context.watch_implicit state above watched type

theorem watchStatic_implicit (owner : String) (definition : Definition) :
    context.watchStatic name owner definition (state.implicit context.resolver) =
      context.implicitResult (context.watchStatic name owner definition state) :=
  context.watch_implicit state [] { kind := .staticProperty _, .. } definition.type

theorem documentMember_implicit (definition : Definition) :
    context.documentMember definition (state.implicit context.resolver) =
      context.implicitResult (context.documentMember definition state) := by
  unfold documentMember
  split
  · exact context.watchStatic_implicit _ state _ definition
  · exact context.watch_implicit state [] { kind := .property, .. } definition.type

theorem documentCall_implicit (definition : Definition) :
    context.documentCall definition (Expr.implicitAll context.resolver args)
        (state.implicit context.resolver) =
      context.implicitResult (context.documentCall definition args state) := by
  unfold documentCall
  split
  · rfl
  · exact context.watch_implicit state [] { kind := .function args, .. } definition.type

theorem name_implicit : context.name span name (state.implicit context.resolver) =
    context.implicitResult (context.name span name state) := by
  unfold WatchContext.name
  split
  · exact context.documentMember_implicit state _
  · split
    · split
      · split <;> rfl
      · rfl
    · rfl

theorem member_implicit (receiver : Subject) :
    context.member span receiver name (state.implicit context.resolver) =
      context.implicitResult (context.member span receiver name state) := by
  cases receiver with
  | unresolved => rfl
  | document =>
    simp only [member]
    split
    · exact context.documentMember_implicit state _
    · rfl
  | classObject qualified =>
    simp only [member]
    split
    · exact context.watchStatic_implicit name state qualified _
    · rfl
  | value above type =>
    simp only [member]
    split
    · exact context.watchBelow_implicit state above { kind := .xml, .. } _
    · split
      · exact context.watchBelow_implicit state above { kind := .property, .. } _
      · split
        · split
          · exact context.watchStatic_implicit name state _ _
          · exact context.watchBelow_implicit state above { kind := .property, .. } _
        · rfl

theorem nameCall_implicit :
    context.nameCall name (Expr.implicitAll context.resolver args)
        (state.implicit context.resolver) =
      context.implicitResult (context.nameCall name args state) := by
  unfold nameCall
  split
  · exact context.documentCall_implicit args state _
  · split <;> rfl

theorem memberCall_implicit (receiver : Subject) :
    context.memberCall receiver name (Expr.implicitAll context.resolver args)
        (state.implicit context.resolver) =
      context.implicitResult (context.memberCall receiver name args state) := by
  cases receiver with
  | unresolved => rfl
  | document =>
    simp only [memberCall]
    split
    · exact context.documentCall_implicit args state _
    · rfl
  | classObject qualified =>
    simp only [memberCall]
    split <;> rfl
  | value above type =>
    simp only [memberCall]
    split
    · exact context.watchBelow_implicit state above { kind := .function args, .. } _
    · split
      · split
        · rfl
        · exact context.watchBelow_implicit state above { kind := .function args, .. } _
      · rfl

end Steps

/-! ### Members of the document -/

/-- A name of the document stands for the member of this name. -/
theorem name_eq_member_document {name : String}
    (h : (context.resolver.documentMember? name).isSome) (span : Span) (state : WatchAnalysis) :
    context.name span name state = context.member span .document name state := by
  obtain ⟨definition, hdefinition⟩ := Option.isSome_iff_exists.mp h
  simp only [WatchContext.name, member, hdefinition]

/-- A call of a name of the document calls the member of this name. -/
theorem nameCall_eq_memberCall_document {name : String}
    (h : (context.resolver.documentMember? name).isSome) (args : List Expr)
    (state : WatchAnalysis) :
    context.nameCall name args state = context.memberCall .document name args state := by
  obtain ⟨definition, hdefinition⟩ := Option.isSome_iff_exists.mp h
  simp only [nameCall, memberCall, hdefinition]

mutual

/-- The analysis of a normal form does the same, with arguments in normal form. -/
theorem analyze_implicit : (e : Expr) → (state : WatchAnalysis) →
    context.analyze (e.implicit context.resolver) (state.implicit context.resolver) =
      context.implicitResult (context.analyze e state)
  | .self _, state | .literal .., state => by
    rw [Expr.implicit, analyze, analyze]
    rfl
  | .identifier name span, state => by
    rw [Expr.implicit, analyze, analyze]
    exact context.name_implicit span name state
  | .member object name span, state => by
    rcases Expr.implicit_member_cases context.resolver object name span with
      ⟨start, rfl, hmember, h⟩ | h
    · rw [h, analyze, context.name_eq_member_document hmember, analyze, analyze]
      exact context.member_implicit span name state .document
    · rw [h, analyze, analyze, analyze_implicit object state]
      exact context.member_implicit span name _ _
  | .index object i _, state => by
    rw [Expr.implicit, analyze, analyze, analyze_implicit object state]
    exact congrArg (Prod.mk Subject.detached) (congrArg Prod.snd (analyze_implicit i _))
  | .call callee args _, state => by
    have hargs := analyzeAll_implicit args state
    have hcallee := analyze_implicit callee (context.analyzeAll args state)
    cases callee with
    | identifier name =>
      rw [Expr.implicit, Expr.implicit, analyze, analyze, hargs]
      exact context.nameCall_implicit name args _
    | member object name place =>
      have hobject := analyze_implicit object (context.analyzeAll args state)
      rw [Expr.implicit]
      rcases Expr.implicit_member_cases context.resolver object name place with
        ⟨start, rfl, hmember, h⟩ | h
      · rw [h, analyze, context.nameCall_eq_memberCall_document hmember, analyze, analyze, hargs]
        exact context.memberCall_implicit name args _ .document
      · rw [h, analyze, analyze, hargs, hobject]
        exact context.memberCall_implicit name args _ _
    | _ =>
      rw [← hargs] at hcallee
      exact congrArg (Prod.mk Subject.unresolved) (congrArg Prod.snd hcallee)
  | .binary _ left right _, state => by
    rw [Expr.implicit, analyze, analyze, analyze_implicit left state]
    exact congrArg (Prod.mk Subject.detached) (congrArg Prod.snd (analyze_implicit right _))
  | .concat parts _, state => by
    rw [Expr.implicit, analyze, analyze, analyzeAll_implicit parts state]
    rfl

/-- The analysis of several normal forms does the same, with arguments in normal form. -/
theorem analyzeAll_implicit : (es : List Expr) → (state : WatchAnalysis) →
    context.analyzeAll (Expr.implicitAll context.resolver es) (state.implicit context.resolver) =
      (context.analyzeAll es state).implicit context.resolver
  | [], _ => rfl
  | e :: es, state => by
    rw [Expr.implicitAll, analyzeAll, analyzeAll, analyze_implicit e state]
    exact analyzeAll_implicit es _

end

end WatchContext

/-! ## Numbers -/

section Numbers

variable (resolver : Resolver)

namespace WatchChain

mutual

/-- A chain of numbered watchers with all arguments in normal form. -/
def implicit : WatchChain → WatchChain
  | link slot watched bindings children =>
    link slot (watched.implicit resolver) bindings (implicitAll children)

/-- Several chains of numbered watchers with all arguments in normal form. -/
def implicitAll : List WatchChain → List WatchChain
  | [] => []
  | chain :: chains => implicit chain :: implicitAll chains

end

theorem implicitAll_eq_map (chains : List WatchChain) :
    implicitAll resolver chains = chains.map (implicit resolver) := by
  induction chains with
  | nil => rfl
  | cons chain chains ih => rw [implicitAll, ih, List.map_cons]

@[simp] theorem slot_implicit (chain : WatchChain) :
    (chain.implicit resolver).slot = chain.slot := by
  cases chain; rfl

@[simp] theorem watched_implicit (chain : WatchChain) :
    (chain.implicit resolver).watched = chain.watched.implicit resolver := by
  cases chain; rfl

@[simp] theorem isUnobservable_implicit (chain : WatchChain) :
    (chain.implicit resolver).isUnobservable = chain.isUnobservable := by
  obtain ⟨slot, watched, bindings, children⟩ := chain
  have hempty : (implicitAll resolver children).isEmpty = children.isEmpty := by
    cases children <;> rfl
  simp [implicit, isUnobservable, WatchChain.watched, WatchChain.children, hempty]

end WatchChain

mutual

theorem WatchTree.number_implicit (first : Nat) : (tree : WatchTree) →
    (tree.implicit resolver).number first = (tree.number first).implicit resolver
  | .node watched bindings children => by
    rw [implicit, number, number, WatchChain.implicit, numberAll_implicitAll (first + 1) children]

/-- Numbering does not look at the form of arguments. -/
theorem WatchTree.numberAll_implicitAll (first : Nat) : (trees : List WatchTree) →
    numberAll first (implicitAll resolver trees) =
      WatchChain.implicitAll resolver (numberAll first trees)
  | [] => rfl
  | tree :: trees => by
    rw [implicitAll, numberAll, numberAll, WatchChain.implicitAll, number_implicit first tree,
      size_implicit, numberAll_implicitAll (first + tree.size) trees]

end

/-- A watcher with arguments in normal form. -/
def Watcher.implicit (watcher : Watcher) : Watcher :=
  { watcher with watched := watcher.watched.implicit resolver }

namespace WatchChain

mutual

theorem watchers_implicit (parent : Option Nat) (depth : Nat) : (chain : WatchChain) →
    (chain.implicit resolver).watchers parent depth =
      (chain.watchers parent depth).map (Watcher.implicit resolver)
  | link slot watched bindings children => by
    have hchildren : (implicitAll resolver children).map WatchChain.slot =
        children.map WatchChain.slot := by
      simp [implicitAll_eq_map]
    rw [implicit, watchers, watchers, List.map_cons,
      watchersAll_implicitAll (some slot) (depth + 1) children, hchildren]
    rfl

/-- The watchers of chains in normal form are the same, with arguments in normal form. -/
theorem watchersAll_implicitAll (parent : Option Nat) (depth : Nat) : (chains : List WatchChain) →
    watchersAll parent depth (implicitAll resolver chains) =
      (watchersAll parent depth chains).map (Watcher.implicit resolver)
  | [] => rfl
  | chain :: chains => by
    rw [implicitAll, watchersAll, watchersAll, List.map_append,
      watchers_implicit parent depth chain, watchersAll_implicitAll parent depth chains]

end

end WatchChain

end Numbers

end Bindery
