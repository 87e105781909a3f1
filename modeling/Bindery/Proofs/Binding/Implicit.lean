import Bindery.Compilation
import Bindery.Proofs.Binding.Atomic
import Bindery.Proofs.Constructor.Implicit
import Bindery.Proofs.Document.Implicit

/-!
# An explicit document changes nothing

A member of the document may be named with or without `this.` in front of it, anywhere in the
expressions of a document. What the bindings of the document are compiled to does not depend on
that: not the code, nor what is reported, nor what the database of bindings says, but for the form
of the expressions that it remembers.
-/

namespace Bindery

/-! ## What shows of constructor code -/

/-- What shows of a binding: its texts, but not the form of its source. -/
structure BindingOutline where
  slot : Nat
  sourceText : Option String
  destination : Option Destination
  isSimple : Bool
  span : Span

/-- What shows of a watcher: its key, but not the form of arguments. -/
structure WatcherOutline where
  slot : Nat
  key : WatchKey
  bindings : List Nat
  parent : Option Nat
  children : List Nat
  depth : Nat

/-- What shows of constructor code and of the database from which it has been generated. -/
structure ConstructorOutline where
  instructions : List Instruction
  declarations : List (Name × Name)
  propertyGetter : Option MethodHandle
  bindings : List BindingOutline
  watchers : List WatcherOutline
  pairs : List (Nat × Nat)

/-- A binding without the form of its source. -/
def Binding.outline (binding : Binding) : BindingOutline where
  slot := binding.slot
  sourceText := binding.sourceText
  destination := binding.destination
  isSimple := binding.isSimple
  span := binding.span

/-- A watcher without the form of arguments. -/
def Watcher.outline (watcher : Watcher) : WatcherOutline where
  slot := watcher.slot
  key := watcher.watched.key
  bindings := watcher.bindings
  parent := watcher.parent
  children := watcher.children
  depth := watcher.depth

/-- Constructor code without the form of the expressions from which it has been generated. -/
def ConstructorCode.outline (code : ConstructorCode) : ConstructorOutline where
  instructions := code.instructions
  declarations := code.declarations
  propertyGetter := code.propertyGetter
  bindings := code.database.bindings.map Binding.outline
  watchers := code.database.watchers.map Watcher.outline
  pairs := code.database.pairs

variable (resolver : Resolver)

/-- The normal form does not show. -/
theorem ConstructorCode.outline_implicit (code : ConstructorCode) :
    (code.implicit resolver).outline = code.outline := by
  have hbinding (binding : Binding) : (binding.implicit resolver).outline = binding.outline := by
    rw [Binding.outline, Binding.sourceText_implicit]
    rfl
  have hwatcher (watcher : Watcher) : (watcher.implicit resolver).outline = watcher.outline := by
    simp [Watcher.outline, Watcher.implicit]
  simp only [outline, implicit, Database.watchers_implicit, List.map_map, Function.comp_def,
    hwatcher]
  simp only [Database.implicit, List.map_map, Function.comp_def, hbinding]

/-! ## Recording -/

/-- A change of place does not meet the normal form. -/
theorem Expr.implicit_withSpan (e : Expr) (span : Span) :
    (e.withSpan span).implicit resolver = (e.implicit resolver).withSpan span := by
  cases e with
  | member object name place =>
    simp only [withSpan, implicit]
    split <;> rfl
  | _ => simp only [withSpan, implicit]

namespace Destination

/-- A segment behind an object in normal form is in normal form. -/
theorem implicit_readSegment {object : Option Expr}
    (h : ∀ e ∈ object, e.implicit resolver = e ∧ e.isSelf = false) (segment : Segment) :
    (readSegment object segment).implicit resolver = readSegment object segment ∧
      (readSegment object segment).isSelf = false := by
  obtain ⟨name, index⟩ := segment
  cases object with
  | none => cases index <;> simp [readSegment, Expr.implicit, Expr.isSelf]
  | some object =>
    obtain ⟨hobject, hself⟩ := h object rfl
    have hmember : (Expr.member object name .unknown).implicit resolver =
        .member object name .unknown := by
      rw [Expr.implicit, hobject, if_neg (by simp [hself])]
    cases index with
    | none => exact ⟨hmember, rfl⟩
    | some i =>
      simp only [readSegment]
      rw [Expr.implicit, hmember, Expr.implicit]
      exact ⟨rfl, rfl⟩

/-- What reads a destination is in normal form. -/
theorem implicit_toSource (destination : Destination) :
    destination.toSource.implicit resolver = destination.toSource := by
  have hfold (segments : List Segment) (start : Option Expr)
      (hstart : ∀ e ∈ start, e.implicit resolver = e ∧ e.isSelf = false) :
      ∀ e ∈ segments.foldl (fun object segment => some (readSegment object segment)) start,
        e.implicit resolver = e ∧ e.isSelf = false := by
    induction segments generalizing start with
    | nil => exact hstart
    | cons segment segments ih =>
      refine ih _ fun e he => ?_
      obtain rfl := Option.some.inj he
      exact implicit_readSegment resolver hstart segment
  rw [toSource, Expr.implicit_withSpan]
  congr 1
  generalize hread : List.foldl _ _ destination.segments = read
  cases read with
  | none => rfl
  | some e =>
    refine (hfold _ _ (fun start hstart => ?_) e hread).1
    cases hroot : destination.root with
    | document => simp [hroot] at hstart
    | classObject qualified =>
      simp only [hroot, Option.mem_def, Option.some.injEq] at hstart
      subst hstart
      exact ⟨rfl, rfl⟩

end Destination

/-- A recording with all sources in normal form. -/
def Recording.implicit (recording : Recording) : Recording :=
  { recording with bindings := recording.bindings.map (Binding.implicit resolver) }

namespace Binding

theorem record_implicit (source : Option Expr) (destination : Option Destination) (span : Span)
    (bindings : List Binding) :
    record resolver (source.map (Expr.implicit resolver)) destination span
        (bindings.map (Binding.implicit resolver)) =
      (record resolver source destination span bindings).map (Binding.implicit resolver) := by
  cases source <;> simp [record, implicit]

/-- The reverse half of a binding stores at the place that the source names, in any form. -/
theorem reverse_implicit (source : Option Expr) (destination : Option Destination) (span : Span) :
    reverse resolver (source.map (Expr.implicit resolver)) destination span =
      reverse resolver source destination span := by
  cases source <;> cases destination <;> simp [reverse]

/-- The source of the reverse half is in normal form. -/
theorem implicit_of_reverse {source : Option Expr} {destination : Option Destination} {span : Span}
    {back : Expr} {target : Destination}
    (h : reverse resolver source destination span = .ok (back, target)) :
    back.implicit resolver = back := by
  unfold reverse at h
  split at h
  · split at h
    · obtain ⟨rfl, -⟩ := Prod.mk.inj (Except.ok.inj h)
      exact Destination.implicit_toSource resolver _
    all_goals cases h
  · cases h

theorem next_implicit (source : Option Expr) (span : Span) (bindings : List Binding)
    (placement : Placement) :
    next resolver (source.map (Expr.implicit resolver)) span
        (bindings.map (Binding.implicit resolver)) placement =
      (next resolver source span bindings placement).implicit resolver := by
  cases source <;> simp [next, implicit]

theorem recordBoth_implicit (source : Option Expr) (placement : Placement)
    (reported : List Problem) (twoWay : Bool) (span : Span) (bindings : List Binding) :
    recordBoth resolver (source.map (Expr.implicit resolver)) placement reported twoWay span
        (bindings.map (Binding.implicit resolver)) =
      (recordBoth resolver source placement reported twoWay span bindings).implicit resolver := by
  by_cases hkept : placement = .refused
  · subst hkept
    rfl
  cases twoWay with
  | false =>
    rw [recordBoth_oneWay _ _ _ _ hkept, recordBoth_oneWay _ _ _ _ hkept, next_implicit]
    simp [Recording.implicit]
  | true =>
    have hsame := reverse_implicit resolver source placement.destination? span
    cases hreverse : reverse resolver source placement.destination? span with
    | error problem =>
      rw [recordBoth_of_reverse_eq_error _ hkept _ hreverse,
        recordBoth_of_reverse_eq_error _ hkept _ (hsame.trans hreverse), next_implicit]
      simp [Recording.implicit]
    | ok halves =>
      obtain ⟨back, target⟩ := halves
      have hback : some back = (some back).map (Expr.implicit resolver) := by
        rw [Option.map_some, implicit_of_reverse resolver hreverse]
      rw [recordBoth_of_reverse_eq_ok _ hkept _ hreverse,
        recordBoth_of_reverse_eq_ok _ hkept _ (hsame.trans hreverse), next_implicit,
        Recording.implicit, ← record_implicit, ← hback]
      simp

theorem recordData_implicit (doc : Document) (node : Nat) (bindings : List Binding) :
    recordData resolver (doc.implicit resolver) node (bindings.map (Binding.implicit resolver)) =
      (recordData resolver doc node bindings).implicit resolver := by
  unfold recordData
  rw [Document.kind?_implicit, Document.placement_implicit, Document.span_implicit]
  cases doc.kind? node with
  | none => rfl
  | some kind =>
    cases kind with
    | data expr twoWay => exact recordBoth_implicit resolver (some expr) ..
    | _ => rfl

theorem recordTag_implicit (doc : Document) (node : Nat) (bindings : List Binding) :
    recordTag resolver (doc.implicit resolver) node (bindings.map (Binding.implicit resolver)) =
      (recordTag resolver doc node bindings).implicit resolver := by
  unfold recordTag
  rw [Document.kind?_implicit, Document.span_implicit]
  cases doc.kind? node with
  | none => rfl
  | some kind =>
    cases kind with
    | binding source destination twoWay =>
      have hconcat : (source.map (Expr.implicit resolver)).any Expr.isConcat =
          source.any Expr.isConcat := by
        cases source <;> simp
      cases destination with
      | none =>
        cases source with
        | none => rfl
        | some source => exact recordBoth_implicit resolver (some source) ..
      | some destination =>
        simp only [Option.map_some, NodeKind.implicit, hconcat, Expr.placement_implicit]
        exact recordBoth_implicit resolver source ..
    | _ => rfl

end Binding

/-! ## Compilation -/

namespace Compilation

/-- A compilation with all recorded sources in normal form. -/
def implicit (compilation : Compilation) : Compilation :=
  { compilation with
    recorded := compilation.recorded.map (List.map (Binding.implicit compilation.resolver)) }

/-- What a visit gives, with all recorded sources in normal form. -/
def implicitResult (result : Compilation × List Problem) : Compilation × List Problem :=
  (result.1.implicit, result.2)

variable (compilation : Compilation) (doc : Document)

theorem visit_implicit {look look' : List Binding → Recording}
    (h : ∀ bindings, look' (bindings.map (Binding.implicit compilation.resolver)) =
      (look bindings).implicit compilation.resolver) :
    compilation.implicit.visit look' = (compilation.visit look).map implicitResult := by
  obtain ⟨config, resolver, recorded⟩ := compilation
  cases recorded with
  | none => rfl
  | some bindings =>
    simp only [implicit, Option.map_some, visit, h]
    rfl

theorem visitNode_implicit (node : Nat) :
    compilation.implicit.visitNode (doc.implicit compilation.resolver) node =
      (compilation.visitNode doc node).map implicitResult := by
  unfold visitNode
  rw [Document.kind?_implicit]
  cases doc.kind? node with
  | none => rfl
  | some kind =>
    cases kind with
    | data => exact visit_implicit _ (Binding.recordData_implicit _ doc node)
    | binding => exact visit_implicit _ (Binding.recordTag_implicit _ doc node)
    | _ => rfl

theorem visitNodes_implicit (nodes : List Nat) :
    compilation.implicit.visitNodes (doc.implicit compilation.resolver) nodes =
      (compilation.visitNodes doc nodes).map implicitResult := by
  induction nodes generalizing compilation with
  | nil => rfl
  | cons node nodes ih =>
    rw [visitNodes, visitNodes, visitNode_implicit]
    cases hnode : compilation.visitNode doc node with
    | error failure => rfl
    | ok visited =>
      obtain ⟨next, first⟩ := visited
      have hresolver : next.resolver = compilation.resolver := (follows_visitNode hnode).resolver_eq
      have hrest := ih next
      rw [hresolver] at hrest
      simp only [Except.map, Bind.bind, Except.bind, implicitResult, hrest]
      cases next.visitNodes doc nodes <;> rfl

/-- The code that a compilation ends with does not depend on the form of recorded sources. -/
theorem finish_implicit (out : Emission) :
    compilation.implicit.finish out =
      ((compilation.finish out).1.map (Option.map (ConstructorCode.implicit compilation.resolver)),
        (compilation.finish out).2) := by
  obtain ⟨config, resolver, recorded⟩ := compilation
  cases recorded with
  | none => rfl
  | some bindings =>
    cases bindings with
    | nil => rfl
    | cons first rest =>
      have hmissing : missingClasses (implicit ⟨config, resolver, some (first :: rest)⟩) =
          missingClasses ⟨config, resolver, some (first :: rest)⟩ := rfl
      have hdatabase := Database.ofBindings_implicit resolver (first :: rest)
      simp only [implicit, Option.map_some, List.map_cons] at hmissing hdatabase ⊢
      simp only [finish, hmissing, hdatabase, ConstructorCode.ofDatabase_implicit]
      split <;> rfl

end Compilation

namespace Document

/-- A document is compiled like its normal form. -/
theorem compile_implicit (doc : Document) (config : Config) (out : Emission) :
    (doc.implicit resolver).compile config resolver out =
      ((doc.compile config resolver out).1.map
          (Option.map (ConstructorCode.implicit resolver)),
        (doc.compile config resolver out).2) := by
  have hvisit : ({ config, resolver } : Compilation).visitDocument (doc.implicit resolver) =
      (({ config, resolver } : Compilation).visitDocument doc).map Compilation.implicitResult := by
    rw [Compilation.visitDocument, Compilation.visitDocument, walk_implicit]
    exact Compilation.visitNodes_implicit { config, resolver } doc doc.walk
  rw [compile, compile, hvisit]
  cases hvisited : ({ config, resolver } : Compilation).visitDocument doc with
  | error failure => rfl
  | ok visited =>
    obtain ⟨compilation, problems⟩ := visited
    have hresolver : compilation.resolver = resolver :=
      (Compilation.follows_visitNodes hvisited).resolver_eq
    simp only [Except.map, Compilation.implicitResult, Compilation.finish_implicit, hresolver]

/-- What shows of the result of compiling a document: whether there is code, the code and its
database, and what has been emitted and reported. -/
def outline (doc : Document) (config : Config) (resolver : Resolver) (out : Emission) :
    Except Failure (Option ConstructorOutline) × Emission :=
  let compiled := doc.compile config resolver out
  (compiled.1.map (Option.map ConstructorCode.outline), compiled.2)

/-- Naming members of the document with `this.` in front of them, anywhere in its expressions,
changes nothing that shows of the result. -/
theorem outline_eq_of_prefixed {doc doc' : Document} (h : doc.Prefixed resolver doc')
    (config : Config) (out : Emission) :
    doc.outline config resolver out = doc'.outline config resolver out := by
  have hdoc (doc : Document) :
      (doc.implicit resolver).outline config resolver out = doc.outline config resolver out := by
    rw [outline, compile_implicit, outline]
    cases (doc.compile config resolver out).1 with
    | error failure => rfl
    | ok code =>
      cases code with
      | none => rfl
      | some code => simp only [Except.map, Option.map_some, ConstructorCode.outline_implicit]
  rw [← hdoc doc, h.implicit_eq, hdoc doc']

/-- A document with a user and a method that welcomes one, both of which announce their changes. -/
def welcomeResolver : Resolver where
  documentClass := "app.Main"
  member? type name :=
    if type = "app.Main" && name = "user" then
      some { name, kind := .variable, type := some "String", events := ["userChange"] }
    else if type = "app.Main" && name = "welcome" then
      some { name, kind := .function, type := some "String", events := ["welcomeChange"] }
    else none
  global? _ := none
  class? qualified := some (.ofClass qualified)

/-- A document with one tag, which binds a source. -/
def ofSource (source : Expr) : Document where
  nodes := #[⟨.document "app.Main", none, [1], .unknown, none⟩,
    ⟨.binding (some source) none false, some 0, [], .unknown, none⟩]
  generated := 0

/-- The source `welcome(user)`. -/
def welcome : Expr := .call (.identifier "welcome" .unknown) [.identifier "user" .unknown] .unknown

/-- The source `this.welcome(this.user)`. -/
def explicitWelcome : Expr :=
  .call (.member (.self .unknown) "welcome" .unknown) [.member (.self .unknown) "user" .unknown]
    .unknown

/-- A call and its argument named with `this.`: code for one binding, with the same text, and two
watchers. -/
theorem outline_eq_explicitWelcome :
    (ofSource welcome).Prefixed welcomeResolver (ofSource explicitWelcome) ∧
      (ofSource welcome).outline {} welcomeResolver {} =
        (ofSource explicitWelcome).outline {} welcomeResolver {} ∧
      ((ofSource explicitWelcome).outline {} welcomeResolver {}).1.toOption.map
          (Option.map fun outline =>
            (outline.bindings.map (·.sourceText), outline.watchers.map (·.key.name))) =
        some (some ([some "welcome(user)"], ["user", "welcome"])) := by
  have hprefixed : (ofSource welcome).Prefixed welcomeResolver (ofSource explicitWelcome) :=
    ⟨.cons ⟨.refl _, rfl, rfl, rfl, rfl⟩
      (.cons ⟨.binding false
        (.some (.call (.this _ (by decide)) (.cons (.this _ (by decide)) .nil))) .none,
        rfl, rfl, rfl, rfl⟩ .nil), rfl⟩
  exact ⟨hprefixed, outline_eq_of_prefixed welcomeResolver hprefixed {} {}, by decide +kernel⟩

end Document

end Bindery
