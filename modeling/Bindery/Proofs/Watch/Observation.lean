import Bindery.Proofs.Watch.Forest
import Bindery.Proofs.Watch.Rules

/-!
# The analysis follows the rules

Analysing an expression for a binding finds what the rules say of its value, and notes the binding
at the watchers of exactly the chains that the rules assign to the expression. Everything else in
the forest stays as it is, so that the order in which expressions are analysed does not matter to
what is found at a path.
-/

namespace Bindery

open WatchForest (dependents? HasPlace)

/-! ## Steps of the analysis -/

/-- What analysis takes care of: a part of an XML value has no events. -/
def Watched.Proper (watched : Watched) : Prop :=
  watched.kind.form = .xml → watched.events = []

@[simp] theorem WatchedKind.form_eq_xml_iff {kind : WatchedKind} :
    kind.form = .xml ↔ kind = .xml := by
  cases kind <;> simp [form]

/-- Only a part of an XML value needs care. -/
theorem Watched.Proper.of_kind_ne {watched : Watched} (h : watched.kind ≠ .xml) :
    watched.Proper := by
  intro hform
  exact absurd (WatchedKind.form_eq_xml_iff.mp hform) h

namespace WatchForest

/-- One forest comes from another by insertions for one binding, each at a place that is there. -/
inductive Grown (binding : Nat) : WatchForest → WatchForest → Prop
  | refl (forest : WatchForest) : Grown binding forest forest
  | insert {before after : WatchForest} {watched : Watched} {above : WatchPath} :
    Grown binding before after → watched.Proper → after.HasPlace above →
      Grown binding before (after.insert watched binding above)

theorem Grown.trans {binding : Nat} {first second third : WatchForest}
    (h : Grown binding first second) (h' : Grown binding second third) :
    Grown binding first third := by
  induction h' with
  | refl => exact h
  | insert _ hproper hplace ih => exact .insert ih hproper hplace

/-- A binding has been noted at the watchers of some paths and of no others. -/
structure Noted (binding : Nat) (paths : List WatchPath) (before after : WatchForest) : Prop where
  /-- Each of the paths leads to a watcher on which the binding depends. -/
  at_path : ∀ path ∈ paths, after.dependents? path =
    some (noteDependent binding ((before.dependents? path).getD []))
  /-- Other paths lead where they led before. -/
  elsewhere : ∀ path, path ∉ paths → after.dependents? path = before.dependents? path

theorem Noted.nil (binding : Nat) (forest : WatchForest) : Noted binding [] forest forest where
  at_path := by simp
  elsewhere := by simp

/-- Noting a binding at some paths and then at others notes it at all of them. -/
theorem Noted.append {binding : Nat} {paths others : List WatchPath}
    {first second third : WatchForest} (h : Noted binding paths first second)
    (h' : Noted binding others second third) : Noted binding (paths ++ others) first third where
  at_path path hpath := by
    by_cases hothers : path ∈ others
    · rw [h'.at_path path hothers]
      by_cases hpaths : path ∈ paths
      · rw [h.at_path path hpaths, Option.getD_some, noteDependent_noteDependent]
      · rw [h.elsewhere path hpaths]
    · rw [h'.elsewhere path hothers]
      exact h.at_path path ((List.mem_append.mp hpath).resolve_right hothers)
  elsewhere path hpath := by
    rw [List.mem_append, not_or] at hpath
    rw [h'.elsewhere path hpath.2, h.elsewhere path hpath.1]

/-- Noted paths lead to watchers. -/
theorem Noted.hasPlace {binding : Nat} {paths : List WatchPath} {before after : WatchForest}
    (h : Noted binding paths before after) {path : WatchPath} (hpath : path ∈ paths) :
    after.HasPlace path :=
  .inr (by simp [h.at_path path hpath])

theorem Noted.insert {watched : Watched} {binding : Nat} {above : WatchPath}
    {forest : WatchForest} (hplace : forest.HasPlace above) :
    Noted binding [above ++ [watched.key]] forest (forest.insert watched binding above) where
  at_path path hpath := by
    rw [List.mem_singleton] at hpath
    rw [dependents?_insert watched binding hplace, if_pos hpath]
  elsewhere path hpath := by
    rw [List.mem_singleton] at hpath
    rw [dependents?_insert watched binding hplace, if_neg hpath]

end WatchForest

/-- A step of the analysis that finds a value and notes the binding at some paths. -/
structure Analyzed (binding : Nat) (subject : Subject) (paths : List WatchPath)
    (before : WatchForest) (result : Subject × WatchAnalysis) : Prop where
  subject_eq : result.1 = subject
  noted : WatchForest.Noted binding paths before result.2.forest
  grown : WatchForest.Grown binding before result.2.forest

/-- Two steps, of which the second one finds the value. -/
theorem Analyzed.andThen {binding : Nat} {subject subject' : Subject}
    {paths others : List WatchPath} {before : WatchForest} {first second : Subject × WatchAnalysis}
    (h : Analyzed binding subject paths before first)
    (h' : Analyzed binding subject' others first.2.forest second) :
    Analyzed binding subject' (paths ++ others) before second :=
  ⟨h'.subject_eq, h.noted.append h'.noted, h.grown.trans h'.grown⟩

/-- A step whose value is replaced by another one. -/
theorem Analyzed.yield {binding : Nat} {subject : Subject} {paths : List WatchPath}
    {before : WatchForest} {result : Subject × WatchAnalysis}
    (h : Analyzed binding subject paths before result) (other : Subject) :
    Analyzed binding other paths before (other, result.2) :=
  ⟨rfl, h.noted, h.grown⟩

namespace WatchContext

variable (context : WatchContext) {state : WatchAnalysis}

/-- A value that nothing observes. -/
theorem analyzed_unobserved {subject : Subject} (h : subject.chain? = none) :
    Analyzed context.binding subject subject.chain?.toList state.forest (subject, state) := by
  rw [h]
  exact ⟨rfl, .nil _ _, .refl _⟩

theorem analyzed_report (span : Span) (name : String) :
    Analyzed context.binding .unresolved [] state.forest (report span name state) :=
  ⟨rfl, .nil _ _, .refl _⟩

/-- A watched step below a place that is there. -/
theorem analyzed_watch {above : WatchPath} {watched : Watched} (type : Option String)
    (hproper : watched.Proper) (hplace : state.forest.HasPlace above) :
    Analyzed context.binding (.value (some (above ++ [watched.key])) type)
      [above ++ [watched.key]] state.forest (context.watch above watched type state) :=
  ⟨rfl, .insert hplace, .insert (.refl _) hproper hplace⟩

/-- A watched step at the start of a chain. -/
theorem analyzed_start {watched : Watched} {key : WatchKey} (type : Option String)
    (hproper : watched.Proper) (hkey : watched.key = key) :
    Analyzed context.binding (.start key type) (Subject.start key type).chain?.toList state.forest
      (context.watch [] watched type state) := by
  subst hkey
  exact context.analyzed_watch type hproper (.inl rfl)

/-- A watched step behind another value. -/
theorem analyzed_behind {above : Option WatchPath} {watched : Watched} {key : WatchKey}
    (type : Option String) (hproper : watched.Proper) (hkey : watched.key = key)
    (hplace : ∀ path ∈ above, state.forest.HasPlace path) :
    Analyzed context.binding (.behind above key type)
      (Subject.behind above key type).chain?.toList state.forest
      (context.watchBelow above watched type state) := by
  subst hkey
  cases above with
  | none => exact context.analyzed_unobserved rfl
  | some path => exact context.analyzed_watch type hproper (hplace path rfl)

/-- The key of a watched call is that of the rules. -/
theorem key_function (args : List Expr) (name : String) (events : List String) :
    Watched.key { kind := .function args, name, events := eventSet events } =
      .ofCall name args events := by
  simp [Watched.key, WatchedKind.form, WatchedKind.qualifier, WatchKey.ofCall,
    Expr.argTexts_eq_map]

theorem analyzed_watchStatic (name owner : String) (definition : Definition) :
    Analyzed context.binding
      (.start (.ofStatic (definition.owner.getD owner) name definition.events) definition.type)
      (Subject.start (.ofStatic (definition.owner.getD owner) name definition.events)
        definition.type).chain?.toList
      state.forest (context.watchStatic name owner definition state) :=
  context.analyzed_start definition.type (.of_kind_ne (by simp)) rfl

theorem analyzed_documentMember (definition : Definition) :
    Analyzed context.binding (context.resolver.ownValue definition)
      (context.resolver.ownValue definition).chain?.toList state.forest
      (context.documentMember definition state) := by
  unfold documentMember Resolver.ownValue
  split
  · exact context.analyzed_watchStatic _ _ definition
  · exact context.analyzed_start definition.type (.of_kind_ne (by simp)) rfl

theorem analyzed_documentCall (definition : Definition) (args : List Expr) :
    Analyzed context.binding (Resolver.ownResult definition args)
      (Resolver.ownResult definition args).chain?.toList state.forest
      (context.documentCall definition args state) := by
  unfold documentCall Resolver.ownResult
  cases hstatic : definition.isStatic with
  | true => simpa [hstatic] using context.analyzed_unobserved rfl
  | false =>
    cases hfunction : definition.isFunction with
    | true =>
      exact context.analyzed_start definition.type (.of_kind_ne (by simp)) (key_function args _ _)
    | false => exact context.analyzed_unobserved rfl

theorem analyzed_name (span : Span) (name : String) :
    Analyzed context.binding (context.resolver.nameValue name)
      (context.resolver.nameValue name).chain?.toList state.forest
      (context.name span name state) := by
  unfold WatchContext.name Resolver.nameValue
  cases context.resolver.documentMember? name with
  | some definition => exact context.analyzed_documentMember definition
  | none =>
    cases context.resolver.global? name with
    | some definition =>
      cases hclass : definition.isClass with
      | true =>
        cases htype : definition.type <;> simp only [hclass, htype, if_true] <;>
          exact context.analyzed_unobserved rfl
      | false =>
        simp only [hclass, Bool.false_eq_true, if_false]
        exact context.analyzed_unobserved rfl
    | none => exact context.analyzed_report span name

/-- A member of a value, if the chain of the value is there. -/
theorem analyzed_member (span : Span) {receiver : Subject} (name : String)
    (hplace : ∀ path ∈ receiver.chain?, state.forest.HasPlace path) :
    Analyzed context.binding (context.resolver.memberValue name receiver)
      (context.resolver.memberValue name receiver).chain?.toList state.forest
      (context.member span receiver name state) := by
  cases receiver with
  | unresolved => exact context.analyzed_unobserved rfl
  | document =>
    simp only [member, Resolver.memberValue]
    cases context.resolver.documentMember? name with
    | some definition => exact context.analyzed_documentMember definition
    | none => exact context.analyzed_report span name
  | classObject qualified =>
    simp only [member, Resolver.memberValue]
    cases context.resolver.member? qualified name with
    | some definition => exact context.analyzed_watchStatic name qualified definition
    | none => exact context.analyzed_report span name
  | value above type =>
    simp only [member, Resolver.memberValue]
    split
    · exact context.analyzed_behind _ (fun _ => rfl) rfl hplace
    · split
      · exact context.analyzed_behind _ (.of_kind_ne (by simp)) rfl hplace
      · cases context.resolver.member? (type.getD "") name with
        | some definition =>
          by_cases hstatic : definition.isStatic = true
          · simp only [if_pos hstatic]
            exact context.analyzed_watchStatic name (type.getD "") definition
          · simp only [if_neg hstatic]
            exact context.analyzed_behind definition.type (.of_kind_ne (by simp)) rfl hplace
        | none => exact context.analyzed_report span name

theorem analyzed_nameCall (name : String) (args : List Expr) :
    Analyzed context.binding (context.resolver.nameResult name args)
      (context.resolver.nameResult name args).chain?.toList state.forest
      (context.nameCall name args state) := by
  unfold nameCall Resolver.nameResult
  cases context.resolver.documentMember? name with
  | some definition => exact context.analyzed_documentCall definition args
  | none => cases context.resolver.global? name <;> exact context.analyzed_unobserved rfl

/-- The result of a method of a value, if the chain of the value is there. -/
theorem analyzed_memberCall {receiver : Subject} (name : String) (args : List Expr)
    (hplace : ∀ path ∈ receiver.chain?, state.forest.HasPlace path) :
    Analyzed context.binding (context.resolver.memberResult name args receiver)
      (context.resolver.memberResult name args receiver).chain?.toList state.forest
      (context.memberCall receiver name args state) := by
  cases receiver with
  | unresolved => exact context.analyzed_unobserved rfl
  | document =>
    simp only [memberCall, Resolver.memberResult]
    cases context.resolver.documentMember? name with
    | some definition => exact context.analyzed_documentCall definition args
    | none => exact context.analyzed_unobserved rfl
  | classObject qualified =>
    simp only [memberCall, Resolver.memberResult]
    cases context.resolver.member? qualified name <;> exact context.analyzed_unobserved rfl
  | value above type =>
    simp only [memberCall, Resolver.memberResult]
    split
    · exact context.analyzed_behind _ (.of_kind_ne (by simp)) (key_function args name []) hplace
    · cases context.resolver.member? (type.getD "") name with
      | some definition =>
        by_cases hstatic : definition.isStatic = true
        · simp only [if_pos hstatic]
          exact context.analyzed_unobserved rfl
        · simp only [if_neg hstatic]
          exact context.analyzed_behind definition.type (.of_kind_ne (by simp))
            (key_function args _ _) hplace
      | none => exact context.analyzed_unobserved rfl

end WatchContext

/-! ## Expressions -/

/-- The chain of an expression's value is among the chains that the expression observes. -/
theorem Expr.chain_mem_chains {resolver : Resolver} {e : Expr} {path : WatchPath}
    (h : path ∈ (e.subject resolver).chain?) : path ∈ e.chains resolver := by
  cases e with
  | self => simp [subject, Subject.chain?] at h
  | identifier name => simpa [chains, subject] using h
  | member object name =>
    rw [chains]
    exact List.mem_append_right _ (by simpa [subject] using h)
  | call callee args =>
    cases callee with
    | identifier name =>
      rw [chains]
      exact List.mem_append_right _ (by simpa [subject] using h)
    | member object name =>
      rw [chains]
      exact List.mem_append_right _ (by simpa [subject] using h)
    | _ => simp [subject, Subject.chain?] at h
  | _ => simp [subject, Subject.chain?] at h

namespace WatchContext

variable (context : WatchContext)

mutual

/-- The analysis of an expression finds what the rules say of its value and notes the binding at
the chains that the rules assign to it. -/
theorem analyzed_analyze : (e : Expr) → (state : WatchAnalysis) →
    Analyzed context.binding (e.subject context.resolver) (e.chains context.resolver) state.forest
      (context.analyze e state)
  | .self _, state => by
    rw [analyze, Expr.chains]
    exact ⟨rfl, .nil _ _, .refl _⟩
  | .identifier name span, state => by
    rw [analyze, Expr.chains]
    exact context.analyzed_name span name
  | .member object name span, state => by
    have hobject := analyzed_analyze object state
    rw [analyze, Expr.chains]
    refine hobject.andThen ?_
    have hplace : ∀ path ∈ (object.subject context.resolver).chain?,
        (context.analyze object state).2.forest.HasPlace path :=
      fun path hpath => hobject.noted.hasPlace (Expr.chain_mem_chains hpath)
    rw [hobject.subject_eq]
    exact context.analyzed_member span name hplace
  | .index object i _, state => by
    have hobject := analyzed_analyze object state
    have hindex := analyzed_analyze i (context.analyze object state).2
    rw [analyze, Expr.chains]
    exact (hobject.andThen hindex).yield _
  | .call callee args _, state => by
    have hargs := analyzed_analyzeAll args state .detached
    have hcallee := analyzed_analyze callee (context.analyzeAll args state)
    cases callee with
    | identifier name =>
      rw [analyze, Expr.chains]
      exact hargs.andThen (context.analyzed_nameCall name args)
    | member object name =>
      have hobject := analyzed_analyze object (context.analyzeAll args state)
      rw [analyze, Expr.chains]
      refine (hargs.andThen hobject).andThen ?_
      have hplace : ∀ path ∈ (object.subject context.resolver).chain?,
          (context.analyze object (context.analyzeAll args state)).2.forest.HasPlace path :=
        fun path hpath => hobject.noted.hasPlace (Expr.chain_mem_chains hpath)
      rw [hobject.subject_eq]
      exact context.analyzed_memberCall name args hplace
    | _ => exact (hargs.andThen hcallee).yield _
  | .literal .., state => by
    rw [analyze, Expr.chains]
    exact ⟨rfl, .nil _ _, .refl _⟩
  | .binary _ left right _, state => by
    have hleft := analyzed_analyze left state
    have hright := analyzed_analyze right (context.analyze left state).2
    rw [analyze, Expr.chains]
    exact (hleft.andThen hright).yield _
  | .concat parts _, state => by
    rw [analyze, Expr.chains]
    exact analyzed_analyzeAll parts state .detached

/-- The analysis of several expressions notes the binding at the chains of all of them. -/
theorem analyzed_analyzeAll : (es : List Expr) → (state : WatchAnalysis) → (subject : Subject) →
    Analyzed context.binding subject (Expr.chainsAll context.resolver es) state.forest
      (subject, context.analyzeAll es state)
  | [], state, subject => by
    rw [analyzeAll, Expr.chainsAll]
    exact ⟨rfl, .nil _ _, .refl _⟩
  | e :: es, state, subject => by
    have he := analyzed_analyze e state
    have hes := analyzed_analyzeAll es (context.analyze e state).2 subject
    rw [analyzeAll, Expr.chainsAll]
    exact he.andThen hes

end

end WatchContext

end Bindery
