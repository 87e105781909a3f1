import Bindery.Proofs.Expr.Lookups
import Bindery.Proofs.Watch.Steps
import Bindery.Proofs.Watch.Trie

/-!
# Where the watchers of calls come from

The watcher of a function result keeps the arguments of one call, from which the closure of its
parameters is generated. That call stands in the source of some binding, and the path of the watcher
is the chain of its result.
-/

namespace Bindery

open WatchTree (EveryAll)

/-- A call with some arguments inside an expression, the result of which is observed at a path. -/
def Expr.ObservesCall (resolver : Resolver) (e : Expr) (args : List Expr) (path : WatchPath) :
    Prop :=
  ∃ callee span, call callee args span ∈ e.parts ∧
    path ∈ ((call callee args span).subject resolver).chain?

theorem Expr.ObservesCall.of_parts {resolver : Resolver} {e whole : Expr} {args : List Expr}
    {path : WatchPath} (h : e.ObservesCall resolver args path) (hparts : e.parts ⊆ whole.parts) :
    whole.ObservesCall resolver args path := by
  obtain ⟨callee, span, hmem, hpath⟩ := h
  exact ⟨callee, span, hparts hmem, hpath⟩

/-- If something at a path watches a call, then it is one of some calls that are observed there. -/
def Watched.Among (calls : List Expr → WatchPath → Prop) (path : WatchPath) (watched : Watched) :
    Prop :=
  ∀ args ∈ watched.kind.args?, calls args path

/-! ## Steps -/

namespace WatchContext

variable {context : WatchContext} {state : WatchAnalysis} {result : Subject × WatchAnalysis}
  {calls : List Expr → WatchPath → Prop} (h : EveryAll (Watched.Among calls) [] state.forest)
include h

/-- Reading a name inserts no watcher of a call. -/
theorem ReadStep.everyAll {span : Span} {name : String}
    (hstep : context.ReadStep span name state result) :
    EveryAll (Watched.Among calls) [] result.2.forest := by
  cases hstep with
  | known | reported => exact h
  | watched hkind =>
    refine WatchForest.everyAll_insert _ _ (fun args hargs => ?_) h
    rw [hkind] at hargs
    exact absurd hargs (Option.not_mem_none args)

/-- Calling a method inserts the watcher of that call at most. -/
theorem CallStep.everyAll {args : List Expr} (hstep : context.CallStep args state result)
    (hcalls : ∀ path ∈ result.1.chain?, calls args path) :
    EveryAll (Watched.Among calls) [] result.2.forest := by
  cases hstep with
  | known => exact h
  | watched hkind =>
    refine WatchForest.everyAll_insert _ _ (fun others hothers => ?_) h
    rw [hkind] at hothers
    obtain rfl := Option.some.inj hothers
    exact hcalls _ rfl

end WatchContext

/-! ## Expressions -/

namespace WatchContext

variable (context : WatchContext) {calls : List Expr → WatchPath → Prop}

mutual

/-- The analysis of an expression inserts watchers of the calls inside it only. -/
theorem everyAll_analyze : (e : Expr) → (state : WatchAnalysis) →
    (∀ args path, e.ObservesCall context.resolver args path → calls args path) →
    EveryAll (Watched.Among calls) [] state.forest →
      EveryAll (Watched.Among calls) [] (context.analyze e state).2.forest
  | .self _, state, _, h | .literal .., state, _, h => by
    rw [analyze]
    exact h
  | .identifier name span, state, _, h => by
    rw [analyze]
    exact (context.readStep_name span name).everyAll h
  | .member object name span, state, hcalls, h => by
    have hobject := everyAll_analyze object state
      (fun _ _ hcall => hcalls _ _ (hcall.of_parts Expr.parts_subset_of_object)) h
    rw [analyze]
    by_cases hunknown : (context.analyze object state).1 = .unresolved
    · rw [hunknown]
      exact hobject
    · exact (context.readStep_member span name hunknown).everyAll hobject
  | .index object i _, state, hcalls, h => by
    have hobject := everyAll_analyze object state
      (fun _ _ hcall => hcalls _ _ (hcall.of_parts Expr.parts_subset_of_indexed)) h
    rw [analyze]
    exact everyAll_analyze i _
      (fun _ _ hcall => hcalls _ _ (hcall.of_parts Expr.parts_subset_of_index)) hobject
  | .call callee args span, state, hcalls, h => by
    have hargs := everyAll_analyzeAll args state
      (fun arg harg _ _ hcall => hcalls _ _ (hcall.of_parts (Expr.parts_subset_of_mem_args harg))) h
    have hcallee := everyAll_analyze callee (context.analyzeAll args state)
      (fun _ _ hcall => hcalls _ _ (hcall.of_parts Expr.parts_subset_of_callee)) hargs
    have hsubject := (context.analyzed_analyze (.call callee args span) state).subject_eq
    cases callee with
    | identifier name =>
      rw [analyze] at hsubject ⊢
      refine (context.callStep_nameCall name args).everyAll hargs fun path hpath =>
        hcalls args path ?_
      rw [hsubject] at hpath
      exact ⟨_, span, Expr.mem_parts_self _, hpath⟩
    | member object name =>
      have hobject := everyAll_analyze object (context.analyzeAll args state)
        (fun _ _ hcall => hcalls _ _
          ((hcall.of_parts Expr.parts_subset_of_object).of_parts Expr.parts_subset_of_callee)) hargs
      rw [analyze] at hsubject ⊢
      refine (context.callStep_memberCall name args _).everyAll hobject
        fun path hpath => hcalls args path ?_
      rw [hsubject] at hpath
      exact ⟨_, span, Expr.mem_parts_self _, hpath⟩
    | _ => exact hcallee
  | .binary _ left right _, state, hcalls, h => by
    have hleft := everyAll_analyze left state
      (fun _ _ hcall => hcalls _ _ (hcall.of_parts Expr.parts_subset_of_left)) h
    rw [analyze]
    exact everyAll_analyze right _
      (fun _ _ hcall => hcalls _ _ (hcall.of_parts Expr.parts_subset_of_right)) hleft
  | .concat elements _, state, hcalls, h => by
    rw [analyze]
    refine everyAll_analyzeAll elements state
      (fun e he _ _ hcall => hcalls _ _ (hcall.of_parts ?_)) h
    intro part hpart
    exact List.mem_cons_of_mem _ (Expr.mem_partsAll.mpr ⟨e, he, hpart⟩)

theorem everyAll_analyzeAll : (es : List Expr) → (state : WatchAnalysis) →
    (∀ e ∈ es, ∀ args path, e.ObservesCall context.resolver args path → calls args path) →
    EveryAll (Watched.Among calls) [] state.forest →
      EveryAll (Watched.Among calls) [] (context.analyzeAll es state).forest
  | [], state, _, h => by
    rw [analyzeAll]
    exact h
  | e :: es, state, hcalls, h => by
    rw [analyzeAll]
    exact everyAll_analyzeAll es _ (fun e' he' => hcalls e' (List.mem_cons_of_mem _ he'))
      (everyAll_analyze e state (hcalls e List.mem_cons_self) h)

end

end WatchContext

/-! ## Databases -/

namespace Database

variable {resolver : Resolver} {bindings : List Binding}

/-- The watcher of a function result keeps the arguments of a call in the source of some binding,
and the result of this call is observed at the path of the watcher. -/
theorem exists_call_of_atPath {watcher : Watcher} {path : WatchPath}
    (hpath : (ofBindings resolver bindings).1.AtPath watcher path) {args : List Expr}
    (hkind : watcher.watched.kind = .function args) :
    ∃ binding ∈ bindings, ∃ source ∈ binding.source, source.ObservesCall resolver args path := by
  let calls (args : List Expr) (path : WatchPath) : Prop :=
    ∃ binding ∈ bindings, ∃ source ∈ binding.source, source.ObservesCall resolver args path
  have hall : EveryAll (Watched.Among calls) [] (analyzeSources resolver bindings).forest := by
    refine List.foldlRecOn bindings _
      (motive := fun state : WatchAnalysis => EveryAll (Watched.Among calls) [] state.forest)
      trivial fun state ih binding hbinding => ?_
    split
    · next source hsource =>
      exact WatchContext.everyAll_analyze _ source state
        (fun _ _ hcall => ⟨binding, hbinding, source, hsource, hcall⟩) ih
    · exact ih
  have hcall := WatchTree.watched_of_mem_locatedAll _ hall (atPath_ofBindings_iff.mp hpath)
  exact hcall args (by simp [hkind, WatchedKind.args?])

end Database

end Bindery
