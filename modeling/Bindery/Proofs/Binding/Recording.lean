import Bindery.Compilation
import Bindery.Proofs.Reporting
import Bindery.Proofs.Watch.Reports

/-!
# Recorded bindings

Bindings are only ever recorded one behind the other, so that the slot of a binding is its position.
This file follows the recorded list, and what is reported on the way, from single bindings up to the
compilation of a document.
-/

namespace Bindery

/-- The lists of bindings that come about by recording, whatever is recorded. -/
inductive Recorded : List Binding → Prop
  | nil : Recorded []
  | record {bindings : List Binding} (resolver : Resolver) (source : Option Expr)
    (destination : Option Destination) (span : Span) :
    Recorded bindings → Recorded (Binding.record resolver source destination span bindings)

namespace Recorded

/-- The slots of recorded bindings count from zero. -/
theorem map_slot {bindings : List Binding} (h : Recorded bindings) :
    bindings.map Binding.slot = List.range bindings.length := by
  induction h with
  | nil => rfl
  | record resolver source destination span _ ih =>
    simp [Binding.record, ih, List.range_succ]

/-- No two recorded bindings have the same slot. -/
theorem nodup_slots {bindings : List Binding} (h : Recorded bindings) :
    (bindings.map Binding.slot).Nodup := by
  rw [h.map_slot]
  exact List.nodup_range

/-- The slot of a recorded binding is its position. -/
theorem slot_of_getElem? {bindings : List Binding} (h : Recorded bindings) {i : Nat}
    {binding : Binding} (hi : bindings[i]? = some binding) : binding.slot = i := by
  have hslot : (bindings.map Binding.slot)[i]? = some binding.slot := by simp [hi]
  rw [h.map_slot] at hslot
  exact (List.getElem?_eq_some_iff.mp hslot).2.symm.trans (by simp)

/-- A recorded binding stands at its slot. -/
theorem getElem?_slot {bindings : List Binding} (h : Recorded bindings) {binding : Binding}
    (hmem : binding ∈ bindings) : bindings[binding.slot]? = some binding := by
  obtain ⟨i, hi⟩ := List.mem_iff_getElem?.mp hmem
  rw [h.slot_of_getElem? hi, hi]

theorem slot_lt_length {bindings : List Binding} (h : Recorded bindings) {binding : Binding}
    (hmem : binding ∈ bindings) : binding.slot < bindings.length :=
  (List.getElem?_eq_some_iff.mp (h.getElem?_slot hmem)).1

end Recorded

/-! ## Recording nodes -/

namespace Binding

theorem recorded_recordBoth {bindings : List Binding} (h : Recorded bindings)
    (resolver : Resolver) (source : Option Expr) (placement : Placement) (reported : List Problem)
    (twoWay : Bool) (span : Span) :
    Recorded (recordBoth resolver source placement reported twoWay span bindings).bindings := by
  have hforward (destination : Option Destination) := h.record resolver source destination span
  unfold recordBoth
  cases placement with
  | refused => exact h
  | nowhere =>
    cases twoWay with
    | false => exact hforward none
    | true =>
      simp only [if_true]
      split
      · exact (hforward none).record ..
      · exact hforward none
  | resolved destination =>
    cases twoWay with
    | false => exact hforward (some destination)
    | true =>
      simp only [if_true]
      split
      · exact (hforward (some destination)).record ..
      · exact hforward (some destination)

theorem recorded_recordData {bindings : List Binding} (h : Recorded bindings)
    (resolver : Resolver) (doc : Document) (node : Nat) :
    Recorded (recordData resolver doc node bindings).bindings := by
  unfold recordData
  split
  · exact recorded_recordBoth h ..
  · exact h

theorem recorded_recordTag {bindings : List Binding} (h : Recorded bindings)
    (resolver : Resolver) (doc : Document) (node : Nat) :
    Recorded (recordTag resolver doc node bindings).bindings := by
  unfold recordTag
  split
  · split
    · exact h
    · exact recorded_recordBoth h ..
    · exact recorded_recordBoth h ..
  · exact h

end Binding

/-! ## Diagnostics of recordings -/

theorem Document.isOfAnalysis_placement {doc : Document} {node : Nat} {problem : Problem}
    (h : problem ∈ (doc.placement node).2) : problem.IsOfAnalysis := by
  have hmalformed (span : Span) (message : String) :
      (malformed span message).IsOfAnalysis := by
    simp [Problem.IsOfAnalysis, malformed]
  unfold placement at h
  repeat' split at h
  all_goals first
    | exact absurd h List.not_mem_nil
    | exact List.mem_singleton.mp h ▸ hmalformed _ _

theorem Expr.isOfAnalysis_placement {resolver : Resolver} {toText : Bool} {expr : Expr}
    {problem : Problem} (h : problem ∈ (expr.placement resolver toText).2) :
    problem.IsOfAnalysis := by
  unfold placement at h
  split at h
  · simp [List.mem_singleton.mp h, Problem.IsOfAnalysis]
  · split at h
    · exact absurd h List.not_mem_nil
    · simp [List.mem_singleton.mp h, Problem.IsOfAnalysis]

namespace Binding

theorem isOfAnalysis_reverse {resolver : Resolver} {source : Option Expr}
    {destination : Option Destination} {span : Span} {problem : Problem}
    (h : reverse resolver source destination span = .error problem) : problem.IsOfAnalysis := by
  unfold reverse at h
  repeat' split at h
  · simp at h
  all_goals
    rw [← Except.error.inj h]
    simp [Problem.IsOfAnalysis, oneWay]

theorem isOfAnalysis_recordBoth {resolver : Resolver} {source : Option Expr}
    {placement : Placement} {reported : List Problem} {twoWay : Bool} {span : Span}
    {bindings : List Binding} (hreported : ∀ problem ∈ reported, problem.IsOfAnalysis) :
    ∀ problem ∈
        (recordBoth resolver source placement reported twoWay span bindings).problems,
      problem.IsOfAnalysis := by
  have hboth {more : Problem} (hmore : more.IsOfAnalysis) :
      ∀ problem ∈ reported ++ [more], problem.IsOfAnalysis := by
    simpa [or_imp, forall_and] using ⟨hreported, hmore⟩
  unfold recordBoth
  cases placement with
  | refused => exact hreported
  | nowhere =>
    cases twoWay with
    | false => exact hreported
    | true =>
      simp only [if_true]
      split
      · exact hreported
      · next heq => exact hboth (isOfAnalysis_reverse heq)
  | resolved destination =>
    cases twoWay with
    | false => exact hreported
    | true =>
      simp only [if_true]
      split
      · exact hreported
      · next heq => exact hboth (isOfAnalysis_reverse heq)

theorem isOfAnalysis_recordData (resolver : Resolver) (doc : Document) (node : Nat)
    (bindings : List Binding) :
    ∀ problem ∈ (recordData resolver doc node bindings).problems, problem.IsOfAnalysis := by
  unfold recordData
  split
  · exact isOfAnalysis_recordBoth fun _ => Document.isOfAnalysis_placement
  · simp

theorem isOfAnalysis_recordTag (resolver : Resolver) (doc : Document) (node : Nat)
    (bindings : List Binding) :
    ∀ problem ∈ (recordTag resolver doc node bindings).problems, problem.IsOfAnalysis := by
  unfold recordTag
  split
  · split
    · simp [Problem.IsOfAnalysis]
    · exact isOfAnalysis_recordBoth (by simp)
    · exact isOfAnalysis_recordBoth fun _ => Expr.isOfAnalysis_placement
  · simp

end Binding

/-! ## Compiling documents -/

namespace Compilation

/-- A compilation that has recorded its bindings one behind the other. -/
def Sound (compilation : Compilation) : Prop :=
  ∀ bindings ∈ compilation.recorded, Recorded bindings

theorem sound_start (config : Config) (resolver : Resolver) :
    Sound { config, resolver } := by
  intro bindings h
  obtain rfl := Option.some.inj h
  exact .nil

/-- Visits keep the classes and the names that the compilation works with, and what they report has
nothing to do with code generation. -/
structure Follows (compilation next : Compilation) (problems : List Problem) : Prop where
  config_eq : next.config = compilation.config
  resolver_eq : next.resolver = compilation.resolver
  sound : compilation.Sound → next.Sound
  reported : ∀ problem ∈ problems, problem.IsOfAnalysis

theorem Follows.refl (compilation : Compilation) : compilation.Follows compilation [] :=
  ⟨rfl, rfl, id, by simp⟩

theorem Follows.trans {first second third : Compilation} {problems more : List Problem}
    (h : first.Follows second problems) (h' : second.Follows third more) :
    first.Follows third (problems ++ more) := by
  refine ⟨h'.config_eq.trans h.config_eq, h'.resolver_eq.trans h.resolver_eq,
    h'.sound ∘ h.sound, fun problem hproblem => ?_⟩
  rcases List.mem_append.mp hproblem with hproblem | hproblem
  · exact h.reported problem hproblem
  · exact h'.reported problem hproblem

theorem follows_visit {compilation next : Compilation} {look : List Binding → Recording}
    {problems : List Problem}
    (hlook : ∀ bindings, Recorded bindings → Recorded (look bindings).bindings)
    (hreported : ∀ bindings, ∀ problem ∈ (look bindings).problems, problem.IsOfAnalysis)
    (h : compilation.visit look = .ok (next, problems)) : compilation.Follows next problems := by
  unfold visit at h
  cases hrecorded : compilation.recorded with
  | none => simp [hrecorded] at h
  | some bindings =>
    simp only [hrecorded, Except.ok.injEq, Prod.mk.injEq] at h
    obtain ⟨rfl, rfl⟩ := h
    refine ⟨rfl, rfl, fun hsound later hlater => ?_, hreported bindings⟩
    obtain rfl := Option.some.inj hlater
    exact hlook bindings (hsound bindings hrecorded)

theorem follows_visitNode {compilation next : Compilation} {doc : Document} {node : Nat}
    {problems : List Problem} (h : compilation.visitNode doc node = .ok (next, problems)) :
    compilation.Follows next problems := by
  unfold visitNode at h
  split at h
  · exact follows_visit (fun _ hrec => Binding.recorded_recordData hrec _ doc node)
      (Binding.isOfAnalysis_recordData _ doc node) h
  · exact follows_visit (fun _ hrec => Binding.recorded_recordTag hrec _ doc node)
      (Binding.isOfAnalysis_recordTag _ doc node) h
  · obtain ⟨rfl, rfl⟩ := Prod.mk.inj (Except.ok.inj h)
    exact .refl _

/-- Visiting some nodes is visiting the first one and then the others. -/
theorem visitNodes_cons_eq_ok {compilation next : Compilation} {doc : Document} {node : Nat}
    {nodes : List Nat} {problems : List Problem} :
    compilation.visitNodes doc (node :: nodes) = .ok (next, problems) ↔
      ∃ middle first rest, compilation.visitNode doc node = .ok (middle, first) ∧
        middle.visitNodes doc nodes = .ok (next, rest) ∧ problems = first ++ rest := by
  cases hnode : compilation.visitNode doc node with
  | error failure => simp [visitNodes, hnode, Bind.bind, Except.bind]
  | ok visited =>
    obtain ⟨middle, first⟩ := visited
    cases hnodes : middle.visitNodes doc nodes with
    | error failure =>
      simp only [visitNodes, hnode, hnodes, Bind.bind, Except.bind]
      constructor
      · simp
      · rintro ⟨_, _, rest, hfirst, hnext, -⟩
        obtain ⟨rfl, rfl⟩ := Prod.mk.inj (Except.ok.inj hfirst)
        exact absurd (hnodes.symm.trans hnext) (by simp)
    | ok visited =>
      simp only [visitNodes, hnode, hnodes, Bind.bind, Except.bind, Pure.pure, Except.pure]
      constructor
      · intro h
        obtain ⟨rfl, rfl⟩ := Prod.mk.inj (Except.ok.inj h)
        exact ⟨middle, first, visited.2, rfl, hnodes, rfl⟩
      · rintro ⟨_, _, rest, hfirst, hnext, rfl⟩
        obtain ⟨rfl, rfl⟩ := Prod.mk.inj (Except.ok.inj hfirst)
        rw [Except.ok.inj (hnodes.symm.trans hnext)]

theorem follows_visitNodes {compilation next : Compilation} {doc : Document} {nodes : List Nat}
    {problems : List Problem} (h : compilation.visitNodes doc nodes = .ok (next, problems)) :
    compilation.Follows next problems := by
  induction nodes generalizing compilation problems with
  | nil =>
    obtain ⟨rfl, rfl⟩ := Prod.mk.inj (Except.ok.inj h)
    exact .refl _
  | cons node nodes ih =>
    obtain ⟨middle, first, rest, hnode, hnodes, rfl⟩ := visitNodes_cons_eq_ok.mp h
    exact (follows_visitNode hnode).trans (ih hnodes)

/-- Code is only generated for recorded bindings, of which there is at least one, and once their
sources have been analysed. -/
theorem finish_eq_some {compilation : Compilation} {out : Emission} {code : ConstructorCode}
    (h : (compilation.finish out).1 = .ok (some code)) :
    ∃ bindings, compilation.recorded = some bindings ∧ bindings ≠ [] ∧
      ConstructorCode.ofDatabase compilation.config compilation.resolver
        (Database.ofBindings compilation.resolver bindings).1
        { out with
          problems := out.problems ++ (Database.ofBindings compilation.resolver bindings).2 } =
          (code, (compilation.finish out).2.2) := by
  unfold finish at h ⊢
  split at h
  · simp at h
  · simp at h
  · next bindings hne hrecorded =>
    cases hmissing : compilation.missingClasses with
    | cons first rest => simp [hmissing] at h
    | nil =>
      simp only [hmissing, Except.ok.injEq, Option.some.injEq] at h ⊢
      exact ⟨bindings, hrecorded, fun hnil => hne hnil, Prod.ext h rfl⟩

end Compilation

namespace Document

/-- The bindings that are recorded by visiting some nodes of a document one after the other. -/
def RecordsAfter (doc : Document) (config : Config) (resolver : Resolver) (nodes : List Nat)
    (bindings : List Binding) : Prop :=
  ∃ visited problems, Compilation.visitNodes { config, resolver } doc nodes =
    .ok (visited, problems) ∧ visited.recorded = some bindings

theorem RecordsAfter.recorded {doc : Document} {config : Config} {resolver : Resolver}
    {nodes : List Nat} {bindings : List Binding}
    (h : doc.RecordsAfter config resolver nodes bindings) : Recorded bindings := by
  obtain ⟨visited, problems, hvisit, hrecorded⟩ := h
  exact (Compilation.follows_visitNodes hvisit).sound (Compilation.sound_start config resolver)
    bindings hrecorded

/-- The bindings that are recorded by visiting every node of a document. -/
def Records (doc : Document) (config : Config) (resolver : Resolver) (bindings : List Binding) :
    Prop :=
  ∃ visited problems, Compilation.visitDocument { config, resolver } doc = .ok (visited, problems) ∧
    visited.recorded = some bindings

theorem Records.recorded {doc : Document} {config : Config} {resolver : Resolver}
    {bindings : List Binding} (h : doc.Records config resolver bindings) : Recorded bindings := by
  have hwalk : doc.RecordsAfter config resolver doc.walk bindings := h
  exact hwalk.recorded

/-- The code of a document is the constructor code for the database of its recorded bindings. What
has been reported before comes from recording the bindings and from analysing their sources. -/
theorem compile_eq_some {doc : Document} {config : Config} {resolver : Resolver}
    {out out' : Emission} {code : ConstructorCode}
    (h : doc.compile config resolver out = (.ok (some code), out')) :
    ∃ bindings recorded, doc.Records config resolver bindings ∧ bindings ≠ [] ∧
      (∀ problem ∈ recorded, problem.IsOfAnalysis) ∧
      ConstructorCode.ofDatabase config resolver (Database.ofBindings resolver bindings).1
        { out with
          problems := out.problems ++ recorded ++ (Database.ofBindings resolver bindings).2 } =
        (code, out') := by
  unfold compile at h
  cases hvisit : Compilation.visitDocument { config, resolver } doc with
  | error failure => simp [hvisit] at h
  | ok visited =>
    obtain ⟨compilation, problems⟩ := visited
    simp only [hvisit, Prod.mk.injEq] at h
    have hfollows := Compilation.follows_visitNodes hvisit
    obtain ⟨bindings, hrecorded, hne, hcode⟩ := Compilation.finish_eq_some h.1
    rw [hfollows.config_eq, hfollows.resolver_eq, h.2] at hcode
    exact ⟨bindings, problems, ⟨compilation, problems, hvisit, hrecorded⟩, hne,
      hfollows.reported, hcode⟩

end Document

end Bindery
