import Bindery.Proofs.Binding.Visits

/-!
# Recording is atomic

Nodes may be looked at in any order, as embedded expressions or as tags, and not only those of one
document. Whatever a look finds, it either records what the node stands for in the next slots or
leaves everything as it is and reports one error.
-/

namespace Bindery

/-! ## Looks -/

/-- What a node is taken for. -/
inductive Handler where
  | data
  | tag
deriving Repr, DecidableEq

/-- A look at a node of a document, whose names mean what a resolver says. -/
structure Look where
  handler : Handler
  resolver : Resolver
  doc : Document
  node : Nat

/-- What a node says about its binding. -/
structure Ends where
  source : Option Expr
  /-- The destination, if it is given and does not follow from the place of the node. -/
  explicit : Option Expr
  twoWay : Bool

namespace Look

/-- What a look at a node adds to the bindings that are there. -/
def recording (look : Look) (bindings : List Binding) : Recording :=
  match look.handler with
  | .data => Binding.recordData look.resolver look.doc look.node bindings
  | .tag => Binding.recordTag look.resolver look.doc look.node bindings

/-- What the node says, if it is of the kind for which it is taken. -/
def ends? (look : Look) : Option Ends :=
  match look.handler, look.doc.kind? look.node with
  | .data, some (.data expr twoWay) => some ⟨some expr, none, twoWay⟩
  | .tag, some (.binding source destination twoWay) => some ⟨source, destination, twoWay⟩
  | _, _ => none

/-- The bindings after some looks, from the first one on. -/
def recorded (looks : List Look) : List Binding :=
  looks.foldl (fun bindings look => (look.recording bindings).bindings) []

end Look

/-! ## Outcomes -/

/-- The number of diagnostics of a kind. -/
def Recording.count (recording : Recording) (kind : ProblemKind) : Nat :=
  recording.problems.countP (·.kind = kind)

/-- A binding carries what the destination of another one holds back to where its source comes
from. -/
def Binding.IsReverseOf (resolver : Resolver) (back forward : Binding) : Prop :=
  ∃ source destination target, forward.source = some source ∧
    forward.destination = some destination ∧
    (source.placement resolver false).1 = .resolved target ∧
    back.source = some destination.toSource ∧ back.destination = some target

/-- What a look at a node that has the kind for which it is taken may do. -/
structure Recording.Outcome (recording : Recording) (bindings : List Binding) (resolver : Resolver)
    (source : Option Expr) (twoWay : Bool) (span : Span) : Prop where
  /-- What was there stays as it was. -/
  kept : bindings <+: recording.bindings
  /-- Nothing is recorded without an error. -/
  rejected : recording.slot = none → recording.bindings = bindings ∧
    ∃ problem, recording.problems = [problem] ∧ problem.level = .error
  /-- The binding is recorded in the next slot, and if it is two-way then its reverse half behind
  it, unless it is reported that there is none. -/
  recorded : ∀ slot, recording.slot = some slot → slot = bindings.length ∧
    ∃ forward : Binding, forward.slot = slot ∧ forward.source = source ∧ forward.span = span ∧
      (twoWay = false → recording.bindings = bindings ++ [forward] ∧
        recording.count .invalidTwoWayBinding = 0) ∧
      (twoWay = true →
        (∃ back : Binding, recording.bindings = bindings ++ [forward, back] ∧
          back.slot = slot + 1 ∧ back.IsReverseOf resolver forward ∧
          recording.count .invalidTwoWayBinding = 0) ∨
        (recording.bindings = bindings ++ [forward] ∧
          recording.count .invalidTwoWayBinding = 1))

/-- A look at a node either passes it over or has one of the outcomes above. -/
structure Look.Atomic (look : Look) (bindings : List Binding) : Prop where
  passed : look.ends? = none → look.recording bindings = ⟨none, bindings, []⟩
  outcome : ∀ ends, look.ends? = some ends → (look.recording bindings).Outcome bindings
    look.resolver ends.source ends.twoWay (look.doc.span look.node)
  /-- A chain that starts nowhere leaves the binding without a destination. -/
  unresolved : ∀ ends destination segments, look.ends? = some ends →
    ends.explicit = some destination → destination.segments? = some segments →
    look.resolver.locate? segments = none →
    ∃ forward : Binding, (look.recording bindings).slot = some bindings.length ∧
      (look.recording bindings).bindings = bindings ++ [forward] ∧
      forward.source = ends.source ∧ forward.destination = none ∧
      (look.recording bindings).count .unresolvedDestination = 1

/-! ## Places of destinations -/

/-- The destination of a binding that stands. -/
def Placement.destination? : Placement → Option Destination
  | resolved destination => some destination
  | nowhere | refused => none

/-- What is reported about a place: one error if the binding is refused, and in no case that a
two-way binding has no reverse half. -/
structure Placement.Reports (placement : Placement) (reported : List Problem) : Prop where
  refused : placement = .refused → ∃ problem, reported = [problem] ∧ problem.level = .error
  notTwoWay : reported.countP (·.kind = .invalidTwoWayBinding) = 0

theorem Placement.reports_nil {placement : Placement} (h : placement ≠ .refused) :
    placement.Reports [] := ⟨fun hrefused => absurd hrefused h, rfl⟩

theorem Placement.reports_singleton (placement : Placement) {problem : Problem}
    (hlevel : problem.level = .error) (hkind : problem.kind ≠ .invalidTwoWayBinding) :
    placement.Reports [problem] :=
  ⟨fun _ => ⟨problem, rfl, hlevel⟩, by simpa using hkind⟩

theorem Document.reports_placement {doc : Document} {node : Nat} {expr : Expr} {twoWay : Bool}
    (h : doc.kind? node = some (.data expr twoWay)) :
    (doc.placement node).1.Reports (doc.placement node).2 := by
  have hmalformed (placement : Placement) (message : String) :
      placement.Reports [malformed (doc.span node) message] :=
    placement.reports_singleton rfl nofun
  simp only [placement, h]
  split
  · exact hmalformed ..
  · split
    · split
      · exact Placement.reports_nil nofun
      · exact Placement.reports_nil nofun
      · exact hmalformed ..
      · exact hmalformed ..
      · exact hmalformed ..
    · exact hmalformed ..
    · exact hmalformed ..
    · split <;> exact Placement.reports_nil nofun
    · exact Placement.reports_nil nofun

theorem Expr.reports_placement (resolver : Resolver) (toText : Bool) (expr : Expr) :
    (expr.placement resolver toText).1.Reports (expr.placement resolver toText).2 := by
  unfold placement
  split
  · exact Placement.reports_singleton _ rfl nofun
  · split
    · exact Placement.reports_nil nofun
    · exact Placement.reports_singleton _ rfl nofun

/-! ## One look -/

namespace Binding

variable (resolver : Resolver) (source : Option Expr) (span : Span) (bindings : List Binding)

variable {resolver source span} in
/-- What is missing for a reverse half is reported as such. -/
theorem kind_of_reverse_eq_error {destination : Option Destination} {problem : Problem}
    (h : reverse resolver source destination span = .error problem) :
    problem.kind = .invalidTwoWayBinding := by
  unfold reverse at h
  split at h
  · split at h
    · simp at h
    all_goals
      rw [← Except.error.inj h]
      rfl
  · rw [← Except.error.inj h]
    rfl

/-- The binding of a node, in the slot behind those that are there. -/
def next (placement : Placement) : Binding where
  slot := bindings.length
  source := source
  destination := placement.destination?
  isSimple := source.any (·.isSimpleProperty resolver)
  span := span

section Recording

variable {placement : Placement} (hkept : placement ≠ .refused) (reported : List Problem)
include hkept

/-- A one-way binding is recorded by itself. -/
theorem recordBoth_oneWay :
    recordBoth resolver source placement reported false span bindings =
      ⟨some bindings.length, bindings ++ [next resolver source span bindings placement],
        reported⟩ := by
  cases placement with
  | refused => exact absurd rfl hkept
  | resolved | nowhere => rfl

variable {resolver source span}

/-- A two-way binding that has a reverse half is recorded with this behind it. -/
theorem recordBoth_of_reverse_eq_ok {back : Expr} {target : Destination}
    (h : reverse resolver source placement.destination? span = .ok (back, target)) :
    recordBoth resolver source placement reported true span bindings =
      ⟨some bindings.length,
        record resolver (some back) (some target) span
          (bindings ++ [next resolver source span bindings placement]),
        reported⟩ := by
  cases placement with
  | refused => exact absurd rfl hkept
  | resolved | nowhere =>
    dsimp only [Placement.destination?] at h
    simp only [recordBoth, h, if_true]
    rfl

/-- A two-way binding that has none is recorded by itself, with a diagnostic. -/
theorem recordBoth_of_reverse_eq_error {problem : Problem}
    (h : reverse resolver source placement.destination? span = .error problem) :
    recordBoth resolver source placement reported true span bindings =
      ⟨some bindings.length, bindings ++ [next resolver source span bindings placement],
        reported ++ [problem]⟩ := by
  cases placement with
  | refused => exact absurd rfl hkept
  | resolved | nowhere =>
    dsimp only [Placement.destination?] at h
    simp only [recordBoth, h, if_true]
    rfl

end Recording

/-- A binding that stands is recorded by itself, or with its reverse half, or with a diagnostic that
there is none. -/
theorem recordBoth_cases {placement : Placement} (hkept : placement ≠ .refused)
    (reported : List Problem) (twoWay : Bool) :
    let forward := next resolver source span bindings placement
    let recording := recordBoth resolver source placement reported twoWay span bindings
    recording.slot = some bindings.length ∧
      ((twoWay = false ∧ recording.bindings = bindings ++ [forward] ∧
          recording.problems = reported) ∨
        (twoWay = true ∧ ∃ back : Binding, recording.bindings = bindings ++ [forward, back] ∧
          back.slot = bindings.length + 1 ∧ back.IsReverseOf resolver forward ∧
          recording.problems = reported) ∨
        (twoWay = true ∧ recording.bindings = bindings ++ [forward] ∧
          ∃ problem, recording.problems = reported ++ [problem] ∧
            problem.kind = .invalidTwoWayBinding)) := by
  dsimp only
  cases twoWay with
  | false =>
    rw [recordBoth_oneWay _ _ _ _ hkept]
    exact ⟨rfl, .inl ⟨rfl, rfl, rfl⟩⟩
  | true =>
    cases hreverse : reverse resolver source placement.destination? span with
    | error problem =>
      rw [recordBoth_of_reverse_eq_error _ hkept _ hreverse]
      exact ⟨rfl, .inr (.inr ⟨rfl, rfl, problem, rfl, kind_of_reverse_eq_error hreverse⟩)⟩
    | ok halves =>
      obtain ⟨back, target⟩ := halves
      rw [recordBoth_of_reverse_eq_ok _ hkept _ hreverse]
      obtain ⟨e, d, hsource, hdestination, rfl, hback⟩ := reverse_eq_ok hreverse
      refine ⟨rfl, .inr (.inl ⟨rfl, _, List.append_assoc _ _ _, ?_,
        ⟨e, d, target, hsource, hdestination, hback, rfl, rfl⟩, rfl⟩)⟩
      simp

theorem outcome_recordBoth {placement : Placement} {reported : List Problem}
    (h : placement.Reports reported) (twoWay : Bool) :
    (recordBoth resolver source placement reported twoWay span bindings).Outcome bindings resolver
      source twoWay span := by
  by_cases hkept : placement = .refused
  · subst hkept
    exact {
      kept := List.prefix_refl _
      rejected := fun _ => ⟨rfl, h.refused rfl⟩
      recorded := nofun }
  · obtain ⟨hslot, hcases⟩ :=
      recordBoth_cases resolver source span bindings hkept reported twoWay
    refine {
      kept := ?_
      rejected := fun hnone => by simp [hslot] at hnone
      recorded := fun slot hsome => ?_ }
    · rcases hcases with ⟨-, heq, -⟩ | ⟨-, back, heq, -⟩ | ⟨-, heq, -⟩ <;>
        exact heq ▸ List.prefix_append _ _
    · obtain rfl := Option.some.inj (hslot.symm.trans hsome)
      refine ⟨rfl, next resolver source span bindings placement, rfl, rfl, rfl, ?_, ?_⟩
      · rintro rfl
        rcases hcases with ⟨-, heq, hproblems⟩ | ⟨htwo, -⟩ | ⟨htwo, -⟩
        · exact ⟨heq, by rw [Recording.count, hproblems, h.notTwoWay]⟩
        · simp at htwo
        · simp at htwo
      · rintro rfl
        rcases hcases with ⟨hone, -⟩ | ⟨-, back, heq, hback, hreverse, hproblems⟩ |
          ⟨-, heq, problem, hproblems, hkind⟩
        · simp at hone
        · exact .inl ⟨back, heq, hback, hreverse, by rw [Recording.count, hproblems, h.notTwoWay]⟩
        · refine .inr ⟨heq, ?_⟩
          rw [Recording.count, hproblems, List.countP_append, h.notTwoWay, List.countP_singleton]
          simp [hkind]

/-- Where a destination starts nowhere, the binding stands alone, two-way or not. -/
theorem unresolved_recordBoth {problem : Problem} (hkind : problem.kind = .unresolvedDestination)
    (twoWay : Bool) :
    let recording := recordBoth resolver source .nowhere [problem] twoWay span bindings
    ∃ forward : Binding, recording.slot = some bindings.length ∧
      recording.bindings = bindings ++ [forward] ∧ forward.source = source ∧
      forward.destination = none ∧ recording.count .unresolvedDestination = 1 := by
  have hkept : Placement.nowhere ≠ .refused := nofun
  obtain ⟨hslot, hcases⟩ :=
    recordBoth_cases resolver source span bindings hkept [problem] twoWay
  rcases hcases with ⟨-, heq, hproblems⟩ | ⟨-, back, -, -, hreverse, -⟩ |
    ⟨-, heq, other, hproblems, hother⟩
  · exact ⟨_, hslot, heq, rfl, rfl, by simp [Recording.count, hproblems, hkind]⟩
  · obtain ⟨e, d, target, -, hnone, -⟩ := hreverse
    simp [next, Placement.destination?] at hnone
  · exact ⟨_, hslot, heq, rfl, rfl, by simp [Recording.count, hproblems, hkind, hother]⟩

end Binding

namespace Look

/-- A look at an embedded expression, whose destination follows from its place. -/
theorem atomic_data (resolver : Resolver) (doc : Document) (node : Nat) (bindings : List Binding) :
    Atomic ⟨.data, resolver, doc, node⟩ bindings := by
  have hexplicit (ends : Ends) (h : ends? ⟨.data, resolver, doc, node⟩ = some ends) :
      ∃ expr twoWay, doc.kind? node = some (.data expr twoWay) ∧
        ends = ⟨some expr, none, twoWay⟩ := by
    simp only [ends?] at h
    split at h
    · next expr twoWay _ hkind => exact ⟨expr, twoWay, hkind, (Option.some.inj h).symm⟩
    · next hhandler _ => simp at hhandler
    · simp at h
  refine {
    passed := fun hnone => ?_
    outcome := fun ends hends => ?_
    unresolved := fun ends destination segments hends hdestination => ?_ }
  · simp only [recording, Binding.recordData]
    split
    · next expr twoWay hkind => simp [ends?, hkind] at hnone
    · rfl
  · obtain ⟨expr, twoWay, hkind, rfl⟩ := hexplicit ends hends
    have houtcome := Binding.outcome_recordBoth resolver (some expr) (doc.span node) bindings
      (Document.reports_placement hkind) twoWay
    simpa only [recording, Binding.recordData, hkind] using houtcome
  · obtain ⟨expr, twoWay, -, rfl⟩ := hexplicit ends hends
    simp at hdestination

/-- A look at a tag. -/
theorem atomic_tag (resolver : Resolver) (doc : Document) (node : Nat) (bindings : List Binding) :
    Atomic ⟨.tag, resolver, doc, node⟩ bindings := by
  have hends? (ends : Ends) (h : ends? ⟨.tag, resolver, doc, node⟩ = some ends) :
      doc.kind? node = some (.binding ends.source ends.explicit ends.twoWay) := by
    simp only [ends?] at h
    split at h
    · next hhandler _ => simp at hhandler
    · next hkind => rw [hkind, ← Option.some.inj h]
    · simp at h
  refine {
    passed := fun hnone => ?_
    outcome := fun ends hends => ?_
    unresolved := fun ends destination segments hends hdestination hsegments hlocate => ?_ }
  · simp only [recording, Binding.recordTag]
    split
    · next hkind => simp [ends?, hkind] at hnone
    · rfl
  · have hkind := hends? ends hends
    obtain ⟨source, destination, twoWay⟩ := ends
    simp only [recording, Binding.recordTag, hkind]
    split
    · exact {
        kept := List.prefix_refl _
        rejected := fun _ => ⟨rfl, _, rfl, rfl⟩
        recorded := nofun }
    · have hnowhere : Placement.nowhere.Reports [] := Placement.reports_nil nofun
      exact Binding.outcome_recordBoth _ _ _ _ hnowhere _
    · exact Binding.outcome_recordBoth _ _ _ _ (Expr.reports_placement ..) _
  · have hkind := hends? ends hends
    obtain ⟨source, explicit, twoWay⟩ := ends
    obtain rfl : explicit = some destination := hdestination
    have hplacement (toText : Bool) : destination.placement resolver toText = (.nowhere, [{
        kind := .unresolvedDestination
        span := destination.span
        message := "binding destination `" ++ destination.text ++ "` cannot be resolved" }]) := by
      simp only [Expr.placement, hsegments, hlocate]
    simp only [recording, Binding.recordTag, hkind, hplacement]
    exact Binding.unresolved_recordBoth resolver source (doc.span node) bindings rfl twoWay

theorem atomic (look : Look) (bindings : List Binding) : look.Atomic bindings := by
  obtain ⟨handler, resolver, doc, node⟩ := look
  cases handler with
  | data => exact atomic_data resolver doc node bindings
  | tag => exact atomic_tag resolver doc node bindings

/-! ## Many looks -/

/-- Whatever is looked at, slots are given out in order. -/
theorem recorded_recorded (looks : List Look) : Recorded (recorded looks) := by
  refine List.foldlRecOn looks _ .nil fun bindings hrecorded look _ => ?_
  obtain ⟨handler, resolver, doc, node⟩ := look
  cases handler with
  | data => exact Binding.recorded_recordData hrecorded resolver doc node
  | tag => exact Binding.recorded_recordTag hrecorded resolver doc node

theorem Atomic.isPrefix {look : Look} {bindings : List Binding} (h : look.Atomic bindings) :
    bindings <+: (look.recording bindings).bindings := by
  cases hends : look.ends? with
  | none => simp only [h.passed hends, List.prefix_refl]
  | some ends => exact (h.outcome ends hends).kept

/-- Further looks leave what has been recorded as it is. -/
theorem recorded_isPrefix (looks more : List Look) :
    recorded looks <+: recorded (looks ++ more) := by
  rw [recorded, recorded, List.foldl_append]
  exact List.foldlRecOn more _ (List.prefix_refl _) fun bindings hprefix look _ =>
    hprefix.trans (look.atomic bindings).isPrefix

/-- **Recording is atomic and slots are contiguous.** After any looks at nodes, each binding stands
at its slot, and stays there as it is, whatever is looked at next. A look at a node of another kind
does nothing and reports nothing. Any other look either records nothing and reports one error, or it
records the binding of the node in the next slot, and behind it the reverse half of a two-way
binding, unless it is reported that this has none. A given destination that starts nowhere is
reported, and the binding recorded without it. -/
theorem recording_atomic (looks : List Look) :
    (∀ (i : Nat) (binding : Binding), (recorded looks)[i]? = some binding → binding.slot = i) ∧
      (∀ more, recorded looks <+: recorded (looks ++ more)) ∧
      ∀ look : Look, look.Atomic (recorded looks) :=
  ⟨fun _ _ hi => (recorded_recorded looks).slot_of_getElem? hi, recorded_isPrefix looks,
    fun look => look.atomic (recorded looks)⟩

end Look

end Bindery
