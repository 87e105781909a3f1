import Bindery.Proofs.Binding.Recording
import Bindery.Proofs.Destination.Chain
import Mathlib.Logic.Relation

/-!
# Visits

The nodes of a document may be visited in any order, and each of them any number of times. A visit
adds no binding, one binding, or a binding and its reverse half. This file says of each of them
what its ends are, and follows the recorded bindings along all visits.
-/

namespace Bindery

/-- A destination with at least one segment, which starts at the document, or where a chain
starts. -/
structure Destination.Placed (resolver : Resolver) (destination : Destination) : Prop where
  segments_ne_nil : destination.segments ≠ []
  start : destination.root = .document ∨
    ∃ segments, resolver.Locates segments destination.root destination.segments

/-! ## Destinations -/

theorem Destination.Placed.chain_ne_nil {resolver : Resolver} {destination : Destination}
    (h : destination.Placed resolver) : destination.chain ≠ [] := by
  simp [Destination.chain, h.segments_ne_nil]

/-- An expression names a destination where its chain starts. -/
theorem Expr.placed_of_placement {resolver : Resolver} {toText : Bool} {e : Expr}
    {destination : Destination} (h : (e.placement resolver toText).1 = .resolved destination) :
    destination.Placed resolver := by
  obtain ⟨segments, -, hlocates, -, -⟩ := placement_eq_resolved_iff.mp h
  exact ⟨hlocates.ne_nil, .inr ⟨segments, hlocates⟩⟩

namespace Document

/-- A path inside a model starts with the id of the model. -/
theorem ne_nil_of_modelPath {doc : Document} {fuel : Nat} {id : Option Nat}
    {segments found : List Segment} (h : doc.modelPath fuel id segments = .inside found) :
    found ≠ [] := by
  fun_induction modelPath doc fuel id segments with
  | case1 | case2 | case6 | case7 => simp at h
  | case3 _ _ _ _ _ _ ih | case4 _ _ _ _ ih => exact ih h
  | case5 =>
    rw [← ModelPath.inside.inj h]
    exact List.cons_ne_nil _ _

theorem ne_nil_of_propertySegments? {doc : Document} {property : Nat} {name : String}
    {segments : List Segment} (h : doc.propertySegments? property name = some segments) :
    segments ≠ [] := by
  obtain ⟨owner, -, h⟩ := Option.bind_eq_some_iff.mp h
  split at h
  · obtain rfl := Option.some.inj h
    exact List.cons_ne_nil _ _
  · obtain ⟨id, -, h⟩ := Option.bind_eq_some_iff.mp h
    obtain rfl := Option.some.inj h
    exact List.cons_ne_nil _ _
  · simp at h

/-- A destination that follows from a place starts at the document. -/
theorem root_and_segments_of_placement {doc : Document} {node : Nat} {destination : Destination}
    (h : (doc.placement node).1 = .resolved destination) :
    destination.root = .document ∧ destination.segments ≠ [] := by
  unfold placement at h
  repeat' split at h
  all_goals first
    | cases h; exact ⟨rfl, ne_nil_of_modelPath (by assumption)⟩
    | cases h; exact ⟨rfl, ne_nil_of_propertySegments? (by assumption)⟩
    | simp at h

theorem placed_of_placement {doc : Document} {resolver : Resolver} {node : Nat}
    {destination : Destination} (h : (doc.placement node).1 = .resolved destination) :
    destination.Placed resolver :=
  ⟨(root_and_segments_of_placement h).2, .inl (root_and_segments_of_placement h).1⟩

end Document

/-! ## One visit -/

namespace Binding

variable {resolver : Resolver} {bindings : List Binding}

/-- What one visit does to the bindings that are there. -/
inductive Adds (resolver : Resolver) (bindings : List Binding) : List Binding → Prop
  | nothing : Adds resolver bindings bindings
  | one (source : Option Expr) {destination : Option Destination} (span : Span) :
    (∀ d ∈ destination, d.Placed resolver) →
    Adds resolver bindings (record resolver source destination span bindings)
  /-- The source of a binding as a destination, and its destination as a source, make up the other
  half. -/
  | both {source : Expr} {destination back : Destination} (span : Span) :
    destination.Placed resolver → (source.placement resolver false).1 = .resolved back →
    Adds resolver bindings (record resolver (some destination.toSource) (some back) span
      (record resolver (some source) (some destination) span bindings))

/-- A reverse half exists only for a source that names a destination. -/
theorem reverse_eq_ok {source : Option Expr} {destination : Option Destination} {span : Span}
    {back : Expr} {target : Destination}
    (h : reverse resolver source destination span = .ok (back, target)) :
    ∃ e d, source = some e ∧ destination = some d ∧ back = d.toSource ∧
      (e.placement resolver false).1 = .resolved target := by
  unfold reverse at h
  split at h
  · next e d =>
    split at h
    · next target' hplaced =>
      obtain ⟨rfl, rfl⟩ := Prod.mk.inj (Except.ok.inj h)
      exact ⟨e, d, rfl, rfl, rfl, hplaced⟩
    all_goals simp at h
  · simp at h

theorem adds_recordBoth {placement : Placement}
    (hplaced : ∀ d, placement = .resolved d → d.Placed resolver) (source : Option Expr)
    (reported : List Problem) (twoWay : Bool) (span : Span) :
    Adds resolver bindings
      (recordBoth resolver source placement reported twoWay span bindings).bindings := by
  have hone (destination : Option Destination) (hd : ∀ d ∈ destination, d.Placed resolver) :
      Adds resolver bindings (record resolver source destination span bindings) :=
    .one source span hd
  unfold recordBoth
  cases placement with
  | refused => exact .nothing
  | nowhere =>
    cases twoWay with
    | false => exact hone none (by simp)
    | true =>
      simp only [if_true]
      split
      · next hreverse =>
        obtain ⟨_, _, -, hnone, -⟩ := reverse_eq_ok hreverse
        simp at hnone
      · exact hone none (by simp)
  | resolved destination =>
    have hdestination := hplaced destination rfl
    cases twoWay with
    | false => exact hone (some destination) (by simpa using hdestination)
    | true =>
      simp only [if_true]
      split
      · next hreverse =>
        obtain ⟨e, d, rfl, hd, rfl, hback⟩ := reverse_eq_ok hreverse
        obtain rfl := Option.some.inj hd
        exact .both span hdestination hback
      · exact hone (some destination) (by simpa using hdestination)

theorem adds_recordData (doc : Document) (node : Nat) :
    Adds resolver bindings (recordData resolver doc node bindings).bindings := by
  unfold recordData
  split
  · exact adds_recordBoth (fun _ => Document.placed_of_placement) ..
  · exact .nothing

theorem adds_recordTag (doc : Document) (node : Nat) :
    Adds resolver bindings (recordTag resolver doc node bindings).bindings := by
  unfold recordTag
  split
  · split
    · exact .nothing
    · exact adds_recordBoth (by simp) ..
    · exact adds_recordBoth (fun _ => Expr.placed_of_placement) ..
  · exact .nothing

end Binding

/-! ## Many visits -/

/-- What visits one after the other do to the bindings that are there. -/
abbrev Binding.Grows (resolver : Resolver) : List Binding → List Binding → Prop :=
  Relation.ReflTransGen (Binding.Adds resolver)

namespace Compilation

variable {compilation next : Compilation} {doc : Document} {problems : List Problem}
  {bindings : List Binding}

theorem adds_visit {look : List Binding → Recording}
    (hlook : Binding.Adds compilation.resolver bindings (look bindings).bindings)
    (hrecorded : compilation.recorded = some bindings)
    (h : compilation.visit look = .ok (next, problems)) :
    ∃ later, next.recorded = some later ∧ Binding.Adds compilation.resolver bindings later := by
  unfold visit at h
  simp only [hrecorded, Except.ok.injEq, Prod.mk.injEq] at h
  obtain ⟨rfl, rfl⟩ := h
  exact ⟨_, rfl, hlook⟩

theorem adds_visitNode {node : Nat} (hrecorded : compilation.recorded = some bindings)
    (h : compilation.visitNode doc node = .ok (next, problems)) :
    ∃ later, next.recorded = some later ∧ Binding.Adds compilation.resolver bindings later := by
  unfold visitNode at h
  split at h
  · exact adds_visit (Binding.adds_recordData doc node) hrecorded h
  · exact adds_visit (Binding.adds_recordTag doc node) hrecorded h
  · obtain ⟨rfl, rfl⟩ := Prod.mk.inj (Except.ok.inj h)
    exact ⟨bindings, hrecorded, .nothing⟩

/-- Nodes are visited piece by piece. -/
theorem exists_of_visitNodes_append {first second : List Nat}
    (h : compilation.visitNodes doc (first ++ second) = .ok (next, problems)) :
    ∃ middle before after, compilation.visitNodes doc first = .ok (middle, before) ∧
      middle.visitNodes doc second = .ok (next, after) := by
  induction first generalizing compilation problems with
  | nil => exact ⟨compilation, [], problems, rfl, h⟩
  | cons node first ih =>
    obtain ⟨visited, before, rest, hnode, hnodes, rfl⟩ := visitNodes_cons_eq_ok.mp h
    obtain ⟨middle, more, after, hfirst, hsecond⟩ := ih hnodes
    exact ⟨middle, before ++ more, after,
      visitNodes_cons_eq_ok.mpr ⟨visited, before, more, hnode, hfirst, rfl⟩, hsecond⟩

theorem grows_visitNodes {nodes : List Nat} (hrecorded : compilation.recorded = some bindings)
    (h : compilation.visitNodes doc nodes = .ok (next, problems)) :
    ∃ later, next.recorded = some later ∧
      Binding.Grows compilation.resolver bindings later := by
  induction nodes generalizing compilation bindings problems with
  | nil =>
    obtain ⟨rfl, rfl⟩ := Prod.mk.inj (Except.ok.inj h)
    exact ⟨bindings, hrecorded, .refl⟩
  | cons node nodes ih =>
    obtain ⟨middle, first, rest, hnode, hnodes, rfl⟩ := visitNodes_cons_eq_ok.mp h
    obtain ⟨between, hbetween, hadds⟩ := adds_visitNode hrecorded hnode
    obtain ⟨later, hlater, hgrows⟩ := ih hbetween hnodes
    rw [(follows_visitNode hnode).resolver_eq] at hgrows
    exact ⟨later, hlater, .head hadds hgrows⟩

end Compilation

namespace Binding

variable {resolver : Resolver} {bindings later : List Binding}

/-- Bindings are added behind those that are there. -/
theorem Adds.isPrefix (h : Adds resolver bindings later) : bindings <+: later := by
  cases h with
  | nothing => exact List.prefix_refl _
  | one source span _ => exact List.prefix_append _ _
  | both span _ _ => exact (List.prefix_append _ _).trans (List.prefix_append _ _)

theorem Grows.isPrefix (h : Grows resolver bindings later) : bindings <+: later := by
  induction h with
  | refl => exact List.prefix_refl _
  | tail _ hadds ih => exact ih.trans hadds.isPrefix

/-- A visit that adds two bindings adds a binding and its reverse half. -/
theorem Adds.exists_halves {forward back : Binding}
    (h : Adds resolver bindings (bindings ++ [forward, back])) :
    ∃ source destination target, forward.source = some source ∧
      forward.destination = some destination ∧ destination.Placed resolver ∧
      (source.placement resolver false).1 = .resolved target ∧
      back.source = some destination.toSource ∧ back.destination = some target := by
  generalize hlater : bindings ++ [forward, back] = later at h
  cases h with
  | nothing => simpa using congrArg List.length hlater
  | one => simpa [record] using congrArg List.length hlater
  | both span hplaced hback =>
    rw [record, record, List.append_assoc] at hlater
    obtain ⟨rfl, hrest⟩ := List.cons.inj (List.append_cancel_left hlater)
    obtain ⟨rfl, -⟩ := List.cons.inj hrest
    exact ⟨_, _, _, rfl, rfl, hplaced, hback, rfl, rfl⟩

/-- All destinations are placed. -/
def AllPlaced (resolver : Resolver) (bindings : List Binding) : Prop :=
  ∀ binding ∈ bindings, ∀ destination ∈ binding.destination, destination.Placed resolver

theorem AllPlaced.record (h : AllPlaced resolver bindings) (source : Option Expr)
    {destination : Option Destination} (hd : ∀ d ∈ destination, d.Placed resolver) (span : Span) :
    AllPlaced resolver (record resolver source destination span bindings) := by
  intro binding hmem
  rcases List.mem_append.mp hmem with hmem | hmem
  · exact h binding hmem
  · rw [List.mem_singleton.mp hmem]
    exact hd

theorem Adds.allPlaced (h : Adds resolver bindings later) (hplaced : AllPlaced resolver bindings) :
    AllPlaced resolver later := by
  cases h with
  | nothing => exact hplaced
  | one source span hd => exact hplaced.record source hd span
  | both span hd hback =>
    exact (hplaced.record _ (by simpa using hd) span).record _
      (by simpa using Expr.placed_of_placement hback) span

theorem Grows.allPlaced (h : Grows resolver bindings later)
    (hplaced : AllPlaced resolver bindings) : AllPlaced resolver later := by
  induction h with
  | refl => exact hplaced
  | tail _ hadds ih => exact hadds.allPlaced ih

end Binding

namespace Document

variable {doc : Document} {config : Config} {resolver : Resolver} {before after : List Nat}
  {earlier later : List Binding}

theorem RecordsAfter.allPlaced (h : doc.RecordsAfter config resolver before earlier) :
    Binding.AllPlaced resolver earlier := by
  obtain ⟨visited, problems, hvisit, hrecorded⟩ := h
  obtain ⟨found, hfound, hgrows⟩ := Compilation.grows_visitNodes rfl hvisit
  obtain rfl := Option.some.inj (hfound.symm.trans hrecorded)
  exact hgrows.allPlaced (by simp [Binding.AllPlaced])

/-- Further visits continue from where the earlier ones have led. -/
theorem RecordsAfter.exists_visited (h : doc.RecordsAfter config resolver before earlier)
    (h' : doc.RecordsAfter config resolver (before ++ after) later) :
    ∃ (middle last : Compilation) (problems : List Problem), middle.resolver = resolver ∧
      middle.recorded = some earlier ∧ middle.visitNodes doc after = .ok (last, problems) ∧
      last.recorded = some later := by
  obtain ⟨visited, reported, hvisit, hrecorded⟩ := h
  obtain ⟨last, problems, hlast, hlater⟩ := h'
  obtain ⟨middle, first, rest, hfirst, hrest⟩ := Compilation.exists_of_visitNodes_append hlast
  obtain ⟨rfl, rfl⟩ := Prod.mk.inj (Except.ok.inj (hvisit.symm.trans hfirst))
  have hfollows := Compilation.follows_visitNodes hvisit
  exact ⟨visited, last, rest, hfollows.resolver_eq, hrecorded, hrest, hlater⟩

theorem RecordsAfter.grows (h : doc.RecordsAfter config resolver before earlier)
    (h' : doc.RecordsAfter config resolver (before ++ after) later) :
    Binding.Grows resolver earlier later := by
  obtain ⟨middle, last, problems, rfl, hrecorded, hvisit, hlater⟩ := h.exists_visited h'
  obtain ⟨found, hfound, hgrows⟩ := Compilation.grows_visitNodes hrecorded hvisit
  rwa [← Option.some.inj (hfound.symm.trans hlater)]

theorem RecordsAfter.adds {node : Nat} (h : doc.RecordsAfter config resolver before earlier)
    (h' : doc.RecordsAfter config resolver (before ++ [node]) later) :
    Binding.Adds resolver earlier later := by
  obtain ⟨middle, last, problems, rfl, hrecorded, hvisit, hlater⟩ := h.exists_visited h'
  obtain ⟨visited, first, rest, hnode, hnil, rfl⟩ := Compilation.visitNodes_cons_eq_ok.mp hvisit
  obtain ⟨rfl, rfl⟩ := Prod.mk.inj (Except.ok.inj hnil)
  obtain ⟨found, hfound, hadds⟩ := Compilation.adds_visitNode hrecorded hnode
  rwa [← Option.some.inj (hfound.symm.trans hlater)]

end Document

end Bindery
