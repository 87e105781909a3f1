import Bindery.Proofs.Destination.Position
import Bindery.Proofs.Links
import Mathlib.Order.Interval.Finset.Nat

/-!
# Ways up

From a node the way goes up to its parent, to the parent of that, and so on. A node may name any
number as its parent, also its own and that of a node that is added later. So a way up ends, after
no more steps than there are nodes, or it comes back to a node on it and never ends. The walk from
an embedded expression up to the model around it never ends exactly if nothing but parts of models
comes on the way, again and again. Otherwise it gives a destination or a problem.
-/

namespace Bindery

namespace Document

open Link

/-- The way up ends, after no more steps than there are nodes, at a number that is no node or at a
node without a parent. A list of the numbers on it that may be longer is the same list. -/
structure WayUpEnds (doc : Document) (id : Nat) : Prop where
  endsAfter : ∃ steps ≤ doc.size, EndsAfter doc.parent? id steps
  ancestors_eq : ∀ limit, doc.size ≤ limit → doc.ancestors limit id = doc.ancestors doc.size id

/-- The way up has no end, and nothing but parts of models comes on it. -/
def OnlyModelParts (doc : Document) (node : Nat) : Prop :=
  ∀ steps, ∃ part, follow doc.parent? (steps + 1) node = some part ∧ doc.IsModelPart part

/-- The walk up to the model around an embedded expression ends, and there is a destination or a
problem. -/
structure ModelWalkEnds (doc : Document) (node : Nat) : Prop where
  ends : ∃ fuel, doc.modelPath fuel (doc.parent? node) [] ≠ .circular
  placed_or_refused : (∃ destination, doc.placement node = (.resolved destination, [])) ∨
    doc.Refused node

variable {doc : Document} {className : String} {id node : Nat}

/-! ## Lists of ancestors -/

theorem mem_range_of_parent?_isSome (doc : Document) (id : Nat) (h : (doc.parent? id).isSome) :
    id ∈ Finset.range doc.size :=
  Finset.mem_range.mpr (lt_size_of_parent? h)

/-- The ancestors are met on the way up. -/
theorem getElem?_ancestors (doc : Document) (limit id place : Nat) :
    (doc.ancestors limit id)[place]? =
      if place < limit then follow doc.parent? (place + 1) id else none := by
  induction limit generalizing id place with
  | zero => simp [ancestors]
  | succ limit ih =>
    rw [ancestors, follow]
    cases hparent : doc.parent? id with
    | none => simp
    | some parent =>
      cases place with
      | zero => simp [follow]
      | succ place => simpa using ih parent place

/-- A list of ancestors that goes up to the end is complete. -/
theorem ancestors_eq_of_endsAfter {steps limit more : Nat} (h : EndsAfter doc.parent? id steps)
    (hlimit : steps ≤ limit) (hmore : steps ≤ more) :
    doc.ancestors limit id = doc.ancestors more id := by
  apply List.ext_getElem?
  intro place
  rw [getElem?_ancestors, getElem?_ancestors]
  by_cases hplace : place < steps
  · rw [if_pos (by omega), if_pos (by omega)]
  · rw [h.follow_eq_none (by omega : steps < place + 1)]
    simp

/-- Of a way up that comes back, every list is full. -/
theorem length_ancestors_of_returns (h : Returns doc.parent? id) (limit : Nat) :
    (doc.ancestors limit id).length = limit := by
  apply Nat.le_antisymm (doc.length_ancestors_le limit id)
  by_contra hlt
  have hnone : (doc.ancestors limit id)[(doc.ancestors limit id).length]? = none := by simp
  rw [getElem?_ancestors, if_pos (by omega)] at hnone
  have hsome := h.follow_isSome ((doc.ancestors limit id).length + 1)
  simp [hnone] at hsome

/-- The ways up that end are those that do not come back. -/
theorem wayUpEnds_iff (doc : Document) (id : Nat) :
    doc.WayUpEnds id ↔ ¬Returns doc.parent? id := by
  have hends := exists_endsAfter_iff doc.mem_range_of_parent?_isSome id
  rw [Finset.card_range] at hends
  constructor
  · intro h
    exact hends.mp h.endsAfter
  · intro h
    obtain ⟨steps, hsteps, hend⟩ := hends.mpr h
    refine ⟨⟨steps, hsteps, hend⟩, fun limit hlimit => ?_⟩
    exact ancestors_eq_of_endsAfter hend (by omega) hsteps

/-! ## Walks up to models -/

/-- Only on parts of models does the walk up to a model go on. -/
theorem modelPath_ne_circular {id : Nat} (h : ¬doc.IsModelPart id) (fuel : Nat)
    (segments : List Segment) : doc.modelPath (fuel + 1) (some id) segments ≠ .circular := by
  rw [modelPath]
  split
  · next name index hproperty => exact absurd (.inr ⟨name, index, hproperty⟩) h
  · next hroot => exact absurd (.inl hroot) h
  · split <;> simp
  · simp

/-- On a part of a model it goes on. -/
theorem exists_modelPath_eq {part : Nat} (h : doc.IsModelPart part) (segments : List Segment) :
    ∃ longer, ∀ fuel, doc.modelPath (fuel + 1) (some part) segments =
      doc.modelPath fuel (doc.parent? part) longer := by
  rcases h with hroot | ⟨name, index, hproperty⟩
  · refine ⟨segments, fun fuel => ?_⟩
    rw [modelPath, hroot]
  · refine ⟨{ name, index } :: segments, fun fuel => ?_⟩
    rw [modelPath, hproperty]

theorem OnlyModelParts.parent (h : doc.OnlyModelParts node) {part : Nat}
    (hparent : doc.parent? node = some part) : doc.OnlyModelParts part := by
  intro steps
  obtain ⟨next, hnext, hpart⟩ := h (steps + 1)
  rw [follow, hparent, Option.bind_some] at hnext
  exact ⟨next, hnext, hpart⟩

/-- A walk that has no end comes to a part of a model, from which it has no end. -/
theorem exists_parent_of_endless {segments : List Segment}
    (h : ∀ fuel, doc.modelPath fuel (doc.parent? node) segments = .circular) :
    ∃ part, doc.parent? node = some part ∧ doc.IsModelPart part ∧
      ∃ longer, ∀ fuel, doc.modelPath fuel (doc.parent? part) longer = .circular := by
  cases hparent : doc.parent? node with
  | none =>
    have hnever := h 1
    simp [hparent, modelPath] at hnever
  | some part =>
    rw [hparent] at h
    have hpart : doc.IsModelPart part := by
      by_contra hpart
      exact modelPath_ne_circular hpart 0 segments (h 1)
    obtain ⟨longer, hlonger⟩ := exists_modelPath_eq hpart segments
    refine ⟨part, rfl, hpart, longer, fun fuel => ?_⟩
    rw [← hlonger, h]

/-- The walk up to a model has no end, whatever its fuel, exactly if nothing but parts of models
comes on the way, without an end. -/
theorem forall_modelPath_eq_circular_iff (doc : Document) (node : Nat) (segments : List Segment) :
    (∀ fuel, doc.modelPath fuel (doc.parent? node) segments = .circular) ↔
      doc.OnlyModelParts node := by
  constructor
  · intro h steps
    induction steps generalizing node segments with
    | zero =>
      obtain ⟨part, hparent, hpart, -⟩ := exists_parent_of_endless h
      exact ⟨part, by simp [follow, hparent], hpart⟩
    | succ steps ih =>
      obtain ⟨part, hparent, -, longer, hendless⟩ := exists_parent_of_endless h
      obtain ⟨next, hnext, hpart⟩ := ih part longer hendless
      exact ⟨next, by rw [follow, hparent, Option.bind_some, hnext], hpart⟩
  · intro h fuel
    induction fuel generalizing node segments with
    | zero => rfl
    | succ fuel ih =>
      obtain ⟨part, hparent, hpart⟩ := h 0
      rw [follow_succ, follow, Option.bind_some] at hparent
      obtain ⟨longer, hlonger⟩ := exists_modelPath_eq hpart segments
      rw [hparent, hlonger]
      exact ih part longer (h.parent hparent)

/-- A way with nothing but parts of models on it comes back. -/
theorem OnlyModelParts.returns (h : doc.OnlyModelParts node) : Returns doc.parent? node := by
  rcases exists_endsAfter_or_returns doc.mem_range_of_parent?_isSome node with
    ⟨steps, hends⟩ | hreturns
  · obtain ⟨part, hpart, -⟩ := h steps
    rw [hends.follow_eq_none (Nat.lt_succ_self steps)] at hpart
    simp at hpart
  · exact hreturns

/-! ## Where the parts of a model end -/

/-- Only the document itself names no parent. -/
theorem Built.exists_parent? (h : doc.Built className) (hpos : 0 < id) (hlt : id < doc.size) :
    ∃ parent, doc.parent? id = some parent := by
  induction h with
  | start =>
    have hone : (ofClass className).size = 1 := rfl
    omega
  | @add doc parent kind span _ ih =>
    rw [size_add] at hlt
    rw [parent?_add]
    split
    · exact ⟨parent, rfl⟩
    · exact ih (by omega)

theorem Ordered.mem_Ico_of_isModelPart (hordered : doc.Ordered className)
    (h : doc.IsModelPart id) : id ∈ Finset.Ico 1 doc.size := by
  rw [Finset.mem_Ico]
  rcases Nat.eq_zero_or_pos id with rfl | hpos
  · simp [IsModelPart, hordered.kind?_zero] at h
  · refine ⟨hpos, ?_⟩
    rcases h with hroot | ⟨name, index, hproperty⟩
    · exact lt_size_of_kind? hroot
    · exact lt_size_of_kind? hproperty

/-- Where not all is parts of models, something else comes on the way up, and among the first
ancestors, of which there are no more than nodes. -/
theorem Built.exists_mem_ancestors (h : doc.Built className)
    (hunder : doc.UnderModelProperty node) (hnot : ¬doc.OnlyModelParts node) :
    ∃ top ∈ doc.ancestors doc.size node, ¬doc.IsModelPart top := by
  obtain ⟨parent, name, index, hparent, hproperty⟩ := hunder
  have hordered := h.ordered
  have hup (steps : Nat) :
      follow doc.parent? (steps + 1) node = follow doc.parent? steps parent := by
    rw [follow, hparent, Option.bind_some]
  have hexists : ∃ steps top, follow doc.parent? steps parent = some top ∧
      ¬doc.IsModelPart top := by
    by_contra hnone
    push Not at hnone
    refine hnot fun steps => ?_
    rw [hup]
    induction steps with
    | zero => exact ⟨parent, rfl, .inr ⟨name, index, hproperty⟩⟩
    | succ steps ih =>
      obtain ⟨part, hpart, hkind⟩ := ih
      obtain ⟨hpos, hlt⟩ := Finset.mem_Ico.mp (hordered.mem_Ico_of_isModelPart hkind)
      obtain ⟨next, hnext⟩ := h.exists_parent? hpos hlt
      have hfollow : follow doc.parent? (steps + 1) parent = some next := by
        rw [follow_succ, hpart, Option.bind_some, hnext]
      exact ⟨next, hfollow, hnone (steps + 1) next hfollow⟩
  obtain ⟨steps, other, hsteps, hkind⟩ := hexists
  obtain ⟨count, -, top, htop, hother, hfirst⟩ :=
    exists_first (P := fun part => ¬doc.IsModelPart part) hsteps hkind
  have hle := le_card_of_first htop hother hfirst (Nat.le_succ count)
    fun fewer hlt part hpart =>
      hordered.mem_Ico_of_isModelPart (not_not.mp (hfirst fewer hlt part hpart))
  rw [Nat.card_Ico] at hle
  have hpos := hordered.size_pos
  refine ⟨top, List.mem_of_getElem? (i := count) ?_, hother⟩
  rw [getElem?_ancestors, if_pos (by omega), hup, htop]

/-- In a document that was grown node by node, the walk up to a model ends unless nothing but parts
of models comes on the way. -/
theorem Built.modelWalkEnds_iff (h : doc.Built className) {expr : Expr} {twoWay : Bool}
    (hkind : doc.kind? node = some (.data expr twoWay)) (hunder : doc.UnderModelProperty node) :
    doc.ModelWalkEnds node ↔ ¬doc.OnlyModelParts node := by
  rw [← doc.forall_modelPath_eq_circular_iff node [], not_forall]
  constructor
  · exact ModelWalkEnds.ends
  · intro hends
    refine ⟨hends, ?_⟩
    have hnot : ¬doc.OnlyModelParts node := by
      rwa [← doc.forall_modelPath_eq_circular_iff node [], not_forall]
    obtain ⟨top, hmem, hother⟩ := h.exists_mem_ancestors hunder hnot
    rcases hunder.inModel_or_misplaced_of_mem hmem hother with ⟨model, inner, hin⟩ | hcut
    · obtain ⟨given, hmodel⟩ := hin.kind?_model
      obtain ⟨name, hname⟩ := h.exists_id? hmodel (.inr ⟨given, rfl⟩)
      exact .inl ⟨_, hin.placement_eq hkind hname⟩
    · exact .inr (hcut.refused hkind)

/-- **Ways up end unless they come back.** In a document that was grown node by node, with whatever
numbers for parents, a way up ends after no more steps than there are nodes, unless it comes back to
a node on it. The walk up to a model from an embedded expression in a property of a model ends at a
destination or with a problem, unless nothing but parts of models comes on the way without an end,
and then the way comes back. -/
theorem ways_up_end_iff (h : doc.Built className) :
    (∀ id, doc.WayUpEnds id ↔ ¬Returns doc.parent? id) ∧
    (∀ node expr twoWay, doc.kind? node = some (.data expr twoWay) →
      doc.UnderModelProperty node → (doc.ModelWalkEnds node ↔ ¬doc.OnlyModelParts node)) ∧
    ∀ node, doc.OnlyModelParts node → Returns doc.parent? node := by
  refine ⟨doc.wayUpEnds_iff, ?_, fun node => OnlyModelParts.returns⟩
  intro node expr twoWay hkind hunder
  exact h.modelWalkEnds_iff hkind hunder

/-- A model that comes later than the property inside it, which names it as its parent before it is
there. -/
def lateModelDocument : Document :=
  ofClass "Main"
    |>.add 2 (.modelProperty "p" none) .unknown
    |>.add 0 (.model (some "m")) .unknown
    |>.add 1 (.data (.identifier "title" .unknown) false) .unknown

/-- The way up from the expression goes on to the later model, and ends at the document. -/
theorem ways_up_end_iff_lateModel :
    lateModelDocument.Built "Main" ∧ lateModelDocument.UnderModelProperty 3 ∧
      lateModelDocument.WayUpEnds 3 ∧ lateModelDocument.ModelWalkEnds 3 := by
  have hbuilt : lateModelDocument.Built "Main" := .add _ _ _ (.add _ _ _ (.add _ _ _ .start))
  have hunder : lateModelDocument.UnderModelProperty 3 := ⟨1, "p", none, rfl, rfl⟩
  have hends : EndsAfter lateModelDocument.parent? 3 3 := ⟨0, rfl, rfl⟩
  have hnot : ¬Returns lateModelDocument.parent? 3 := fun h => h.not_endsAfter 3 hends
  obtain ⟨hways, hmodels, hreturns⟩ := ways_up_end_iff hbuilt
  refine ⟨hbuilt, hunder, (hways 3).mpr hnot, (hmodels 3 _ _ rfl hunder).mpr ?_⟩
  exact fun h => hnot (hreturns 3 h)

/-- A property of a model that names itself as its parent, with an expression inside. -/
def selfNamedDocument : Document :=
  ofClass "Main"
    |>.add 1 (.modelProperty "p" none) .unknown
    |>.add 1 (.data (.identifier "title" .unknown) false) .unknown

/-- The way up from the property never ends, and neither does the walk up to a model. -/
theorem self_named_never_ends :
    selfNamedDocument.Built "Main" ∧ selfNamedDocument.UnderModelProperty 2 ∧
      selfNamedDocument.size = 3 ∧ ¬selfNamedDocument.WayUpEnds 1 ∧
      (∀ limit, (selfNamedDocument.ancestors limit 1).length = limit) ∧
      ∀ fuel, selfNamedDocument.modelPath fuel (selfNamedDocument.parent? 2) [] = .circular := by
  have hreturns : Returns selfNamedDocument.parent? 1 := ⟨0, 1, 1, rfl, Nat.one_pos, rfl⟩
  have hproperty : selfNamedDocument.IsModelPart 1 := .inr ⟨"p", none, rfl⟩
  have honly : selfNamedDocument.OnlyModelParts 2 := by
    intro steps
    refine ⟨1, ?_, hproperty⟩
    induction steps with
    | zero => rfl
    | succ steps ih => rw [follow_succ, ih]; rfl
  refine ⟨.add _ _ _ (.add _ _ _ .start), ⟨1, "p", none, rfl, rfl⟩, rfl, ?_,
    length_ancestors_of_returns hreturns, ?_⟩
  · exact fun h => (wayUpEnds_iff _ 1).mp h hreturns
  · exact (forall_modelPath_eq_circular_iff _ 2 []).mpr honly

end Document

end Bindery
