import Bindery.Proofs.Document.GeneratedIds

/-!
# Places of embedded expressions

The place of an embedded expression decides whether it has a destination, and which. Inside a model
the destination follows from the nodes on the way up: as long as they are properties or the one tag
around these, each property gives a segment, and the model gives the first one. In a document that
was grown node by node, everything that a walk reaches has such a way up. It ends at a model, or at
a node of another kind, and then the expression is refused.
-/

namespace Bindery

namespace Document

/-! ## Ways up -/

/-- A node may stand between a model and an embedded expression. -/
def IsModelPart (doc : Document) (id : Nat) : Prop :=
  doc.kind? id = some .modelRoot ∨ ∃ name index, doc.kind? id = some (.modelProperty name index)

/-- The segment of a property inside a model. -/
def modelSegment? (doc : Document) (id : Nat) : Option Segment :=
  match doc.kind? id with
  | some (.modelProperty name index) => some { name, index }
  | _ => none

theorem length_ancestors_le (doc : Document) (limit id : Nat) :
    (doc.ancestors limit id).length ≤ limit := by
  fun_induction ancestors doc limit id with
  | case1 => simp
  | case2 limit id parent hparent ih => simpa using ih
  | case3 => simp

/-- The way up from a node starts with its parent, and goes on with the way up from there. -/
theorem ancestors_eq_cons {doc : Document} {limit id parent : Nat} {outer : List Nat}
    (h : doc.ancestors limit id = parent :: outer) :
    doc.parent? id = some parent ∧ ∃ fewer, doc.ancestors fewer parent = outer := by
  cases limit with
  | zero => simp [ancestors] at h
  | succ limit =>
    rw [ancestors] at h
    split at h
    · next found hfound =>
      obtain ⟨rfl, houter⟩ := List.cons.inj h
      exact ⟨hfound, limit, houter⟩
    · simp at h

/-- The way up from a node that hangs from the document ends at the document. -/
theorem Rooted.zero_mem_ancestors {doc : Document} {id : Nat} (h : doc.Rooted id) (hpos : 0 < id)
    {limit : Nat} (hle : id ≤ limit) : 0 ∈ doc.ancestors limit id := by
  induction h generalizing limit with
  | root => omega
  | @child parent id _ hparent hlt ih =>
    obtain ⟨limit, rfl⟩ : ∃ fewer, limit = fewer + 1 := ⟨limit - 1, by omega⟩
    rw [ancestors, hparent]
    rcases Nat.eq_zero_or_pos parent with rfl | hpos
    · exact List.mem_cons_self
    · exact List.mem_cons_of_mem _ (ih hpos (by omega))

/-- Through the parts of a model the walk goes on, and collects the segments of the properties, the
outermost one in front. -/
theorem modelPath_ancestors {doc : Document} {limit id top : Nat} {inner outer : List Nat}
    (h : doc.ancestors limit id = inner ++ top :: outer)
    (hparts : ∀ part ∈ inner, doc.IsModelPart part) {fuel : Nat} (hfuel : inner.length ≤ fuel)
    (segments : List Segment) :
    doc.modelPath fuel (doc.parent? id) segments =
      doc.modelPath (fuel - inner.length) (some top)
        (inner.reverse.filterMap doc.modelSegment? ++ segments) := by
  induction inner generalizing limit id fuel segments with
  | nil => rw [(ancestors_eq_cons h).1]; rfl
  | cons part inner ih =>
    obtain ⟨hpart, hinner⟩ := List.forall_mem_cons.mp hparts
    obtain ⟨hparent, fewer, hrest⟩ := ancestors_eq_cons h
    obtain ⟨fuel, rfl⟩ : ∃ less, fuel = less + 1 := ⟨fuel - 1, by simp at hfuel; omega⟩
    have hless : inner.length ≤ fuel := by simpa using hfuel
    have hdrop : fuel + 1 - (part :: inner).length = fuel - inner.length := by simp
    rw [hparent, hdrop, List.reverse_cons, List.filterMap_append, List.append_assoc]
    rcases hpart with hroot | ⟨name, index, hproperty⟩
    · have hsegment : doc.modelSegment? part = none := by rw [modelSegment?, hroot]
      simp only [modelPath, hroot]
      rw [ih hrest hinner hless]
      simp [hsegment]
    · have hsegment : doc.modelSegment? part = some { name, index } := by
        rw [modelSegment?, hproperty]
      simp only [modelPath, hproperty]
      rw [ih hrest hinner hless]
      simp [hsegment]

/-! ## Ids -/

/-- In a document that was grown node by node, every instance and every model has an id. -/
theorem Built.exists_id? {className : String} {doc : Document} (h : doc.Built className) {id : Nat}
    {kind : NodeKind} (hkind : doc.kind? id = some kind)
    (hnamed : (∃ given other, kind = .instance given other) ∨ ∃ given, kind = .model given) :
    ∃ name, doc.id? id = some name := by
  have hgenerated := h.numbered.generatedId?_eq id (lt_size_of_kind? hkind)
  obtain ⟨node, hnode, rfl⟩ := Option.map_eq_some_iff.mp hkind
  rw [generatedId?, hnode, Option.bind_some, unnamedClass?, hkind, Option.bind_some] at hgenerated
  rcases hnamed with ⟨given, other, hinstance⟩ | ⟨given, hmodel⟩
  · rw [hinstance] at hgenerated
    cases given <;> simp [id?, hnode, hinstance, hgenerated, NodeKind.unnamedClass?]
  · rw [hmodel] at hgenerated
    cases given <;> simp [id?, hnode, hmodel, hgenerated, NodeKind.unnamedClass?]

/-! ## Places -/

/-- An embedded expression gives a property of the document. -/
def OnDocument (doc : Document) (node : Nat) (name : String) : Prop :=
  ∃ owner className, doc.SetsProperty node owner name ∧
    doc.kind? owner = some (.document className)

/-- An embedded expression gives a property of an instance. -/
def OnInstance (doc : Document) (node owner : Nat) (name : String) : Prop :=
  doc.SetsProperty node owner name ∧ ∃ given className,
    doc.kind? owner = some (.instance given className)

/-- A node is the child of a property inside a model. -/
def UnderModelProperty (doc : Document) (node : Nat) : Prop :=
  ∃ parent name index, doc.parent? node = some parent ∧
    doc.kind? parent = some (.modelProperty name index)

/-- An embedded expression gives a property inside a model. Between the two, from the inside to the
outside, there are only parts of the model. -/
structure InModel (doc : Document) (node model : Nat) (inner : List Nat) : Prop where
  underProperty : doc.UnderModelProperty node
  ancestors_eq : ∃ outer, doc.ancestors doc.size node = inner ++ model :: outer
  parts : ∀ part ∈ inner, doc.IsModelPart part
  kind?_model : ∃ given, doc.kind? model = some (.model given)

/-- An embedded expression stands at a wrong place inside a model. -/
inductive Misplaced (doc : Document) (node : Nat) : Prop
  /-- There is no property around it. -/
  | bare {parent : Nat} : doc.parent? node = some parent →
    (doc.kind? parent = some .modelRoot ∨ ∃ given, doc.kind? parent = some (.model given)) →
    Misplaced doc node
  /-- There is something else on the way up to a model. -/
  | cut {inner outer : List Nat} {top : Nat} : doc.UnderModelProperty node →
    doc.ancestors doc.size node = inner ++ top :: outer →
    (∀ part ∈ inner, doc.IsModelPart part) → ¬doc.IsModelPart top →
    (¬∃ given, doc.kind? top = some (.model given)) → Misplaced doc node

/-- Under a property inside a model, with something else on the way up, the way leaves the parts of
the model at a model or elsewhere. -/
theorem UnderModelProperty.inModel_or_misplaced_of_mem {doc : Document} {node : Nat}
    (h : doc.UnderModelProperty node) {other : Nat} (hmem : other ∈ doc.ancestors doc.size node)
    (hother : ¬doc.IsModelPart other) :
    (∃ model inner, doc.InModel node model inner) ∨ doc.Misplaced node := by
  classical
  obtain ⟨top, inner, outer, hinner, htop, hancestors, -⟩ := List.exists_of_eraseP
    (p := fun id => decide ¬doc.IsModelPart id) hmem (by simpa using hother)
  have hparts : ∀ part ∈ inner, doc.IsModelPart part := by simpa using hinner
  by_cases hmodel : ∃ given, doc.kind? top = some (.model given)
  · exact .inl ⟨top, inner, h, ⟨outer, hancestors⟩, hparts, hmodel⟩
  · exact .inr (.cut h hancestors hparts (by simpa using htop) hmodel)

/-- Under a property inside a model, the way up leaves the parts of the model somewhere. -/
theorem UnderModelProperty.inModel_or_misplaced {doc : Document} {className : String}
    (hordered : doc.Ordered className) {node : Nat} (hrooted : doc.Rooted node)
    (hlt : node < doc.size) (h : doc.UnderModelProperty node) :
    (∃ model inner, doc.InModel node model inner) ∨ doc.Misplaced node := by
  have hpos : 0 < node := by
    obtain ⟨parent, -, -, hparent, -⟩ := h
    have := (hrooted.parent hordered hparent).2
    omega
  have hzero : ¬doc.IsModelPart 0 := by simp [IsModelPart, hordered.kind?_zero]
  exact h.inModel_or_misplaced_of_mem (hrooted.zero_mem_ancestors hpos (Nat.le_of_lt hlt)) hzero

/-! ## Destinations by place -/

section Placement

variable {doc : Document} {node : Nat} {expr : Expr} {twoWay : Bool}

/-- What an embedded expression gets at a place with these segments. -/
def placedAt (doc : Document) (node : Nat) (expr : Expr) (segments : List Segment) :
    Placement × List Problem :=
  (.resolved { root := .document, segments, toText := expr.isConcat, span := doc.span node }, [])

/-- An embedded expression is refused, with one problem. -/
def Refused (doc : Document) (node : Nat) : Prop :=
  ∃ problem, doc.placement node = (.refused, [problem]) ∧
    problem.kind = .malformedModelTree ∧ problem.span = doc.span node

/-- From a property inside a model, the walk arrives where the way up leaves the parts of the model,
with the segments of the properties up to there. -/
theorem UnderModelProperty.modelPath_eq (h : doc.UnderModelProperty node) {inner outer : List Nat}
    {top : Nat} (hancestors : doc.ancestors doc.size node = inner ++ top :: outer)
    (hparts : ∀ part ∈ inner, doc.IsModelPart part) :
    ∃ parent name index fuel, doc.parent? node = some parent ∧
      doc.kind? parent = some (.modelProperty name index) ∧
      doc.modelPath (doc.size + 1) (some parent) [] =
        doc.modelPath (fuel + 1) (some top) (inner.reverse.filterMap doc.modelSegment?) := by
  obtain ⟨parent, name, index, hparent, hproperty⟩ := h
  have hlength := doc.length_ancestors_le doc.size node
  rw [hancestors, List.length_append, List.length_cons] at hlength
  have hpath := modelPath_ancestors hancestors hparts
    (show inner.length ≤ doc.size + 1 by omega) []
  have hfuel : doc.size + 1 - inner.length = doc.size - inner.length + 1 := by omega
  rw [hparent, hfuel, List.append_nil] at hpath
  exact ⟨parent, name, index, doc.size - inner.length, hparent, hproperty, hpath⟩

theorem OnDocument.placement_eq (hkind : doc.kind? node = some (.data expr twoWay)) {name : String}
    (h : doc.OnDocument node name) : doc.placement node = doc.placedAt node expr [{ name }] := by
  obtain ⟨owner, className, ⟨_, _, property, -, hparent, hproperty, howner⟩, hdocument⟩ := h
  have hsegments : doc.propertySegments? property name = some [{ name }] := by
    simp [propertySegments?, howner, hdocument]
  simp [placement, hkind, hparent, hproperty, hsegments, placedAt]

theorem OnInstance.placement_eq (hkind : doc.kind? node = some (.data expr twoWay)) {owner : Nat}
    {name id : String} (h : doc.OnInstance node owner name) (hid : doc.id? owner = some id) :
    doc.placement node = doc.placedAt node expr [{ name := id }, { name }] := by
  obtain ⟨hsets, given, className, hinstance⟩ := h
  exact hsets.placement_of_instance hkind hinstance hid

theorem InModel.placement_eq (hkind : doc.kind? node = some (.data expr twoWay)) {model : Nat}
    {inner : List Nat} {id : String} (h : doc.InModel node model inner)
    (hid : doc.id? model = some id) :
    doc.placement node = doc.placedAt node expr
      ({ name := id } :: inner.reverse.filterMap doc.modelSegment?) := by
  obtain ⟨outer, hancestors⟩ := h.ancestors_eq
  obtain ⟨given, hmodel⟩ := h.kind?_model
  obtain ⟨parent, name, index, fuel, hparent, hproperty, hpath⟩ :=
    h.underProperty.modelPath_eq hancestors h.parts
  have hinside (segments : List Segment) :
      doc.modelPath (fuel + 1) (some model) segments = .inside ({ name := id } :: segments) := by
    simp [modelPath, hmodel, hid]
  simp [placement, hkind, hparent, hproperty, hpath, hinside, placedAt]

theorem Misplaced.refused (hkind : doc.kind? node = some (.data expr twoWay))
    (h : doc.Misplaced node) : doc.Refused node := by
  cases h with
  | bare hparent hmodel =>
    rcases hmodel with hroot | ⟨given, hmodel⟩
    · simp [Refused, placement, hkind, hparent, hroot, malformed]
    · simp [Refused, placement, hkind, hparent, hmodel, malformed]
  | @cut inner outer top hunder hancestors hparts htop hmodel =>
    obtain ⟨parent, name, index, fuel, hparent, hproperty, hpath⟩ :=
      hunder.modelPath_eq hancestors hparts
    have hunexpected (segments : List Segment) :
        doc.modelPath (fuel + 1) (some top) segments = .unexpected := by
      rw [modelPath]
      split
      · next name index hpart => exact absurd (.inr ⟨name, index, hpart⟩) htop
      · next hroot => exact absurd (.inl hroot) htop
      · next given hgiven => exact absurd ⟨given, hgiven⟩ hmodel
      · rfl
    simp [Refused, placement, hkind, hparent, hproperty, hpath, hunexpected, malformed]

/-- Everywhere else, an embedded expression has no destination, and nothing is said about it. -/
theorem placement_eq_nowhere {className : String} (hordered : doc.Ordered className)
    (hrooted : doc.Rooted node) (hkind : doc.kind? node = some (.data expr twoWay))
    (hdocument : ∀ name, ¬doc.OnDocument node name)
    (hinstance : ∀ owner name, ¬doc.OnInstance node owner name)
    (hmodel : ∀ model inner, ¬doc.InModel node model inner) (hmisplaced : ¬doc.Misplaced node) :
    doc.placement node = (.nowhere, []) := by
  have hlt : node < doc.size := lt_size_of_kind? hkind
  have hunder : ¬doc.UnderModelProperty node := by
    intro hunder
    rcases hunder.inModel_or_misplaced hordered hrooted hlt with ⟨model, inner, hin⟩ | hcut
    · exact hmodel model inner hin
    · exact hmisplaced hcut
  -- Only the document itself has no parent.
  obtain ⟨parent, hparent⟩ : ∃ parent, doc.parent? node = some parent := by
    cases hrooted with
    | root => simp [hordered.kind?_zero] at hkind
    | child _ hparent _ => exact ⟨_, hparent⟩
  simp only [placement, hkind, hparent]
  split
  · next name index hproperty => exact absurd ⟨parent, name, index, hparent, hproperty⟩ hunder
  · next given hgiven => exact absurd (.bare hparent (.inr ⟨given, hgiven⟩)) hmisplaced
  · next hroot => exact absurd (.bare hparent (.inl hroot)) hmisplaced
  · next name hproperty =>
    have hsegments : doc.propertySegments? parent name = none := by
      rw [propertySegments?]
      cases howner : doc.parent? parent with
      | none => rfl
      | some owner =>
        have hsets : doc.SetsProperty node owner name :=
          ⟨expr, twoWay, parent, hkind, hparent, hproperty, howner⟩
        simp only [Option.bind_eq_bind, Option.bind_some]
        split
        · next className hclass => exact absurd ⟨owner, className, hsets, hclass⟩ (hdocument name)
        · next given className hgiven =>
          exact absurd ⟨hsets, given, className, hgiven⟩ (hinstance owner name)
        · rfl
    rw [hsegments]
  · rfl

/-- **Destinations follow from places.** In a document that was grown node by node, let a walk reach
an embedded expression. In a property of the document, its destination is that property; in a
property of an instance, it is the id of the instance and the property. In a property inside a
model, with only parts of the model in between, it is the id of the model and all properties from
the outermost to the innermost, with their element numbers. All these start at the document, stand
where the expression stands, and make a text of the value exactly if the expression is a
concatenation. Directly inside a model or its one tag, or with another kind of node on the way up
to a model, the expression is refused with one problem. Everywhere else it has no destination, and
there is no problem. -/
theorem placement_of_mem_walk {className : String} (h : doc.Built className)
    (hmem : node ∈ doc.walk) (hkind : doc.kind? node = some (.data expr twoWay)) :
    (∀ name, doc.OnDocument node name →
      doc.placement node = doc.placedAt node expr [{ name }]) ∧
    (∀ owner name, doc.OnInstance node owner name → ∃ id, doc.id? owner = some id ∧
      doc.placement node = doc.placedAt node expr [{ name := id }, { name }]) ∧
    (∀ model inner, doc.InModel node model inner → ∃ id, doc.id? model = some id ∧
      doc.placement node = doc.placedAt node expr
        ({ name := id } :: inner.reverse.filterMap doc.modelSegment?)) ∧
    (doc.Misplaced node → doc.Refused node) ∧
    ((∀ name, ¬doc.OnDocument node name) → (∀ owner name, ¬doc.OnInstance node owner name) →
      (∀ model inner, ¬doc.InModel node model inner) → ¬doc.Misplaced node →
      doc.placement node = (.nowhere, [])) := by
  refine ⟨fun name hon => hon.placement_eq hkind, fun owner name hon => ?_,
    fun model inner hin => ?_, Misplaced.refused hkind, ?_⟩
  · obtain ⟨given, other, hinstance⟩ := hon.2
    obtain ⟨id, hid⟩ := h.exists_id? hinstance (.inl ⟨given, other, rfl⟩)
    exact ⟨id, hid, hon.placement_eq hkind hid⟩
  · obtain ⟨given, hmodel⟩ := hin.kind?_model
    obtain ⟨id, hid⟩ := h.exists_id? hmodel (.inr ⟨given, rfl⟩)
    exact ⟨id, hid, hin.placement_eq hkind hid⟩
  · exact placement_eq_nowhere h.ordered (h.ordered.rooted_of_mem_walk hmem) hkind

end Placement

/-- A model with an array of items. One item has a name that is a text with an embedded expression,
and contains a label, inside which another expression is embedded. -/
def catalogDocument : Document :=
  ofClass "Main"
    |>.add 0 (.model none) .unknown
    |>.add 1 .modelRoot .unknown
    |>.add 2 (.modelProperty "items" (some 1)) .unknown
    |>.add 3 (.modelProperty "name" none) .unknown
    |>.add 4 (.data (.concat [.identifier "title" .unknown] .unknown) false) .unknown
    |>.add 3 (.instance none "Label") .unknown
    |>.add 6 (.modelProperty "text" none) .unknown
    |>.add 7 (.data (.identifier "title" .unknown) false) .unknown

theorem inModel_catalogDocument : catalogDocument.InModel 5 1 [4, 3, 2] where
  underProperty := ⟨4, "name", none, rfl, rfl⟩
  ancestors_eq := ⟨[0], by decide⟩
  parts := List.forall_mem_cons.mpr ⟨.inr ⟨"name", none, rfl⟩, List.forall_mem_cons.mpr
    ⟨.inr ⟨"items", some 1, rfl⟩, List.forall_mem_cons.mpr ⟨.inl rfl, by simp⟩⟩⟩
  kind?_model := ⟨none, rfl⟩

/-- On the way up from the text of the label, the label itself comes before the model. -/
theorem misplaced_catalogDocument : catalogDocument.Misplaced 8 := by
  have hlabel : catalogDocument.kind? 6 = some (.instance none "Label") := rfl
  have hancestors :
      catalogDocument.ancestors catalogDocument.size 8 = [7] ++ 6 :: [3, 2, 1, 0] := by decide
  refine .cut ⟨7, "text", none, rfl, rfl⟩ hancestors ?_ ?_ ?_
  · exact List.forall_mem_cons.mpr ⟨.inr ⟨"text", none, rfl⟩, by simp⟩
  · simp [IsModelPart, hlabel]
  · simp [hlabel]

/-- The name of the second item is stored in the model, and the text of the label nowhere. -/
theorem placement_of_mem_walk_catalog :
    catalogDocument.Built "Main" ∧ 5 ∈ catalogDocument.walk ∧ 8 ∈ catalogDocument.walk ∧
      catalogDocument.placement 5 = (.resolved {
        root := .document
        segments := [{ name := "_Main_Model1" }, { name := "items", index := some 1 },
          { name := "name" }]
        toText := true
        span := .unknown }, []) ∧
      catalogDocument.Refused 8 := by
  have hbuilt : catalogDocument.Built "Main" := by
    unfold catalogDocument
    exact .add _ _ _ (.add _ _ _ (.add _ _ _ (.add _ _ _ (.add _ _ _ (.add _ _ _ (.add _ _ _
      (.add _ _ _ .start)))))))
  have hname : 5 ∈ catalogDocument.walk := by decide
  have htext : 8 ∈ catalogDocument.walk := by decide
  obtain ⟨-, -, hin, -⟩ := placement_of_mem_walk hbuilt hname rfl
  obtain ⟨id, hid, hplaced⟩ := hin 1 [4, 3, 2] inModel_catalogDocument
  obtain rfl : "_Main_Model1" = id := Option.some.inj ((show _ = _ by decide).trans hid)
  obtain ⟨-, -, -, hcut, -⟩ := placement_of_mem_walk hbuilt htext rfl
  exact ⟨hbuilt, hname, htext, hplaced, hcut misplaced_catalogDocument⟩

end Document

end Bindery
