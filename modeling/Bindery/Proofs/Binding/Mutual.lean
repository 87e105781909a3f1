import Bindery.Proofs.Binding.Linking

/-!
# What is linked is mutual

Two bindings are linked when each one's source has the text of the other one's destination. For
chains of plain names the text says which chain it is, and where it starts if the destination does
not depend on the place of a node: then the source of the one names the destination of the other.
-/

namespace Bindery

/-- A destination that starts at the document starts with one of its members. -/
def Destination.StartsAtMember (resolver : Resolver) (destination : Destination) : Prop :=
  destination.root = .document →
    ∃ first ∈ destination.segments.head?, (resolver.documentMember? first.name).isSome

/-- An expression is a chain of plain names, and so is a destination. If the destination starts at
the document, then with one of its members. -/
structure Expr.IsPlainFor (resolver : Resolver) (e : Expr) (destination : Destination) : Prop where
  exists_chain : ∃ segments, e.IsChain segments ∧ ∀ segment ∈ segments, segment.IsPlain
  plain : ∀ segment ∈ destination.chain, segment.IsPlain
  start : destination.StartsAtMember resolver

/-- An expression, taken as a destination, names the place of another destination. -/
def Expr.Names (resolver : Resolver) (e : Expr) (destination : Destination) : Prop :=
  ∃ target, (e.placement resolver false).1 = .resolved target ∧ target.root = destination.root ∧
    target.segments = destination.segments

/-- The chain of a destination leads to where the destination starts. -/
theorem Destination.Placed.locates {resolver : Resolver} {destination : Destination}
    (h : destination.Placed resolver) (hlocal : resolver.FindsClassesLocally)
    (hstart : destination.StartsAtMember resolver) :
    resolver.Locates destination.chain destination.root destination.segments := by
  obtain ⟨root, segments, toText, span⟩ := destination
  rcases h.start with hroot | ⟨found, hlocates⟩
  · obtain rfl : root = .document := hroot
    obtain ⟨first, hfirst, hmember⟩ := hstart rfl
    obtain ⟨definition, hmember⟩ := Option.isSome_iff_exists.mp hmember
    cases segments with
    | nil => simp at hfirst
    | cons head rest =>
      obtain rfl := Option.some.inj hfirst
      exact .document rest hmember
  · rwa [← hlocates.segments_append hlocal] at hlocates

/-- A chain of plain names with the text of a destination names that destination. -/
theorem Expr.IsPlainFor.names {resolver : Resolver} {e : Expr} {destination : Destination}
    (h : e.IsPlainFor resolver destination) (hlocal : resolver.FindsClassesLocally)
    (hplaced : destination.Placed resolver) (htext : e.text = destination.text) :
    e.Names resolver destination := by
  obtain ⟨segments, hchain, hplain⟩ := h.exists_chain
  have hsame : segments = destination.chain := by
    rw [hchain.text_eq, destination.text_eq] at htext
    exact eq_of_chainText_eq hchain.ne_nil hplaced.chain_ne_nil hplain h.plain htext
  refine ⟨⟨destination.root, destination.segments, false, e.span⟩, ?_, rfl, rfl⟩
  refine placement_eq_resolved_iff.mpr ⟨segments, hchain, ?_, rfl, rfl⟩
  rw [hsame]
  exact hplaced.locates hlocal h.start

/-- **What is linked is mutual.** The bindings of a pair have sources and destinations, and the text
of each source is the text of the other destination. If classes are found under their own names,
then of two chains of plain names each source names the destination of the other binding, provided
that a destination that starts at the document starts with one of its members. -/
theorem Document.mutual_of_mem_pairs {doc : Document} {config : Config} {resolver : Resolver}
    {nodes : List Nat} {bindings : List Binding}
    (h : doc.RecordsAfter config resolver nodes bindings) {i j : Nat}
    (hpair : (i, j) ∈ (Database.ofBindings resolver bindings).1.pairs) :
    ∃ a b e f destination target, bindings[i]? = some a ∧ bindings[j]? = some b ∧
      a.source = some e ∧ a.destination = some destination ∧
      b.source = some f ∧ b.destination = some target ∧
      e.text = target.text ∧ f.text = destination.text ∧
      (resolver.FindsClassesLocally →
        (e.IsPlainFor resolver target → e.Names resolver target) ∧
        (f.IsPlainFor resolver destination → f.Names resolver destination)) := by
  obtain ⟨candidate, hmem, other, hmem', rfl, rfl, hreverse⟩ :=
    PairCandidate.exists_of_mem_pair hpair
  obtain ⟨a, ha, hcandidate⟩ := List.mem_filterMap.mp hmem
  obtain ⟨b, hb, hother⟩ := List.mem_filterMap.mp hmem'
  obtain ⟨hslot, hsource, hdestination⟩ := PairCandidate.ofBinding?_eq_some_iff.mp hcandidate
  obtain ⟨hslot', hsource', hdestination'⟩ := PairCandidate.ofBinding?_eq_some_iff.mp hother
  obtain ⟨e, he, htext⟩ := Option.map_eq_some_iff.mp hsource
  obtain ⟨destination, hd, hdtext⟩ := Option.map_eq_some_iff.mp hdestination
  obtain ⟨f, hf, hftext⟩ := Option.map_eq_some_iff.mp hsource'
  obtain ⟨target, ht, httext⟩ := Option.map_eq_some_iff.mp hdestination'
  obtain ⟨hback, hforth⟩ : other.source = candidate.destination ∧
      other.destination = candidate.source := by
    simpa [PairCandidate.isReverse] using hreverse
  have hforward : e.text = target.text := by rw [htext, httext, hforth]
  have hbackward : f.text = destination.text := by rw [hftext, hdtext, hback]
  refine ⟨a, b, e, f, destination, target, ?_, ?_, he, hd, hf, ht, hforward, hbackward,
    fun hlocal => ⟨fun hplain => ?_, fun hplain => ?_⟩⟩
  · rw [hslot]
    exact h.recorded.getElem?_slot ha
  · rw [hslot']
    exact h.recorded.getElem?_slot hb
  · exact hplain.names hlocal (h.allPlaced b hb target ht) hforward
  · exact hplain.names hlocal (h.allPlaced a ha destination hd) hbackward

/-- Of two candidates that are the reverse of each other the first one comes first in the pair. -/
theorem PairCandidate.pairs_eq_singleton {resolver : Resolver} {bindings : List Binding}
    {source destination : String} (h : Binding.candidates bindings =
      [⟨0, source, destination⟩, ⟨1, destination, source⟩]) :
    (Database.ofBindings resolver bindings).1.pairs = [(0, 1)] := by
  show pair (Binding.candidates bindings) = _
  rw [h]
  simp [pair, isReverse]

/-- A document with an array of items, beside a class. -/
def mutualTable : SymbolTable :=
  let items : Definition := { name := "items", kind := .variable, type := some "Array" }
  ((SymbolTable.ofDocument "Main").declareOwnMember items).declareClass "app.Model" none

/-- The expression `items[2].name`. -/
def mutualItem : Expr :=
  .member (.index (.identifier "items" .unknown) (.literal (.int 2) .unknown) .unknown) "name"
    .unknown

/-- The expression `Model.total`. -/
def mutualTotal : Expr := .member (.identifier "Model" .unknown) "total" .unknown

/-- The destination `items[2].name`. -/
def mutualItemPlace : Destination :=
  ⟨.document, [{ name := "items", index := some 2 }, { name := "name" }], false, .unknown⟩

/-- The destination `Model.total`. -/
def mutualTotalPlace : Destination :=
  ⟨.classObject "app.Model", [{ name := "total" }], false, .unknown⟩

/-- The two bindings between them. -/
def mutualBindings : List Binding :=
  [⟨0, some mutualItem, some mutualTotalPlace, false, .unknown⟩,
    ⟨1, some mutualTotal, some mutualItemPlace, false, .unknown⟩]

/-- A tag that makes a two-way binding of an item and a static property. -/
theorem Document.mutual_of_mem_pairs_item :
    let doc := (Document.ofClass "Main").add 0 (.binding (some mutualItem) (some mutualTotal) true)
      .unknown
    let resolver := mutualTable.resolver
    doc.RecordsAfter {} resolver [1] mutualBindings ∧
      (0, 1) ∈ (Database.ofBindings resolver mutualBindings).1.pairs ∧
      resolver.FindsClassesLocally ∧
      mutualItem.IsPlainFor resolver mutualItemPlace ∧ mutualItem.Names resolver mutualItemPlace ∧
      mutualTotal.IsPlainFor resolver mutualTotalPlace ∧
      mutualTotal.Names resolver mutualTotalPlace := by
  intro doc resolver
  have hrecords : doc.RecordsAfter {} resolver [1] mutualBindings := ⟨_, _, rfl, rfl⟩
  have hpair : (0, 1) ∈ (Database.ofBindings resolver mutualBindings).1.pairs := by
    rw [PairCandidate.pairs_eq_singleton rfl]
    exact List.mem_singleton.mpr rfl
  have hlocal : resolver.FindsClassesLocally := SymbolTable.findsClassesLocally (by decide)
  have hitem : mutualItem.IsPlainFor resolver mutualItemPlace :=
    ⟨⟨_, Expr.segments?_eq_some_iff.mp rfl, by decide⟩, by decide, fun _ => ⟨_, rfl, by decide⟩⟩
  have htotal : mutualTotal.IsPlainFor resolver mutualTotalPlace :=
    ⟨⟨_, Expr.segments?_eq_some_iff.mp rfl, by decide⟩, by decide,
      by simp [Destination.StartsAtMember, mutualTotalPlace]⟩
  obtain ⟨a, b, e, f, destination, target, ha, hb, he, hd, hf, ht, -, -, hnames⟩ :=
    mutual_of_mem_pairs hrecords hpair
  obtain rfl := Option.some.inj ha
  obtain rfl := Option.some.inj hb
  obtain rfl := Option.some.inj he
  obtain rfl := Option.some.inj hd
  obtain rfl := Option.some.inj hf
  obtain rfl := Option.some.inj ht
  exact ⟨hrecords, hpair, hlocal, hitem, (hnames hlocal).1 hitem, htotal, (hnames hlocal).2 htotal⟩

/-- Visits of a document record two bindings, which are linked although the source of one of them
names no destination. -/
def Document.LinksUnnamed (doc : Document) (resolver : Resolver) (nodes : List Nat) : Prop :=
  ∃ first second e, doc.RecordsAfter {} resolver nodes [first, second] ∧
    (Database.ofBindings resolver [first, second]).1.pairs = [(0, 1)] ∧
    (first.source = some e ∨ second.source = some e) ∧
    ∀ target, (e.placement resolver false).1 ≠ .resolved target

/-- The text in an instance without an id, bound in both directions to the property `a`. The id is
generated, and no member of the document has it. -/
def unnamedInstance : Document :=
  (((Document.ofClass "Main").add 0 (.instance none "Label") .unknown).add 1 (.property "text")
    .unknown).add 2 (.data (.identifier "a" .unknown) true) .unknown

/-- Two tags, the first of which carries `source` to `b`, and the second `b` to `destination`. -/
def crossedTags (source destination : Expr) : Document :=
  let b := Expr.identifier "b" .unknown
  ((Document.ofClass "Main").add 0 (.binding (some source) (some b) false) .unknown).add 0
    (.binding (some b) (some destination) false) .unknown

/-- A class that is found under another name than its own. -/
def renamedClass : SymbolTable :=
  linkingTable.declareGlobal { name := "Alias", kind := .classType, type := some "app.Model" }

/-- A link does not tell that the sources name destinations at all: they may start with a generated
id, be text with one embedded expression, have a dot in a name, or start with a class that is known
under another name. -/
theorem Document.linksUnnamed_each :
    unnamedInstance.LinksUnnamed linkingTable.resolver [3] ∧
      (crossedTags (.concat [.identifier "a" .unknown] .unknown)
        (.identifier "a" .unknown)).LinksUnnamed linkingTable.resolver [1, 2] ∧
      (crossedTags (.identifier "a.b" .unknown)
        (.member (.identifier "a" .unknown) "b" .unknown)).LinksUnnamed
          linkingTable.resolver [1, 2] ∧
      (crossedTags (.member (.identifier "Model" .unknown) "x" .unknown)
        (.member (.identifier "Alias" .unknown) "x" .unknown)).LinksUnnamed
          renamedClass.resolver [1, 2] := by
  have hnone {e : Expr} {resolver : Resolver}
      (h : (e.placement resolver false).1 = .nowhere ∨
        (e.placement resolver false).1 = .refused) (target : Destination) :
      (e.placement resolver false).1 ≠ .resolved target := by
    rcases h with h | h <;> simp [h]
  refine ⟨?_, ?_, ?_, ?_⟩
  · exact ⟨_, _, _, ⟨_, _, rfl, rfl⟩, PairCandidate.pairs_eq_singleton rfl, .inr rfl,
      hnone (.inl (by decide))⟩
  · exact ⟨_, _, _, ⟨_, _, rfl, rfl⟩, PairCandidate.pairs_eq_singleton rfl, .inl rfl,
      hnone (.inr (by decide))⟩
  · exact ⟨_, _, _, ⟨_, _, rfl, rfl⟩, PairCandidate.pairs_eq_singleton rfl, .inl rfl,
      hnone (.inl (by decide))⟩
  · exact ⟨_, _, _, ⟨_, _, rfl, rfl⟩, PairCandidate.pairs_eq_singleton rfl, .inl rfl,
      hnone (.inl (by decide))⟩

end Bindery
