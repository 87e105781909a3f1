import Bindery.Proofs.Binding.Pairing
import Bindery.Proofs.Binding.Visits
import Bindery.Symbol.Table

/-!
# Which halves find each other

Bindings are paired by their texts alone, each with the first later one that is its reverse. Two
halves that were recorded one behind the other are therefore paired with each other unless an
earlier binding takes one of them. That depends on nothing but the earlier bindings with the same
two texts: among themselves they have to pair off.
-/

namespace Bindery

namespace PairCandidate

/-- Whether a candidate goes from one text to another. -/
def goes (source destination : String) (candidate : PairCandidate) : Bool :=
  candidate.source = source && candidate.destination = destination

/-- The candidates that go between two texts pair off: as many go there as back, or, if the texts
are the same, their number is even. -/
def PairsOff (source destination : String) (candidates : List PairCandidate) : Prop :=
  if source = destination then 2 ∣ candidates.countP (goes source destination)
  else candidates.countP (goes source destination) = candidates.countP (goes destination source)

instance (source destination : String) (candidates : List PairCandidate) :
    Decidable (PairsOff source destination candidates) :=
  inferInstanceAs (Decidable (if source = destination then
    2 ∣ candidates.countP (goes source destination)
  else candidates.countP (goes source destination) = candidates.countP (goes destination source)))

variable {source destination : String}

theorem goes_iff {candidate : PairCandidate} : candidate.goes source destination = true ↔
    candidate.source = source ∧ candidate.destination = destination := by
  simp [goes]

/-- A candidate is reversed by another one if it goes from where that ends to where that starts. -/
theorem isReverse_eq_goes (a b : PairCandidate) :
    a.isReverse b = a.goes b.destination b.source := by
  simp [isReverse, goes, Bool.and_comm, eq_comm]

/-- The reverse of a candidate goes from one text to another if the candidate goes back. -/
theorem goes_of_isReverse {a b : PairCandidate} (h : a.isReverse b = true)
    (source destination : String) : b.goes source destination = a.goes destination source := by
  obtain ⟨hsource, hdestination⟩ := goes_iff.mp (isReverse_eq_goes a b ▸ h)
  simp [goes, hsource, hdestination, Bool.and_comm]

theorem pairsOff_comm {candidates : List PairCandidate} :
    PairsOff source destination candidates ↔ PairsOff destination source candidates := by
  unfold PairsOff
  by_cases heq : source = destination
  · simp [heq]
  · simp [heq, Ne.symm heq, eq_comm]

/-- Candidates that are the reverse of each other do not matter. -/
theorem pairsOff_cons_append_cons {a b : PairCandidate} (h : a.isReverse b = true)
    (before after : List PairCandidate) :
    PairsOff source destination (a :: (before ++ b :: after)) ↔
      PairsOff source destination (before ++ after) := by
  have hforth := goes_of_isReverse h source destination
  have hback := goes_of_isReverse h destination source
  unfold PairsOff
  simp only [List.countP_cons, List.countP_append, hforth, hback]
  split
  · next heq =>
    subst heq
    omega
  · omega

/-- A candidate that goes between other texts does not matter. -/
theorem pairsOff_cons {a : PairCandidate} (hforth : a.goes source destination = false)
    (hback : a.goes destination source = false) (candidates : List PairCandidate) :
    PairsOff source destination (a :: candidates) ↔ PairsOff source destination candidates := by
  simp only [PairsOff, List.countP_cons, hforth, hback]
  simp

/-- A candidate without a reverse is left over. -/
theorem not_pairsOff_cons {a : PairCandidate} {candidates : List PairCandidate}
    (hnone : ∀ other ∈ candidates, ¬a.isReverse other = true) :
    ¬PairsOff a.source a.destination (a :: candidates) := by
  have hself : a.goes a.source a.destination = true := goes_iff.mpr ⟨rfl, rfl⟩
  have hzero : candidates.countP (goes a.destination a.source) = 0 :=
    List.countP_eq_zero.mpr hnone
  unfold PairsOff
  split
  · next heq =>
    rw [← heq] at hzero hself ⊢
    rw [List.countP_cons_of_pos hself, hzero]
    decide
  · next hne =>
    have hback : ¬a.goes a.destination a.source = true := by simp [goes, hne]
    rw [List.countP_cons_of_pos hself, List.countP_cons_of_neg hback, hzero]
    omega

/-! ### Two halves

Two candidates that are the reverse of each other have the same two texts. So another candidate is
the reverse of one of them exactly if it goes the way of the other one. -/

section Halves

variable {forward back first : PairCandidate} {rest : List PairCandidate}

theorem not_pairsOff_cons_of_isReverse_forward (hfirst : first.isReverse forward = true)
    (hnone : ∀ other ∈ rest, ¬first.isReverse other = true) :
    ¬PairsOff forward.source forward.destination (first :: rest) := by
  obtain ⟨hsource, hdestination⟩ := goes_iff.mp (isReverse_eq_goes first forward ▸ hfirst)
  rw [pairsOff_comm, ← hsource, ← hdestination]
  exact not_pairsOff_cons hnone

variable (hback : forward.isReverse back = true)
include hback

theorem pairsOff_cons_of_apart (hforward : ¬first.isReverse forward = true)
    (hreverse : ¬first.isReverse back = true) :
    PairsOff forward.source forward.destination (first :: rest) ↔
      PairsOff forward.source forward.destination rest := by
  obtain ⟨hsource, hdestination⟩ := goes_iff.mp (isReverse_eq_goes forward back ▸ hback)
  rw [isReverse_eq_goes, Bool.not_eq_true] at hforward hreverse
  rw [← hsource, ← hdestination] at hreverse
  exact pairsOff_cons hreverse hforward rest

theorem not_pairsOff_cons_of_isReverse_back (hfirst : first.isReverse back = true)
    (hnone : ∀ other ∈ rest, ¬first.isReverse other = true) :
    ¬PairsOff forward.source forward.destination (first :: rest) := by
  obtain ⟨hsource, hdestination⟩ := goes_iff.mp (isReverse_eq_goes forward back ▸ hback)
  obtain ⟨hsource', hdestination'⟩ := goes_iff.mp (isReverse_eq_goes first back ▸ hfirst)
  rw [hsource, hdestination, ← hsource', ← hdestination']
  exact not_pairsOff_cons hnone

end Halves

/-! ## Pairs among candidates -/

/-- The first candidate is paired with the next one if that is its reverse. -/
theorem pair_cons_cons {forward back : PairCandidate} (h : forward.isReverse back = true)
    (after : List PairCandidate) :
    pair (forward :: back :: after) = (forward.slot, back.slot) :: pair after := by
  rw [pair, List.find?_cons_of_pos h]
  simp only [List.eraseP_cons_of_pos h]

/-- Only candidates are paired. -/
theorem slots_of_mem_pair {candidates : List PairCandidate} {i j : Nat}
    (h : (i, j) ∈ pair candidates) : i ∈ candidates.map PairCandidate.slot ∧
      j ∈ candidates.map PairCandidate.slot := by
  have hsubset := (halves_pair_subperm candidates).subset
  have hhalf {slot : Nat} (hslot : slot ∈ [i, j]) : slot ∈ halves (pair candidates) :=
    List.mem_flatMap.mpr ⟨(i, j), h, hslot⟩
  exact ⟨hsubset (hhalf (by simp)), hsubset (hhalf (by simp))⟩

/-- Where a candidate stands that is found in a list with two marked neighbours. -/
theorem append_cons_cons_eq {α : Type} {before after left right : List α}
    {first second other : α}
    (h : before ++ first :: second :: after = left ++ other :: right) :
    (∃ more, before = left ++ other :: more ∧ right = more ++ first :: second :: after) ∨
      (left = before ∧ other = first ∧ right = second :: after) ∨
      (left = before ++ [first] ∧ other = second ∧ right = after) ∨
      ∃ more, left = before ++ first :: second :: more ∧ after = more ++ other :: right := by
  rcases List.append_eq_append_iff.mp h with ⟨more, rfl, hmore⟩ | ⟨more, rfl, hmore⟩
  · match more with
    | [] =>
      obtain ⟨rfl, rfl⟩ := List.cons.inj hmore
      exact .inr (.inl ⟨List.append_nil _, rfl, rfl⟩)
    | [_] =>
      obtain ⟨rfl, hrest⟩ := List.cons.inj hmore
      obtain ⟨rfl, rfl⟩ := List.cons.inj hrest
      exact .inr (.inr (.inl ⟨rfl, rfl, rfl⟩))
    | _ :: _ :: more =>
      obtain ⟨rfl, hrest⟩ := List.cons.inj hmore
      obtain ⟨rfl, rfl⟩ := List.cons.inj hrest
      exact .inr (.inr (.inr ⟨more, rfl, rfl⟩))
  · match more with
    | [] =>
      obtain ⟨rfl, rfl⟩ := List.cons.inj hmore
      exact .inr (.inl ⟨(List.append_nil _).symm, rfl, rfl⟩)
    | _ :: more =>
      obtain ⟨rfl, rfl⟩ := List.cons.inj hmore
      exact .inl ⟨more, rfl, rfl⟩

/-- A candidate that has been left out is in no pair. -/
theorem notMem_pair_of_left_out {before after : List PairCandidate} {candidate : PairCandidate}
    (hnodup : ((before ++ candidate :: after).map PairCandidate.slot).Nodup) (other : Nat) :
    (candidate.slot, other) ∉ pair (before ++ after) ∧
      (other, candidate.slot) ∉ pair (before ++ after) := by
  rw [List.map_append, List.map_cons, List.nodup_middle, ← List.map_append] at hnodup
  have hslot := (List.nodup_cons.mp hnodup).1
  exact ⟨fun h => hslot (slots_of_mem_pair h).1, fun h => hslot (slots_of_mem_pair h).2⟩

/-- Two candidates that are the reverse of each other and stand next to each other are paired
exactly if the earlier candidates with their texts pair off. -/
theorem mem_pair_iff {before after : List PairCandidate} {forward back : PairCandidate}
    (hback : forward.isReverse back = true)
    (hnodup : ((before ++ forward :: back :: after).map PairCandidate.slot).Nodup) :
    (forward.slot, back.slot) ∈ pair (before ++ forward :: back :: after) ↔
      PairsOff forward.source forward.destination before := by
  match before with
  | [] =>
    rw [List.nil_append, pair_cons_cons hback]
    simp [PairsOff]
  | first :: rest =>
    obtain ⟨hfirst, hrestNodup⟩ := List.nodup_cons.mp hnodup
    have hne : forward.slot ≠ first.slot := by
      rintro heq
      exact hfirst (heq ▸ List.mem_map_of_mem (by simp))
    rcases pair_cons first (rest ++ forward :: back :: after) with
      ⟨hnone, heq⟩ | ⟨left, other, right, hrest, hreverse, hleft, heq⟩
    · rw [List.cons_append, heq,
        pairsOff_cons_of_apart hback (hnone forward (by simp)) (hnone back (by simp))]
      exact mem_pair_iff hback hrestNodup
    · rw [List.cons_append, heq, List.mem_cons, or_iff_right (by simp [hne])]
      rcases append_cons_cons_eq hrest with
        ⟨more, rfl, rfl⟩ | ⟨rfl, rfl, rfl⟩ | ⟨rfl, rfl, rfl⟩ | ⟨more, rfl, rfl⟩
      · -- The reverse of the first candidate stands before the two.
        have hsublist : ((left ++ more) ++ forward :: back :: after).Sublist
            (left ++ other :: more ++ forward :: back :: after) :=
          ((List.sublist_cons_self other more).append_left left).append_right _
        rw [pairsOff_cons_append_cons hreverse, ← List.append_assoc]
        exact mem_pair_iff hback (hrestNodup.sublist (hsublist.map PairCandidate.slot))
      · -- The first candidate takes the first of the two.
        rw [iff_false_left (notMem_pair_of_left_out hrestNodup _).1]
        exact not_pairsOff_cons_of_isReverse_forward hreverse hleft
      · -- The first candidate takes the second of the two.
        have hnodup' : (((rest ++ [forward]) ++ other :: right).map PairCandidate.slot).Nodup := by
          simpa using hrestNodup
        rw [iff_false_left (notMem_pair_of_left_out hnodup' _).2]
        exact not_pairsOff_cons_of_isReverse_back hback hreverse fun earlier hmem =>
          hleft earlier (List.mem_append_left _ hmem)
      · -- The first candidate has nothing to do with the two.
        have hsublist : (rest ++ forward :: back :: (more ++ right)).Sublist
            (rest ++ forward :: back :: (more ++ other :: right)) :=
          ((((List.sublist_cons_self other right).append_left more).cons_cons back).cons_cons
            forward).append_left rest
        rw [pairsOff_cons_of_apart hback (hleft forward (by simp)) (hleft back (by simp)),
          List.append_assoc]
        exact mem_pair_iff hback (hrestNodup.sublist (hsublist.map PairCandidate.slot))
termination_by before.length

end PairCandidate

/-! ## Pairs among bindings -/

/-- The candidates among some bindings. -/
def Binding.candidates (bindings : List Binding) : List PairCandidate :=
  bindings.filterMap PairCandidate.ofBinding?

/-- The slots of recorded candidates are all different. -/
theorem Recorded.nodup_slots_candidates {bindings : List Binding} (h : Recorded bindings) :
    ((Binding.candidates bindings).map PairCandidate.slot).Nodup :=
  h.nodup_slots.sublist (PairCandidate.sublist_slots bindings)

/-- **When the halves of a binding are linked.** A node records a two-way binding behind others and
its reverse half behind it. These two are paired exactly if the bindings before them that go between
the same two texts pair off among themselves, whatever is recorded later. -/
theorem Document.mem_pairs_halves_iff {doc : Document} {config : Config} {resolver : Resolver}
    {before after : List Nat} {node : Nat} {earlier bindings : List Binding}
    {forward back : Binding} (hearlier : doc.RecordsAfter config resolver before earlier)
    (hhalves : doc.RecordsAfter config resolver (before ++ [node]) (earlier ++ [forward, back]))
    (hbindings : doc.RecordsAfter config resolver (before ++ [node] ++ after) bindings)
    (hlocal : resolver.FindsClassesLocally)
    (hindexes : ∀ destination ∈ forward.destination, destination.HasSmallIndexes) :
    ∃ source destination, forward.sourceText = some source ∧
      forward.destinationText = some destination ∧ back.sourceText = some destination ∧
      back.destinationText = some source ∧
      ((earlier.length, earlier.length + 1) ∈ (Database.ofBindings resolver bindings).1.pairs ↔
        PairCandidate.PairsOff source destination (Binding.candidates earlier)) := by
  obtain ⟨source, destination, target, hsource, hdestination, hplaced, htarget, hback, hbackTo⟩ :=
    (hearlier.adds hhalves).exists_halves
  have hforwardFrom : forward.sourceText = some source.text := by
    simp [Binding.sourceText, hsource]
  have hforwardTo : forward.destinationText = some destination.text := by
    simp [Binding.destinationText, hdestination]
  have hbackFrom : back.sourceText = some destination.text := by
    rw [Binding.sourceText, hback, Option.map_some,
      Destination.text_toSource hplaced.chain_ne_nil (hindexes _ hdestination)]
  have hbackTo : back.destinationText = some source.text := by
    simp [Binding.destinationText, hbackTo, Expr.text_of_placement hlocal htarget]
  refine ⟨source.text, destination.text, hforwardFrom, hforwardTo, hbackFrom, hbackTo, ?_⟩
  obtain ⟨later, rfl⟩ := (hhalves.grows hbindings).isPrefix
  have hslot : forward.slot = earlier.length :=
    hhalves.recorded.slot_of_getElem? (by simp)
  have hslot' : back.slot = earlier.length + 1 :=
    hhalves.recorded.slot_of_getElem? (by simp)
  have hcandidates : Binding.candidates (earlier ++ [forward, back] ++ later) =
      Binding.candidates earlier ++ ⟨forward.slot, source.text, destination.text⟩ ::
        ⟨back.slot, destination.text, source.text⟩ :: Binding.candidates later := by
    have hforward : PairCandidate.ofBinding? forward =
        some ⟨forward.slot, source.text, destination.text⟩ :=
      PairCandidate.ofBinding?_eq_some_iff.mpr ⟨rfl, hforwardFrom, hforwardTo⟩
    have hback : PairCandidate.ofBinding? back =
        some ⟨back.slot, destination.text, source.text⟩ :=
      PairCandidate.ofBinding?_eq_some_iff.mpr ⟨rfl, hbackFrom, hbackTo⟩
    simp [Binding.candidates, hforward, hback]
  have hnodup := hbindings.recorded.nodup_slots_candidates
  rw [← hslot', ← hslot]
  show _ ∈ PairCandidate.pair (Binding.candidates _) ↔ _
  rw [hcandidates] at hnodup ⊢
  exact PairCandidate.mem_pair_iff (by simp [PairCandidate.isReverse]) hnodup

/-- A document with two properties. -/
def linkingTable : SymbolTable :=
  ["a", "b"].foldl
    (fun table name => table.declareOwnMember { name, kind := .variable, type := none })
    (SymbolTable.ofDocument "Main")

theorem findsClassesLocally_linkingTable : linkingTable.resolver.FindsClassesLocally :=
  SymbolTable.findsClassesLocally (by decide)

/-- A binding between two properties of the document. -/
def linkingBinding (slot : Nat) (source destination : String) : Binding where
  slot := slot
  source := some (.identifier source .unknown)
  destination := some ⟨.document, [{ name := destination }], false, .unknown⟩
  isSimple := true
  span := .unknown

/-- A tag for such a binding. -/
def linkingTag (source destination : String) (twoWay : Bool) : NodeKind :=
  .binding (some (.identifier source .unknown)) (some (.identifier destination .unknown)) twoWay

/-- A document with a tag and behind it a two-way tag from `a` to `b`. -/
def linkingDocument (first : NodeKind) : Document :=
  ((Document.ofClass "Main").add 0 first .unknown).add 0 (linkingTag "a" "b" true) .unknown

/-- Behind a two-way binding between the same properties the halves are paired with each other. -/
theorem Document.mem_pairs_halves_iff_repeated :
    let doc := linkingDocument (linkingTag "a" "b" true)
    let earlier := [linkingBinding 0 "a" "b", linkingBinding 1 "b" "a"]
    let halves := [linkingBinding 2 "a" "b", linkingBinding 3 "b" "a"]
    doc.RecordsAfter {} linkingTable.resolver [1] earlier ∧
      doc.RecordsAfter {} linkingTable.resolver [1, 2] (earlier ++ halves) ∧
      linkingTable.resolver.FindsClassesLocally ∧
      (2, 3) ∈ (Database.ofBindings linkingTable.resolver (earlier ++ halves)).1.pairs := by
  intro doc earlier halves
  have hearlier : doc.RecordsAfter {} linkingTable.resolver [1] earlier := ⟨_, _, rfl, rfl⟩
  have hhalves : doc.RecordsAfter {} linkingTable.resolver [1, 2] (earlier ++ halves) :=
    ⟨_, _, rfl, rfl⟩
  have hall : doc.RecordsAfter {} linkingTable.resolver ([1] ++ [2] ++ []) (earlier ++ halves) :=
    hhalves
  have hindexes : ∀ destination ∈ (linkingBinding 2 "a" "b").destination,
      destination.HasSmallIndexes := by
    simp [linkingBinding, Destination.HasSmallIndexes]
  obtain ⟨source, destination, hsource, hdestination, -, -, hpaired⟩ :=
    mem_pairs_halves_iff hearlier hhalves hall findsClassesLocally_linkingTable hindexes
  refine ⟨hearlier, hhalves, findsClassesLocally_linkingTable, hpaired.mpr ?_⟩
  obtain rfl := Option.some.inj hsource
  obtain rfl := Option.some.inj hdestination
  decide +kernel

/-- Behind a binding from `b` to `a` the halves of a two-way binding from `a` to `b` are not paired
with each other: the earlier binding takes the first of them. -/
theorem Document.halves_not_paired_behind_one_way :
    let doc := linkingDocument (linkingTag "b" "a" false)
    let earlier := [linkingBinding 0 "b" "a"]
    let halves := [linkingBinding 1 "a" "b", linkingBinding 2 "b" "a"]
    doc.RecordsAfter {} linkingTable.resolver [1] earlier ∧
      doc.RecordsAfter {} linkingTable.resolver [1, 2] (earlier ++ halves) ∧
      linkingTable.resolver.FindsClassesLocally ∧
      (∀ destination ∈ (linkingBinding 1 "a" "b").destination, destination.HasSmallIndexes) ∧
      (Database.ofBindings linkingTable.resolver (earlier ++ halves)).1.pairs = [(0, 1)] := by
  refine ⟨⟨_, _, rfl, rfl⟩, ⟨_, _, rfl, rfl⟩, findsClassesLocally_linkingTable, ?_, ?_⟩
  · simp [linkingBinding, Destination.HasSmallIndexes]
  · have hcandidates : Binding.candidates
        [linkingBinding 0 "b" "a", linkingBinding 1 "a" "b", linkingBinding 2 "b" "a"] =
          [⟨0, "b", "a"⟩, ⟨1, "a", "b"⟩, ⟨2, "b", "a"⟩] := by decide
    show PairCandidate.pair (Binding.candidates _) = _
    rw [List.cons_append, List.nil_append, hcandidates]
    simp [PairCandidate.pair, PairCandidate.isReverse]

end Bindery
