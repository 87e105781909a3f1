import Bindery.Proofs.Binding.Linking

/-!
# No pair is missed

Bindings are paired greedily, each with the first later one that is its reverse. Nothing is lost
that way: between any two texts as many bindings are paired as there are on the scarcer side, and no
other way of pairing them leaves fewer of them alone.
-/

namespace Bindery

/-! ## Pairs of slots -/

namespace Binding

/-- Whether a binding goes from one text to another. -/
def goes (source destination : String) (binding : Binding) : Bool :=
  binding.sourceText = some source && binding.destinationText = some destination

/-- Whether the binding in a slot goes from one text to another. -/
def goesAt (bindings : List Binding) (source destination : String) (slot : Nat) : Bool :=
  bindings[slot]?.any (goes source destination)

/-- Whether two slots hold a binding from one text to another and one that goes back, in some
order. -/
def joins (bindings : List Binding) (source destination : String) (pair : Nat × Nat) : Bool :=
  goesAt bindings source destination pair.1 && goesAt bindings destination source pair.2 ||
    goesAt bindings destination source pair.1 && goesAt bindings source destination pair.2

/-- The source text of each of two bindings is the destination text of the other one. -/
def AreReverse (bindings : List Binding) (pair : Nat × Nat) : Prop :=
  ∃ source destination, goesAt bindings source destination pair.1 ∧
    goesAt bindings destination source pair.2

/-- Pairs of bindings that are the reverse of each other, in which no slot occurs twice. -/
structure IsMatching (bindings : List Binding) (pairs : List (Nat × Nat)) : Prop where
  nodup_halves : (PairCandidate.halves pairs).Nodup
  areReverse : ∀ pair ∈ pairs, AreReverse bindings pair

variable {bindings : List Binding} {source destination : String}

theorem goes_iff {binding : Binding} : binding.goes source destination = true ↔
    binding.sourceText = some source ∧ binding.destinationText = some destination := by
  simp [goes]

/-- The source and the destination text of a binding that has both. -/
def texts? (binding : Binding) : Option (String × String) := do
  return (← binding.sourceText, ← binding.destinationText)

theorem texts?_eq_some_iff {binding : Binding} :
    binding.texts? = some (source, destination) ↔ binding.goes source destination = true := by
  cases hsource : binding.sourceText <;> cases hdestination : binding.destinationText <;>
    simp [texts?, goes, hsource, hdestination]

/-- The two texts of the binding in a slot. -/
def textsAt? (bindings : List Binding) (slot : Nat) : Option (String × String) :=
  bindings[slot]?.bind texts?

theorem textsAt?_eq_some_iff {slot : Nat} : textsAt? bindings slot = some (source, destination) ↔
    goesAt bindings source destination slot = true := by
  simp only [textsAt?, goesAt, Option.bind_eq_some_iff, Option.any_eq_true, texts?_eq_some_iff]

/-- A binding goes from one text to one other. -/
theorem goesAt_eq_decide {source' destination' : String} {slot : Nat}
    (h : goesAt bindings source destination slot = true) :
    goesAt bindings source' destination' slot =
      decide (source = source' ∧ destination = destination') := by
  have htexts := textsAt?_eq_some_iff.mpr h
  rw [Bool.eq_iff_iff, ← textsAt?_eq_some_iff, htexts]
  simp

/-- As many slots as bindings go from one text to another. -/
theorem countP_goesAt_range (bindings : List Binding) (source destination : String) :
    (List.range bindings.length).countP (goesAt bindings source destination) =
      bindings.countP (goes source destination) := by
  have hslots : (List.range bindings.length).map (bindings[·]?) = bindings.map some := by
    refine List.ext_getElem? fun i => ?_
    by_cases hi : i < bindings.length
    · simp [hi]
    · simp [hi]
  calc (List.range bindings.length).countP (goesAt bindings source destination)
      = ((List.range bindings.length).map (bindings[·]?)).countP
          (Option.any (goes source destination)) := (List.countP_map ..).symm
    _ = bindings.countP (goes source destination) := by
        rw [hslots, List.countP_map]
        rfl

/-- Of two bindings that are the reverse of each other, one goes from a text to another if they are
joined between these texts, and both do if the texts are the same. -/
theorem AreReverse.countP_eq {pair : Nat × Nat} (h : AreReverse bindings pair)
    (source destination : String) :
    [pair.1, pair.2].countP (goesAt bindings source destination) =
      (if source = destination then 2 else 1) *
        [pair].countP (joins bindings source destination) := by
  obtain ⟨source', destination', hforth, hback⟩ := h
  simp only [List.countP_cons, List.countP_nil, joins, goesAt_eq_decide hforth,
    goesAt_eq_decide hback]
  by_cases hsame : source = destination
  · grind
  · by_cases hsource : source' = source <;> by_cases hdestination : destination' = source <;> grind

/-- In a matching, one binding for each pair that joins two texts goes from the one to the other,
and two do if the texts are the same. -/
theorem IsMatching.countP_halves {pairs : List (Nat × Nat)} (h : IsMatching bindings pairs)
    (source destination : String) :
    (PairCandidate.halves pairs).countP (goesAt bindings source destination) =
      (if source = destination then 2 else 1) *
        pairs.countP (joins bindings source destination) := by
  have hpairs := h.areReverse
  clear h
  induction pairs with
  | nil => simp [PairCandidate.halves]
  | cons pair pairs ih =>
    have hfirst := (hpairs pair List.mem_cons_self).countP_eq source destination
    have hrest := ih fun other hother => hpairs other (List.mem_cons_of_mem _ hother)
    rw [← List.singleton_append, List.countP_append, Nat.mul_add, ← hfirst, ← hrest,
      ← List.countP_append]
    rfl

/-- The slots of a matching are slots of bindings. -/
theorem IsMatching.countP_halves_le {pairs : List (Nat × Nat)} (h : IsMatching bindings pairs)
    (source destination : String) :
    (PairCandidate.halves pairs).countP (goesAt bindings source destination) ≤
      bindings.countP (goes source destination) := by
  have hsubset : (PairCandidate.halves pairs).filter (goesAt bindings source destination) ⊆
      (List.range bindings.length).filter (goesAt bindings source destination) := by
    intro slot hslot
    obtain ⟨-, hgoes⟩ := List.mem_filter.mp hslot
    obtain ⟨binding, hbinding, -⟩ := (Option.any_eq_true _ _).mp hgoes
    exact List.mem_filter.mpr
      ⟨List.mem_range.mpr (List.getElem?_eq_some_iff.mp hbinding).1, hgoes⟩
  rw [← countP_goesAt_range, List.countP_eq_length_filter, List.countP_eq_length_filter]
  exact ((h.nodup_halves.filter _).subperm hsubset).length_le

/-- How many pairs there are at most between two texts. -/
theorem IsMatching.countP_joins_le {pairs : List (Nat × Nat)} (h : IsMatching bindings pairs)
    (source destination : String) :
    pairs.countP (joins bindings source destination) ≤
      if source = destination then bindings.countP (goes source destination) / 2
      else min (bindings.countP (goes source destination))
        (bindings.countP (goes destination source)) := by
  have hforth := h.countP_halves_le source destination
  have hback := h.countP_halves_le destination source
  have hjoins : joins bindings destination source = joins bindings source destination :=
    funext fun pair => Bool.or_comm ..
  rw [h.countP_halves] at hforth hback
  rw [hjoins] at hback
  by_cases hsame : source = destination
  · rw [if_pos hsame] at hforth ⊢
    omega
  · rw [if_neg hsame] at hforth ⊢
    rw [if_neg (Ne.symm hsame)] at hback
    omega

end Binding

/-! ## Pairing candidates -/

namespace PairCandidate

/-- Of candidates in ascending order the first one of a pair comes first. -/
theorem lt_of_mem_pair {candidates : List PairCandidate}
    (hsorted : (candidates.map PairCandidate.slot).Pairwise (· < ·)) {i j : Nat}
    (h : (i, j) ∈ pair candidates) : i < j := by
  induction candidates using pair_induction with
  | nil => simp [pair] at h
  | alone first rest _ heq ih =>
    rw [heq] at h
    exact ih (List.pairwise_cons.mp hsorted).2 h
  | paired first before other after _ _ heq ih =>
    obtain ⟨hfirst, hrest⟩ := List.pairwise_cons.mp hsorted
    rw [heq] at h
    rcases List.mem_cons.mp h with hpair | h
    · obtain ⟨rfl, rfl⟩ := Prod.mk.inj hpair
      exact hfirst _ (List.mem_map_of_mem (by simp))
    · have hsublist : (before ++ after).Sublist (before ++ other :: after) :=
        (List.sublist_cons_self other after).append_left before
      exact ih (hrest.sublist (hsublist.map PairCandidate.slot)) h

/-- How many of the candidates between two texts can be paired, two at a time. -/
def mostPairs (source destination : String) (candidates : List PairCandidate) : Nat :=
  if source = destination then candidates.countP (goes source destination) / 2
  else min (candidates.countP (goes source destination))
    (candidates.countP (goes destination source))

/-- A candidate without a reverse makes no further pair possible. -/
theorem mostPairs_cons {first : PairCandidate} {rest : List PairCandidate}
    (hnone : ∀ other ∈ rest, ¬first.isReverse other = true) (source destination : String) :
    mostPairs source destination (first :: rest) = mostPairs source destination rest := by
  have hzero : rest.countP (goes first.destination first.source) = 0 :=
    List.countP_eq_zero.mpr hnone
  unfold mostPairs
  simp only [List.countP_cons, goes_iff]
  grind

/-- Two candidates that are the reverse of each other make one more pair possible between their
texts. -/
theorem mostPairs_cons_append_cons {first other : PairCandidate}
    (h : first.isReverse other = true) (before after : List PairCandidate)
    (source destination : String) :
    mostPairs source destination (first :: (before ++ other :: after)) =
      mostPairs source destination (before ++ after) +
        if first.goes source destination || first.goes destination source then 1 else 0 := by
  unfold mostPairs
  simp only [List.countP_cons, List.countP_append, goes_of_isReverse h]
  by_cases hsame : source = destination
  · subst hsame
    cases first.goes source source <;> simp
    omega
  · have hboth : ¬(first.goes source destination = true ∧
        first.goes destination source = true) := by
      rintro ⟨hforth, hback⟩
      exact hsame ((goes_iff.mp hforth).1.symm.trans (goes_iff.mp hback).1)
    cases hforth : first.goes source destination <;>
      cases hback : first.goes destination source <;> simp_all <;> omega

/-- Between any two texts there are as many pairs as possible. -/
theorem countP_joins_pair {bindings : List Binding} {candidates : List PairCandidate}
    (h : ∀ candidate ∈ candidates, ∀ source destination,
      Binding.goesAt bindings source destination candidate.slot =
        candidate.goes source destination) (source destination : String) :
    (pair candidates).countP (Binding.joins bindings source destination) =
      mostPairs source destination candidates := by
  induction candidates using pair_induction with
  | nil => simp [pair, mostPairs]
  | alone first rest hnone heq ih =>
    rw [heq, mostPairs_cons hnone]
    exact ih fun candidate hmem => h candidate (List.mem_cons_of_mem _ hmem)
  | paired first before other after hreverse _ heq ih =>
    have hsublist : (before ++ after).Sublist (first :: (before ++ other :: after)) :=
      ((List.sublist_cons_self other after).append_left before).cons first
    have hjoins : Binding.joins bindings source destination (first.slot, other.slot) =
        (first.goes source destination || first.goes destination source) := by
      simp only [Binding.joins, h first List.mem_cons_self, h other (by simp),
        goes_of_isReverse hreverse, Bool.and_self]
    rw [heq, List.countP_cons, hjoins, mostPairs_cons_append_cons hreverse,
      ih fun candidate hmem => h candidate (hsublist.subset hmem)]

end PairCandidate

/-! ## Pairing bindings -/

/-- As many candidates as bindings go from one text to another. -/
theorem Binding.countP_goes_candidates (bindings : List Binding) (source destination : String) :
    (candidates bindings).countP (PairCandidate.goes source destination) =
      bindings.countP (goes source destination) := by
  rw [candidates, List.countP_filterMap]
  refine List.countP_congr fun binding _ => ?_
  cases hcandidate : PairCandidate.ofBinding? binding with
  | none =>
    have hnone : ¬goes source destination binding = true := by
      intro hgoes
      obtain ⟨hsource, hdestination⟩ := goes_iff.mp hgoes
      have hsome : PairCandidate.ofBinding? binding = some ⟨binding.slot, source, destination⟩ :=
        PairCandidate.ofBinding?_eq_some_iff.mpr ⟨rfl, hsource, hdestination⟩
      exact absurd (hcandidate.symm.trans hsome) (by simp)
    simp [hnone]
  | some candidate =>
    obtain ⟨-, hsource, hdestination⟩ := PairCandidate.ofBinding?_eq_some_iff.mp hcandidate
    simp [goes_iff, PairCandidate.goes_iff, hsource, hdestination]

/-- What goes from one text to another at the slot of a candidate is the candidate. -/
theorem Recorded.goesAt_slot {bindings : List Binding} (h : Recorded bindings)
    {candidate : PairCandidate} (hmem : candidate ∈ Binding.candidates bindings)
    (source destination : String) :
    Binding.goesAt bindings source destination candidate.slot =
      candidate.goes source destination := by
  obtain ⟨binding, hbinding, hcandidate⟩ := List.mem_filterMap.mp hmem
  obtain ⟨hslot, hsource, hdestination⟩ := PairCandidate.ofBinding?_eq_some_iff.mp hcandidate
  rw [Binding.goesAt, hslot, h.getElem?_slot hbinding, Option.any_some, Binding.goes, hsource,
    hdestination]
  simp [PairCandidate.goes]

/-- Among recorded bindings the first binding of a pair comes first. -/
theorem Recorded.lt_of_mem_pair {bindings : List Binding} (h : Recorded bindings) {i j : Nat}
    (hpair : (i, j) ∈ PairCandidate.pair (Binding.candidates bindings)) : i < j := by
  refine PairCandidate.lt_of_mem_pair ?_ hpair
  refine List.Pairwise.sublist (PairCandidate.sublist_slots bindings) ?_
  rw [h.map_slot]
  exact List.pairwise_lt_range

namespace Database

variable {bindings : List Binding}

/-- The pairs of recorded bindings are a matching. -/
theorem isMatching_ofBindings (h : Recorded bindings) (resolver : Resolver) :
    Binding.IsMatching bindings (ofBindings resolver bindings).1.pairs where
  nodup_halves := nodup_halves_ofBindings h
  areReverse := by
    rintro ⟨i, j⟩ hpair
    obtain ⟨a, ha, b, hb, rfl, rfl, hreverse⟩ := PairCandidate.exists_of_mem_pair hpair
    obtain ⟨hsource, hdestination⟩ : b.source = a.destination ∧ b.destination = a.source := by
      simpa [PairCandidate.isReverse] using hreverse
    refine ⟨a.source, a.destination, ?_, ?_⟩
    · rw [h.goesAt_slot ha]
      exact PairCandidate.goes_iff.mpr ⟨rfl, rfl⟩
    · rw [h.goesAt_slot hb]
      exact PairCandidate.goes_iff.mpr ⟨hsource, hdestination⟩

/-- Between any two texts as many recorded bindings are paired as possible. -/
theorem countP_joins_ofBindings (h : Recorded bindings) (resolver : Resolver)
    (source destination : String) :
    (ofBindings resolver bindings).1.pairs.countP (Binding.joins bindings source destination) =
      if source = destination then bindings.countP (Binding.goes source destination) / 2
      else min (bindings.countP (Binding.goes source destination))
        (bindings.countP (Binding.goes destination source)) := by
  have hcandidates : (ofBindings resolver bindings).1.pairs.countP
      (Binding.joins bindings source destination) =
        PairCandidate.mostPairs source destination (Binding.candidates bindings) :=
    PairCandidate.countP_joins_pair (fun _ hmem => h.goesAt_slot hmem) source destination
  rw [hcandidates]
  simp only [PairCandidate.mostPairs, Binding.countP_goes_candidates]

/-- No matching pairs more bindings that go from one text to another. -/
theorem countP_halves_le_of_isMatching (h : Recorded bindings) (resolver : Resolver)
    {others : List (Nat × Nat)} (hothers : Binding.IsMatching bindings others)
    (source destination : String) :
    (PairCandidate.halves others).countP (Binding.goesAt bindings source destination) ≤
      (PairCandidate.halves (ofBindings resolver bindings).1.pairs).countP
        (Binding.goesAt bindings source destination) := by
  rw [hothers.countP_halves, (isMatching_ofBindings h resolver).countP_halves,
    countP_joins_ofBindings h resolver]
  exact Nat.mul_le_mul_left _ (hothers.countP_joins_le source destination)

/-- No matching has more pairs. -/
theorem length_le_of_isMatching (h : Recorded bindings) (resolver : Resolver)
    {others : List (Nat × Nat)} (hothers : Binding.IsMatching bindings others) :
    others.length ≤ (ofBindings resolver bindings).1.pairs.length := by
  let texts := fun pairs => (PairCandidate.halves pairs).map (Binding.textsAt? bindings)
  -- The two bindings of a pair have both texts, so every half of a pair is counted for some texts.
  have hsubperm : (texts others).Subperm (texts (ofBindings resolver bindings).1.pairs) := by
    refine List.subperm_ext_iff.mpr fun text htext => ?_
    obtain ⟨slot, hslot, rfl⟩ := List.mem_map.mp htext
    obtain ⟨pair, hpair, hhalf⟩ := List.mem_flatMap.mp hslot
    obtain ⟨source, destination, hgoes⟩ : ∃ source destination,
        Binding.goesAt bindings source destination slot = true := by
      obtain ⟨source, destination, hforth, hback⟩ := hothers.areReverse pair hpair
      rcases List.mem_pair.mp hhalf with rfl | rfl
      · exact ⟨source, destination, hforth⟩
      · exact ⟨destination, source, hback⟩
    have hcount (pairs : List (Nat × Nat)) : (texts pairs).count (some (source, destination)) =
        (PairCandidate.halves pairs).countP (Binding.goesAt bindings source destination) := by
      rw [List.count, List.countP_map]
      refine List.countP_congr fun slot _ => ?_
      rw [Function.comp_apply, beq_iff_eq, Binding.textsAt?_eq_some_iff]
    rw [Binding.textsAt?_eq_some_iff.mpr hgoes, hcount, hcount]
    exact countP_halves_le_of_isMatching h resolver hothers source destination
  have hlength (pairs : List (Nat × Nat)) : (texts pairs).length = 2 * pairs.length := by
    simp [texts, PairCandidate.halves, List.length_flatMap, Nat.mul_comm]
  have hle := hsubperm.length_le
  rw [hlength, hlength] at hle
  omega

/-- **No pair is missed.** The bindings of a pair are the reverse of each other, the first one comes
first, and no binding is in two pairs. Between two texts there are as many pairs as bindings on the
scarcer side, and half as many as bindings if the texts are the same. So no other matching has more
pairs. -/
theorem isMaximum_pairs (h : Recorded bindings) (resolver : Resolver) :
    let pairs := (ofBindings resolver bindings).1.pairs
    Binding.IsMatching bindings pairs ∧ (∀ pair ∈ pairs, pair.1 < pair.2) ∧
      (∀ source destination, pairs.countP (Binding.joins bindings source destination) =
        if source = destination then bindings.countP (Binding.goes source destination) / 2
        else min (bindings.countP (Binding.goes source destination))
          (bindings.countP (Binding.goes destination source))) ∧
      ∀ others, Binding.IsMatching bindings others → others.length ≤ pairs.length :=
  ⟨isMatching_ofBindings h resolver, fun _ hpair => h.lt_of_mem_pair hpair,
    countP_joins_ofBindings h resolver, fun _ hothers => length_le_of_isMatching h resolver hothers⟩

/-- Three bindings from `a` to `b`, two back, and three from `a` to itself. -/
def matchingBindings : List Binding :=
  [linkingBinding 0 "a" "b", linkingBinding 1 "a" "a", linkingBinding 2 "a" "b",
    linkingBinding 3 "b" "a", linkingBinding 4 "a" "a", linkingBinding 5 "a" "b",
    linkingBinding 6 "b" "a", linkingBinding 7 "a" "a"]

theorem recorded_matchingBindings : Recorded matchingBindings := by
  let record := fun bindings (ends : String × String) =>
    Binding.record linkingTable.resolver (some (.identifier ends.1 .unknown))
      (some ⟨.document, [{ name := ends.2 }], false, .unknown⟩) .unknown bindings
  have hrecorded (ends : List (String × String)) : Recorded (ends.foldl record []) :=
    List.foldlRecOn _ _ .nil fun _ h _ _ => h.record ..
  exact hrecorded [("a", "b"), ("a", "a"), ("a", "b"), ("b", "a"), ("a", "a"), ("a", "b"),
    ("b", "a"), ("a", "a")]

/-- Two of the three bindings from `a` to `b` are paired, and two of those from `a` to itself. -/
theorem isMaximum_pairs_repeated :
    Recorded matchingBindings ∧
      let pairs := (ofBindings linkingTable.resolver matchingBindings).1.pairs
      pairs.countP (Binding.joins matchingBindings "a" "b") = 2 ∧
      pairs.countP (Binding.joins matchingBindings "a" "a") = 1 ∧
      Binding.IsMatching matchingBindings [(2, 3), (0, 6), (4, 7)] ∧ 3 ≤ pairs.length := by
  obtain ⟨-, -, hcount, hmost⟩ := isMaximum_pairs recorded_matchingBindings linkingTable.resolver
  have hother : Binding.IsMatching matchingBindings [(2, 3), (0, 6), (4, 7)] := by
    refine ⟨by decide, ?_⟩
    simp only [List.forall_mem_cons]
    exact ⟨⟨"a", "b", by decide⟩, ⟨"a", "b", by decide⟩, ⟨"a", "a", by decide⟩, by simp⟩
  refine ⟨recorded_matchingBindings, (hcount "a" "b").trans (by decide),
    (hcount "a" "a").trans (by decide), hother, hmost _ hother⟩

end Database

end Bindery
