import Bindery.Proofs.Binding.Recording
import Mathlib.Data.List.Nodup
import Mathlib.Data.List.Perm.Subperm

/-!
# Two halves of one binding

The pairing of recorded bindings takes every binding into one pair at most, so that no binding is
paired with itself or with two others.
-/

namespace Bindery

namespace PairCandidate

/-- The first candidate stays alone, or it is paired with the first later one that is its reverse,
which is then taken. -/
theorem pair_cons (first : PairCandidate) (rest : List PairCandidate) :
    ((∀ other ∈ rest, ¬first.isReverse other) ∧ pair (first :: rest) = pair rest) ∨
      ∃ before other after, rest = before ++ other :: after ∧ first.isReverse other ∧
        (∀ earlier ∈ before, ¬first.isReverse earlier) ∧
        pair (first :: rest) = (first.slot, other.slot) :: pair (before ++ after) := by
  rw [pair]
  cases hfind : rest.find? first.isReverse with
  | none =>
    left
    refine ⟨?_, rfl⟩
    simpa using hfind
  | some other =>
    right
    obtain ⟨hreverse, before, after, hrest, hbefore⟩ := List.find?_eq_some_iff_append.mp hfind
    have hnone : ∀ earlier ∈ before, ¬first.isReverse earlier := by simpa using hbefore
    refine ⟨before, other, after, hrest, hreverse, hnone, ?_⟩
    have herase : rest.eraseP first.isReverse = before ++ after := by
      rw [hrest, List.eraseP_append_right _ hnone, List.eraseP_cons_of_pos hreverse]
    simp only [herase]

/-- Induction along the pairing: the first candidate stays alone, or it is paired and its partner is
left out of the rest. -/
@[elab_as_elim]
theorem pair_induction {motive : List PairCandidate → Prop} (nil : motive [])
    (alone : ∀ first rest, (∀ other ∈ rest, ¬first.isReverse other) →
      pair (first :: rest) = pair rest → motive rest → motive (first :: rest))
    (paired : ∀ first before other after, first.isReverse other →
      (∀ earlier ∈ before, ¬first.isReverse earlier) →
      pair (first :: (before ++ other :: after)) =
        (first.slot, other.slot) :: pair (before ++ after) →
      motive (before ++ after) → motive (first :: (before ++ other :: after)))
    (candidates : List PairCandidate) : motive candidates := by
  match candidates with
  | [] => exact nil
  | first :: rest =>
    rcases pair_cons first rest with
      ⟨hnone, heq⟩ | ⟨before, other, after, rfl, hreverse, hnone, heq⟩
    · exact alone first rest hnone heq (pair_induction nil alone paired rest)
    · have hless : (before ++ after).length < (first :: (before ++ other :: after)).length := by
        simp only [List.length_append, List.length_cons]
        omega
      exact paired first before other after hreverse hnone heq
        (pair_induction nil alone paired (before ++ after))
termination_by candidates.length

/-- The slots of both halves of some pairs. -/
def halves (pairs : List (Nat × Nat)) : List Nat := pairs.flatMap fun pair => [pair.1, pair.2]

/-- Every candidate is taken into one pair at most. -/
theorem halves_pair_subperm (candidates : List PairCandidate) :
    (halves (pair candidates)).Subperm (candidates.map PairCandidate.slot) := by
  induction candidates using pair_induction with
  | nil =>
    rw [pair]
    exact List.nil_subperm
  | alone first rest _ heq ih =>
    rw [heq, List.map_cons]
    exact ih.cons_right first.slot
  | paired first before other after _ _ heq ih =>
    have hperm : ((before ++ other :: after).map PairCandidate.slot).Perm
        (other.slot :: (before ++ after).map PairCandidate.slot) :=
      (List.perm_middle (a := other)).map PairCandidate.slot
    rw [heq, List.map_cons]
    show (first.slot :: other.slot :: halves (pair (before ++ after))).Subperm _
    exact (List.subperm_cons first.slot).mpr
      (((List.subperm_cons other.slot).mpr ih).trans hperm.symm.subperm)

/-- The halves of a pair are the reverse of each other. -/
theorem exists_of_mem_pair {candidates : List PairCandidate} {i j : Nat}
    (h : (i, j) ∈ pair candidates) : ∃ a ∈ candidates, ∃ b ∈ candidates,
      a.slot = i ∧ b.slot = j ∧ a.isReverse b = true := by
  induction candidates using pair_induction with
  | nil => simp [pair] at h
  | alone first rest _ heq ih =>
    rw [heq] at h
    obtain ⟨a, ha, b, hb, hpair⟩ := ih h
    exact ⟨a, List.mem_cons_of_mem _ ha, b, List.mem_cons_of_mem _ hb, hpair⟩
  | paired first before other after hreverse _ heq ih =>
    have hsublist : (before ++ after).Sublist (first :: (before ++ other :: after)) :=
      ((List.sublist_cons_self other after).append_left before).cons first
    rw [heq] at h
    rcases List.mem_cons.mp h with hpair | h
    · obtain ⟨rfl, rfl⟩ := Prod.mk.inj hpair
      exact ⟨first, List.mem_cons_self, other, by simp, rfl, rfl, hreverse⟩
    · obtain ⟨a, ha, b, hb, hpair⟩ := ih h
      exact ⟨a, hsublist.subset ha, b, hsublist.subset hb, hpair⟩

/-- A candidate is a binding that has both texts. -/
theorem ofBinding?_eq_some_iff {binding : Binding} {candidate : PairCandidate} :
    ofBinding? binding = some candidate ↔ candidate.slot = binding.slot ∧
      binding.sourceText = some candidate.source ∧
      binding.destinationText = some candidate.destination := by
  obtain ⟨slot, source, destination⟩ := candidate
  cases hsource : binding.sourceText with
  | none => simp [ofBinding?, hsource]
  | some text =>
    cases hdestination : binding.destinationText with
    | none => simp [ofBinding?, hsource, hdestination]
    | some text' => simp [ofBinding?, hsource, hdestination, eq_comm]

/-- The slots of the candidates are slots of bindings, in the same order. -/
theorem sublist_slots (bindings : List Binding) :
    ((bindings.filterMap ofBinding?).map PairCandidate.slot).Sublist
      (bindings.map Binding.slot) := by
  induction bindings with
  | nil => exact List.Sublist.slnil
  | cons binding bindings ih =>
    cases hcandidate : ofBinding? binding with
    | none =>
      rw [List.filterMap_cons_none hcandidate, List.map_cons]
      exact ih.cons _
    | some candidate =>
      rw [List.filterMap_cons_some hcandidate, List.map_cons, List.map_cons,
        (ofBinding?_eq_some_iff.mp hcandidate).1]
      exact ih.cons_cons _

/-- Two pairs that have a half in common are the same pair. -/
theorem eq_of_mem_halves {pairs : List (Nat × Nat)} (hnodup : (halves pairs).Nodup)
    {pair other : Nat × Nat} (hpair : pair ∈ pairs) (hother : other ∈ pairs) {slot : Nat}
    (hslot : slot ∈ [pair.1, pair.2]) (hslot' : slot ∈ [other.1, other.2]) : pair = other := by
  induction pairs with
  | nil => simp at hpair
  | cons first rest ih =>
    obtain ⟨-, hrest, hdisjoint⟩ := List.nodup_append.mp hnodup
    have hapart {pair' : Nat × Nat} (hmem : pair' ∈ rest) (hfirst : slot ∈ [first.1, first.2])
        (hlater : slot ∈ [pair'.1, pair'.2]) : False :=
      hdisjoint slot hfirst slot (List.mem_flatMap.mpr ⟨pair', hmem, hlater⟩) rfl
    rcases List.mem_cons.mp hpair with rfl | hpair' <;>
      rcases List.mem_cons.mp hother with rfl | hother'
    · rfl
    · exact absurd hslot' (hapart hother' hslot)
    · exact absurd hslot (hapart hpair' hslot')
    · exact ih hrest hpair' hother'

/-- The halves of a pair are different. -/
theorem ne_of_nodup_halves {pairs : List (Nat × Nat)} (hnodup : (halves pairs).Nodup)
    {pair : Nat × Nat} (hpair : pair ∈ pairs) : pair.1 ≠ pair.2 := by
  have hmem : [pair.1, pair.2] ∈ pairs.map fun pair => [pair.1, pair.2] :=
    List.mem_map.mpr ⟨pair, hpair, rfl⟩
  have htwo : [pair.1, pair.2].Nodup := hnodup.sublist (List.sublist_flatten_of_mem hmem)
  simpa using htwo

end PairCandidate

namespace Database

/-- Two bindings are the halves of a pair, in some order. -/
def Paired (db : Database) (a b : Nat) : Prop := (a, b) ∈ db.pairs ∨ (b, a) ∈ db.pairs

section Paired

variable {db : Database} {a b c : Nat}

theorem Paired.symm (h : db.Paired a b) : db.Paired b a := Or.symm h

theorem Paired.mem_halves (h : db.Paired a b) : a ∈ PairCandidate.halves db.pairs := by
  rcases h with h | h
  · exact List.mem_flatMap.mpr ⟨_, h, List.mem_cons_self⟩
  · exact List.mem_flatMap.mpr ⟨_, h, List.mem_cons_of_mem _ List.mem_cons_self⟩

variable (hnodup : (PairCandidate.halves db.pairs).Nodup)
include hnodup

/-- No binding is paired with itself. -/
theorem not_paired_self : ¬db.Paired a a := by
  rintro (h | h) <;> exact PairCandidate.ne_of_nodup_halves hnodup h rfl

/-- No binding is paired with two others. -/
theorem Paired.unique (h : db.Paired a b) (h' : db.Paired a c) : b = c := by
  have hsame {pair other : Nat × Nat} (hpair : pair ∈ db.pairs) (hother : other ∈ db.pairs)
      (ha : a ∈ [pair.1, pair.2]) (ha' : a ∈ [other.1, other.2]) : pair = other :=
    PairCandidate.eq_of_mem_halves hnodup hpair hother ha ha'
  rcases h with h | h <;> rcases h' with h' | h' <;>
    have heq := Prod.mk.inj (hsame h h' (by simp) (by simp))
  · exact heq.2
  · exact heq.2.trans heq.1
  · exact heq.1.trans heq.2
  · exact heq.1

end Paired

theorem halves_subperm_ofBindings (resolver : Resolver) (bindings : List Binding) :
    (PairCandidate.halves (ofBindings resolver bindings).1.pairs).Subperm
      (bindings.map Binding.slot) :=
  (PairCandidate.halves_pair_subperm _).trans (PairCandidate.sublist_slots bindings).subperm

variable {resolver : Resolver} {bindings : List Binding}

/-- Every recorded binding is in one pair at most. -/
theorem nodup_halves_ofBindings (h : Recorded bindings) :
    (PairCandidate.halves (ofBindings resolver bindings).1.pairs).Nodup := by
  obtain ⟨taken, hperm, hsublist⟩ := halves_subperm_ofBindings resolver bindings
  exact hperm.nodup_iff.mp (h.nodup_slots.sublist hsublist)

/-- The halves of a pair are slots of recorded bindings. -/
theorem lt_length_of_mem_halves (h : Recorded bindings) {slot : Nat}
    (hslot : slot ∈ PairCandidate.halves (ofBindings resolver bindings).1.pairs) :
    slot < bindings.length := by
  have hmem := (halves_subperm_ofBindings resolver bindings).subset hslot
  rw [h.map_slot] at hmem
  exact List.mem_range.mp hmem

/-- A pair is made of two different recorded bindings. -/
theorem ne_and_lt_length_of_mem_pairs (h : Recorded bindings) {pair : Nat × Nat}
    (hpair : pair ∈ (ofBindings resolver bindings).1.pairs) :
    pair.1 ≠ pair.2 ∧ pair.1 < bindings.length ∧ pair.2 < bindings.length := by
  have hhalf {slot : Nat} (hslot : slot ∈ [pair.1, pair.2]) : slot < bindings.length :=
    lt_length_of_mem_halves h (List.mem_flatMap.mpr ⟨pair, hpair, hslot⟩)
  exact ⟨PairCandidate.ne_of_nodup_halves (nodup_halves_ofBindings h) hpair, hhalf (by simp),
    hhalf (by simp)⟩

end Database

end Bindery
