import Mathlib.Data.Finset.Card
import Mathlib.Data.Nat.Find

/-!
# Following links

A node names its parent, and a class its base. Such a link can be missing, and it can lead back to
where it comes from. This file says how far one comes by following links: what is met before
something is met for the first time is all different, so that among finitely many places the way
either ends soon or comes back to a place where it has been. A way that comes back has no end.
-/

namespace Bindery

namespace Link

variable {α : Type} {link : α → Option α} {start place : α} {steps : Nat}

/-- Where a number of links lead from a start. -/
def follow (link : α → Option α) : (steps : Nat) → (start : α) → Option α
  | 0, start => some start
  | steps + 1, start => (link start).bind (follow link steps)

/-- After this number of steps, no link leads on. -/
def EndsAfter (link : α → Option α) (start : α) (steps : Nat) : Prop :=
  ∃ top, follow link steps start = some top ∧ link top = none

/-- The way comes to a place from which it leads back to that place. -/
def Returns (link : α → Option α) (start : α) : Prop :=
  ∃ steps place period, follow link steps start = some place ∧ 0 < period ∧
    follow link period place = some place

/-! ## Steps -/

theorem follow_add (link : α → Option α) (steps more : Nat) (start : α) :
    follow link (steps + more) start = (follow link steps start).bind (follow link more) := by
  induction steps generalizing start with
  | zero => simp [follow]
  | succ steps ih =>
    rw [Nat.add_right_comm, follow, follow]
    cases link start with
    | none => rfl
    | some next => exact ih next

/-- The last step, instead of the first one. -/
theorem follow_succ (link : α → Option α) (steps : Nat) (start : α) :
    follow link (steps + 1) start = (follow link steps start).bind link := by
  rw [follow_add]
  congr
  funext next
  cases hnext : link next <;> simp [follow, hnext]

/-- Whoever comes somewhere has come somewhere before. -/
theorem exists_follow_of_le (h : follow link steps start = some place) {fewer : Nat}
    (hle : fewer ≤ steps) : ∃ earlier, follow link fewer start = some earlier := by
  obtain ⟨more, rfl⟩ := Nat.exists_eq_add_of_le hle
  rw [follow_add] at h
  obtain ⟨earlier, hearlier, -⟩ := Option.bind_eq_some_iff.mp h
  exact ⟨earlier, hearlier⟩

/-- Before a step there was a link. -/
theorem link_isSome_of_lt (h : follow link steps start = some place) {fewer : Nat}
    (hlt : fewer < steps) {earlier : α} (hearlier : follow link fewer start = some earlier) :
    (link earlier).isSome := by
  obtain ⟨next, hnext⟩ := exists_follow_of_le h (show fewer + 1 ≤ steps from hlt)
  rw [follow_succ, hearlier, Option.bind_some] at hnext
  simp [hnext]

/-! ## First times -/

/-- What is met on a way is met there for the first time. -/
theorem exists_first {P : α → Prop} (h : follow link steps start = some place) (hplace : P place) :
    ∃ fewer ≤ steps, ∃ first, follow link fewer start = some first ∧ P first ∧
      ∀ less < fewer, ∀ earlier, follow link less start = some earlier → ¬P earlier := by
  classical
  have hmet : ∃ count first, follow link count start = some first ∧ P first :=
    ⟨steps, place, h, hplace⟩
  obtain ⟨first, hfollow, hfirst⟩ := Nat.find_spec hmet
  refine ⟨Nat.find hmet, Nat.find_le ⟨place, h, hplace⟩, first, hfollow, hfirst, ?_⟩
  intro less hlt earlier hearlier hP
  exact Nat.find_min hmet hlt ⟨earlier, hearlier, hP⟩

/-- What is met up to something that is met for the first time is all different: after a repetition
it would have been met before. -/
theorem follow_injOn {P : α → Prop} (h : follow link steps start = some place) (hplace : P place)
    (hfirst : ∀ fewer < steps, ∀ earlier, follow link fewer start = some earlier → ¬P earlier) :
    Set.InjOn (fun count => follow link count start) (Set.Iic steps) := by
  have hno (i j : Nat) (hlt : i < j) (hle : j ≤ steps) :
      follow link i start ≠ follow link j start := by
    intro heq
    have hsteps : follow link steps start = follow link (i + (steps - j)) start := by
      rw [follow_add, heq, ← follow_add]
      congr 1
      omega
    exact hfirst (i + (steps - j)) (by omega) place (hsteps ▸ h) hplace
  intro i hi j hj heq
  rcases lt_trichotomy i j with hlt | rfl | hlt
  · exact absurd heq (hno i j hlt hj)
  · rfl
  · exact absurd heq.symm (hno j i hlt hi)

/-- Something is met for the first time after at most as many steps as there are places that can be
met up to there. -/
theorem le_card_of_first {P : α → Prop} (h : follow link steps start = some place)
    (hplace : P place)
    (hfirst : ∀ fewer < steps, ∀ earlier, follow link fewer start = some earlier → ¬P earlier)
    {places : Finset α} {count : Nat} (hcount : count ≤ steps + 1)
    (hplaces : ∀ fewer < count, ∀ earlier, follow link fewer start = some earlier →
      earlier ∈ places) : count ≤ places.card := by
  have hmaps : ∀ fewer ∈ Finset.range count,
      follow link fewer start ∈ places.map Function.Embedding.some := by
    intro fewer hfewer
    have hlt : fewer < count := Finset.mem_range.mp hfewer
    obtain ⟨earlier, hearlier⟩ := exists_follow_of_le h (show fewer ≤ steps by omega)
    rw [hearlier]
    exact Finset.mem_map_of_mem _ (hplaces fewer hlt earlier hearlier)
  have hinj : Set.InjOn (fun fewer => follow link fewer start) (Finset.range count) := by
    refine (follow_injOn h hplace hfirst).mono fun fewer hfewer => ?_
    have hlt : fewer < count := by simpa using hfewer
    exact Set.mem_Iic.mpr (by omega)
  simpa using Finset.card_le_card_of_injOn _ hmaps hinj

/-! ## Ends -/

/-- There is no way on from an end. -/
theorem EndsAfter.follow_eq_none (h : EndsAfter link start steps) {more : Nat}
    (hlt : steps < more) : follow link more start = none := by
  obtain ⟨top, htop, hnone⟩ := h
  obtain ⟨further, rfl⟩ := Nat.exists_eq_add_of_lt hlt
  rw [Nat.add_assoc, follow_add, htop, Option.bind_some, follow, hnone]
  rfl

/-- A way that stops somewhere has an end before. -/
theorem exists_endsAfter_of_eq_none (h : follow link steps start = none) :
    ∃ fewer < steps, EndsAfter link start fewer := by
  induction steps with
  | zero => simp [follow] at h
  | succ steps ih =>
    cases hplace : follow link steps start with
    | none =>
      obtain ⟨fewer, hlt, hends⟩ := ih hplace
      exact ⟨fewer, by omega, hends⟩
    | some place =>
      rw [follow_succ, hplace, Option.bind_some] at h
      exact ⟨steps, by omega, place, hplace, h⟩

/-- A way that comes back has no end. -/
theorem Returns.follow_isSome (h : Returns link start) (count : Nat) :
    (follow link count start).isSome := by
  obtain ⟨steps, place, period, hplace, hpos, hreturn⟩ := h
  have hround (rounds : Nat) : follow link (steps + rounds * period) start = some place := by
    induction rounds with
    | zero => simpa using hplace
    | succ rounds ih =>
      rw [Nat.succ_mul, ← Nat.add_assoc, follow_add, ih]
      exact hreturn
  have hle : count ≤ steps + count * period := by
    have hperiod : count * 1 ≤ count * period := Nat.mul_le_mul_left count hpos
    omega
  obtain ⟨earlier, hearlier⟩ := exists_follow_of_le (hround count) hle
  simp [hearlier]

theorem Returns.not_endsAfter (h : Returns link start) (steps : Nat) :
    ¬EndsAfter link start steps := by
  intro hends
  have hsome := h.follow_isSome (steps + 1)
  rw [hends.follow_eq_none (Nat.lt_succ_self steps)] at hsome
  simp at hsome

section Finite

variable {places : Finset α} (hplaces : ∀ place, (link place).isSome → place ∈ places)
include hplaces

/-- A way that ends does so after at most as many steps as there are places with links. -/
theorem EndsAfter.le_card (h : EndsAfter link start steps) : steps ≤ places.card := by
  obtain ⟨top, htop, hnone⟩ := h
  refine le_card_of_first (P := fun place => link place = none) htop hnone ?_
    (Nat.le_succ steps) fun fewer hlt earlier hearlier => ?_
  · intro fewer hlt earlier hearlier hend
    have hsome := link_isSome_of_lt htop hlt hearlier
    simp [hend] at hsome
  · exact hplaces earlier (link_isSome_of_lt htop hlt hearlier)

/-- Among finitely many places with links, a way ends or comes back. -/
theorem exists_endsAfter_or_returns (start : α) :
    (∃ steps, EndsAfter link start steps) ∨ Returns link start := by
  by_cases hnone : ∃ steps, follow link steps start = none
  · obtain ⟨steps, hsteps⟩ := hnone
    obtain ⟨fewer, -, hends⟩ := exists_endsAfter_of_eq_none hsteps
    exact .inl ⟨fewer, hends⟩
  · right
    have hsome (count : Nat) : ∃ place, follow link count start = some place :=
      Option.ne_none_iff_exists'.mp fun h => hnone ⟨count, h⟩
    have hmaps : ∀ count ∈ Finset.range (places.card + 1),
        follow link count start ∈ places.map Function.Embedding.some := by
      intro count _
      obtain ⟨place, hplace⟩ := hsome count
      obtain ⟨next, hnext⟩ := hsome (count + 1)
      rw [hplace]
      exact Finset.mem_map_of_mem _
        (hplaces place (link_isSome_of_lt hnext (Nat.lt_succ_self count) hplace))
    obtain ⟨i, -, j, -, hne, heq⟩ := Finset.exists_ne_map_eq_of_card_lt_of_maps_to
      (by simp) hmaps
    have hreturns (i j : Nat) (hlt : i < j) (heq : follow link i start = follow link j start) :
        Returns link start := by
      obtain ⟨place, hplace⟩ := hsome i
      refine ⟨i, place, j - i, hplace, by omega, ?_⟩
      have hj := follow_add link i (j - i) start
      rw [Nat.add_sub_cancel' (Nat.le_of_lt hlt), ← heq, hplace, Option.bind_some] at hj
      exact hj.symm
    rcases Nat.lt_or_gt_of_ne hne with hlt | hlt
    · exact hreturns i j hlt heq
    · exact hreturns j i hlt heq.symm

/-- Among finitely many places with links, the ways that end after at most so many steps are those
that do not come back. -/
theorem exists_endsAfter_iff (start : α) :
    (∃ steps ≤ places.card, EndsAfter link start steps) ↔ ¬Returns link start := by
  constructor
  · rintro ⟨steps, -, hends⟩ hreturns
    exact hreturns.not_endsAfter steps hends
  · intro hreturns
    obtain ⟨steps, hends⟩ := (exists_endsAfter_or_returns hplaces start).resolve_right hreturns
    exact ⟨steps, hends.le_card hplaces, hends⟩

end Finite

end Link

end Bindery
