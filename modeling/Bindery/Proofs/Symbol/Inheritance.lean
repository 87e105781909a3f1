import Bindery.Proofs.Links
import Bindery.Proofs.Symbol.Declarations
import Mathlib.Data.Set.Card

/-!
# Inherited members

A class inherits the members of its base, which inherits those of its own base. A look-up follows
the bases, and it counts the classes that it visits because the bases can lie in a circle. As long
as there are no more different classes on the way than it visits at most, nothing is missed: the
first class that declares a member comes before anything on the way has come again.
-/

namespace Bindery

namespace SymbolTable

open Link

/-- The base of a class. -/
def base? (table : SymbolTable) (qualified : String) : Option String :=
  (table.classes.get? qualified).bind (·.base)

/-- The member that a class itself declares under a name. -/
def ownMember? (table : SymbolTable) (qualified name : String) : Option Definition :=
  (table.classes.get? qualified).bind (·.members.get? name)

/-- The declared classes on the way from a class along the bases. -/
def lineage (table : SymbolTable) (type : String) : Set String :=
  {qualified | (table.classes.get? qualified).isSome ∧
    ∃ steps, follow table.base? steps type = some qualified}

/-- After some steps along the bases, a class declares a member that none declares before. -/
structure NearestAfter (table : SymbolTable) (type name : String) (steps : Nat) (owner : String)
    (definition : Definition) : Prop where
  follow_eq : follow table.base? steps type = some owner
  ownMember?_eq : table.ownMember? owner name = some definition
  none_before : ∀ fewer < steps, ∀ nearer, follow table.base? fewer type = some nearer →
    table.ownMember? nearer name = none

/-- The first class on the way along the bases that declares the member. -/
def Nearest (table : SymbolTable) (type name owner : String) (definition : Definition) : Prop :=
  ∃ steps, table.NearestAfter type name steps owner definition

/-- The look-up of a member finds the declaration of the nearest class. -/
structure FindsNearest (table : SymbolTable) (type name : String) : Prop where
  /-- It finds the member of the first class that declares it. -/
  eq_some_iff : ∀ definition, table.member? type name = some definition ↔
    ∃ owner, table.Nearest type name owner definition
  /-- It finds nothing exactly if none of the classes declares the member. -/
  eq_none_iff : table.member? type name = none ↔
    ∀ qualified ∈ table.lineage type, table.ownMember? qualified name = none
  /-- What it finds names the class that declares it. -/
  owner_eq : ∀ owner definition, table.Nearest type name owner definition →
    definition.owner = some owner

variable {table : SymbolTable} {type name owner : String} {definition : Definition} {steps : Nat}

/-! ## Classes along the bases -/

theorem classes_isSome_of_base? {base : String} (h : table.base? type = some base) :
    (table.classes.get? type).isSome := by
  obtain ⟨entry, hentry, -⟩ := Option.bind_eq_some_iff.mp h
  exact Option.isSome_of_eq_some hentry

theorem classes_isSome_of_ownMember? (h : table.ownMember? type name = some definition) :
    (table.classes.get? type).isSome := by
  obtain ⟨entry, hentry, -⟩ := Option.bind_eq_some_iff.mp h
  exact Option.isSome_of_eq_some hentry

/-- Whoever declares a member on the way is one of the declared classes on it. -/
theorem mem_lineage_of_ownMember? (hfollow : follow table.base? steps type = some owner)
    (h : table.ownMember? owner name = some definition) : owner ∈ table.lineage type :=
  ⟨classes_isSome_of_ownMember? h, steps, hfollow⟩

/-- Up to a class that declares a member, all classes on the way are declared. -/
theorem NearestAfter.mem_lineage (h : table.NearestAfter type name steps owner definition)
    {fewer : Nat} (hle : fewer ≤ steps) {nearer : String}
    (hnearer : follow table.base? fewer type = some nearer) : nearer ∈ table.lineage type := by
  rcases Nat.lt_or_eq_of_le hle with hlt | rfl
  · obtain ⟨base, hbase⟩ :=
      Option.isSome_iff_exists.mp (link_isSome_of_lt h.follow_eq hlt hnearer)
    exact ⟨classes_isSome_of_base? hbase, fewer, hnearer⟩
  · obtain rfl := Option.some.inj (hnearer.symm.trans h.follow_eq)
    exact mem_lineage_of_ownMember? hnearer h.ownMember?_eq

/-- A class that declares a member has a nearest one before it, or is the nearest one. -/
theorem exists_nearest (hfollow : follow table.base? steps type = some owner)
    (h : table.ownMember? owner name = some definition) :
    ∃ nearest found, table.Nearest type name nearest found := by
  obtain ⟨count, -, nearest, hcount, hfound, hfirst⟩ :=
    exists_first (P := fun qualified => (table.ownMember? qualified name).isSome) hfollow
      (Option.isSome_of_eq_some h)
  obtain ⟨found, hfound⟩ := Option.isSome_iff_exists.mp hfound
  refine ⟨nearest, found, count, hcount, hfound, fun fewer hlt nearer hnearer => ?_⟩
  simpa using hfirst fewer hlt nearer hnearer

/-- **Circles are covered.** The nearest class that declares a member is reached before any class on
the way comes again, so after fewer steps than there are classes on it. -/
theorem NearestAfter.lt_encard_lineage (h : table.NearestAfter type name steps owner definition) :
    steps < (table.lineage type).encard := by
  by_cases hfinite : (table.lineage type).Finite
  · have hfirst : ∀ fewer < steps, ∀ nearer, follow table.base? fewer type = some nearer →
        ¬(table.ownMember? nearer name).isSome := by
      intro fewer hlt nearer hnearer
      simp [h.none_before fewer hlt nearer hnearer]
    have hcard : steps + 1 ≤ hfinite.toFinset.card := by
      refine le_card_of_first (P := fun qualified => (table.ownMember? qualified name).isSome)
        h.follow_eq (Option.isSome_of_eq_some h.ownMember?_eq) hfirst le_rfl
        fun fewer hlt nearer hnearer => ?_
      rw [Set.Finite.mem_toFinset]
      exact h.mem_lineage (Nat.le_of_lt_succ hlt) hnearer
    rw [hfinite.encard_eq_coe_toFinset_card]
    exact_mod_cast hcard
  · rw [Set.encard_eq_top hfinite]
    exact ENat.natCast_lt_top steps

/-- There are no more classes on a way than in the table. -/
theorem encard_lineage_le (table : SymbolTable) (type : String) :
    (table.lineage type).encard ≤ table.classes.length := by
  have hsubset : table.lineage type ⊆ (table.classes.map Prod.fst).toFinset := by
    rintro qualified ⟨hdeclared, -⟩
    obtain ⟨entry, hentry⟩ := Option.isSome_iff_exists.mp hdeclared
    simpa using ⟨entry, Dictionary.mem_of_get? hentry⟩
  have hcard := (table.classes.map Prod.fst).toFinset_card_le
  rw [List.length_map] at hcard
  calc (table.lineage type).encard
      ≤ ((table.classes.map Prod.fst).toFinset : Set String).encard := Set.encard_le_encard hsubset
    _ = (table.classes.map Prod.fst).toFinset.card := Set.encard_coe_eq_coe_finsetCard _
    _ ≤ table.classes.length := by exact_mod_cast hcard

/-! ## Look-ups along the bases -/

/-- A look-up takes what the class declares, or goes on to its base. -/
theorem findMember?_succ (table : SymbolTable) (name : String) (fuel : Nat) (type : String) :
    findMember? table.classes name (fuel + 1) type = (table.ownMember? type name).or
      ((table.base? type).bind (findMember? table.classes name fuel)) := by
  rw [findMember?, ownMember?, base?]
  cases table.classes.get? type with
  | none => rfl
  | some entry =>
    simp only [Option.bind_eq_bind, Option.bind_some]
    cases entry.members.get? name <;> cases entry.base <;> rfl

theorem nearestAfter_zero_iff :
    table.NearestAfter type name 0 owner definition ↔
      type = owner ∧ table.ownMember? owner name = some definition := by
  constructor
  · intro h
    exact ⟨Option.some.inj h.follow_eq, h.ownMember?_eq⟩
  · rintro ⟨rfl, h⟩
    exact ⟨rfl, h, by simp⟩

/-- Farther than a class that does not declare the member, the nearest one is nearest to its
base. -/
theorem nearestAfter_succ_iff :
    table.NearestAfter type name (steps + 1) owner definition ↔
      table.ownMember? type name = none ∧
        ∃ base, table.base? type = some base ∧
          table.NearestAfter base name steps owner definition := by
  constructor
  · intro h
    obtain ⟨base, hbase, hfollow⟩ := Option.bind_eq_some_iff.mp h.follow_eq
    refine ⟨h.none_before 0 (Nat.succ_pos steps) type rfl, base, hbase, hfollow, h.ownMember?_eq,
      fun fewer hlt nearer hnearer => ?_⟩
    refine h.none_before (fewer + 1) (Nat.succ_lt_succ hlt) nearer ?_
    rw [follow, hbase, Option.bind_some, hnearer]
  · rintro ⟨hown, base, hbase, h⟩
    refine ⟨by rw [follow, hbase, Option.bind_some, h.follow_eq], h.ownMember?_eq,
      fun fewer hlt nearer hnearer => ?_⟩
    cases fewer with
    | zero =>
      obtain rfl := Option.some.inj hnearer
      exact hown
    | succ fewer =>
      rw [follow, hbase, Option.bind_some] at hnearer
      exact h.none_before fewer (Nat.lt_of_succ_lt_succ hlt) nearer hnearer

/-- A look-up finds the nearest member if it is near enough. -/
theorem findMember?_eq_some_iff {fuel : Nat} :
    findMember? table.classes name fuel type = some definition ↔
      ∃ steps < fuel, ∃ owner, table.NearestAfter type name steps owner definition := by
  induction fuel generalizing type with
  | zero => simp [findMember?]
  | succ fuel ih =>
    rw [findMember?_succ]
    constructor
    · intro h
      cases hown : table.ownMember? type name with
      | some found =>
        rw [hown, Option.some_or] at h
        obtain rfl := Option.some.inj h
        exact ⟨0, Nat.succ_pos fuel, type, nearestAfter_zero_iff.mpr ⟨rfl, hown⟩⟩
      | none =>
        rw [hown, Option.none_or] at h
        obtain ⟨base, hbase, hfind⟩ := Option.bind_eq_some_iff.mp h
        obtain ⟨steps, hlt, owner, hnearest⟩ := ih.mp hfind
        exact ⟨steps + 1, Nat.succ_lt_succ hlt, owner,
          nearestAfter_succ_iff.mpr ⟨hown, base, hbase, hnearest⟩⟩
    · rintro ⟨steps, hlt, owner, hnearest⟩
      cases steps with
      | zero =>
        obtain ⟨rfl, hown⟩ := nearestAfter_zero_iff.mp hnearest
        rw [hown, Option.some_or]
      | succ steps =>
        obtain ⟨hown, base, hbase, hnext⟩ := nearestAfter_succ_iff.mp hnearest
        rw [hown, Option.none_or, hbase, Option.bind_some]
        exact ih.mpr ⟨steps, Nat.lt_of_succ_lt_succ hlt, owner, hnext⟩

/-- Among no more classes than a look-up visits, it finds the nearest member. -/
theorem member?_eq_some_iff (h : (table.lineage type).encard ≤ lookupLimit) :
    table.member? type name = some definition ↔
      ∃ owner, table.Nearest type name owner definition := by
  rw [member?, findMember?_eq_some_iff]
  constructor
  · rintro ⟨steps, -, owner, hnearest⟩
    exact ⟨owner, steps, hnearest⟩
  · rintro ⟨owner, steps, hnearest⟩
    have hlt : (steps : ℕ∞) < lookupLimit := hnearest.lt_encard_lineage.trans_le h
    exact ⟨steps, by exact_mod_cast hlt, owner, hnearest⟩

theorem member?_eq_none_iff (h : (table.lineage type).encard ≤ lookupLimit) :
    table.member? type name = none ↔
      ∀ qualified ∈ table.lineage type, table.ownMember? qualified name = none := by
  constructor
  · rintro hnone qualified ⟨-, steps, hfollow⟩
    by_contra hown
    obtain ⟨definition, hdefinition⟩ := Option.ne_none_iff_exists'.mp hown
    obtain ⟨nearest, found, hnearest⟩ := exists_nearest hfollow hdefinition
    have hsome := (member?_eq_some_iff h).mpr ⟨nearest, hnearest⟩
    simp [hnone] at hsome
  · intro hall
    by_contra hsome
    obtain ⟨definition, hdefinition⟩ := Option.ne_none_iff_exists'.mp hsome
    obtain ⟨owner, steps, hnearest⟩ := (member?_eq_some_iff h).mp hdefinition
    have hnone := hall owner (hnearest.mem_lineage le_rfl hnearest.follow_eq)
    simp [hnearest.ownMember?_eq] at hnone

/-- **Look-ups find the nearest declaration.** Whatever is declared in whatever order, also with
bases in a circle: if there are no more than 65 different declared classes on the way from a class
along the bases, the look-up of a member finds the declaration of the first class on it that
declares the member, and nothing exactly if none of them does. What it finds names that class. -/
theorem findsNearest_ofDeclarations (documentClass : String) (declarations : List Declaration)
    (type name : String)
    (h : ((ofDeclarations documentClass declarations).lineage type).encard ≤ 65) :
    (ofDeclarations documentClass declarations).FindsNearest type name := by
  refine {
    eq_some_iff := fun definition => member?_eq_some_iff h
    eq_none_iff := member?_eq_none_iff h
    owner_eq := ?_ }
  rintro owner definition ⟨steps, hnearest⟩
  obtain ⟨entry, hentry, hmember⟩ := Option.bind_eq_some_iff.mp hnearest.ownMember?_eq
  have hfiled := allFiled_ofDeclarations documentClass declarations owner entry hentry
  exact (hfiled name definition hmember).2

/-- A label whose bases lie in a circle behind it, where a base is declared anew and both classes of
the circle declare a width. -/
def circularDeclarations : List Declaration :=
  [.classType "Label" (some "Main"),
    .member "Sprite" { name := "width", kind := .variable, type := some "Number" },
    .classType "UIComponent" (some "Sprite"),
    .classType "Sprite" (some "UIComponent"),
    .classType "Label" (some "UIComponent"),
    .member "UIComponent" { name := "width", kind := .accessor, type := some "Number" }]

/-- The label has the width of the class before the circle closes, and no height. -/
theorem findsNearest_circularDeclarations :
    ((ofDeclarations "Main" circularDeclarations).lineage "Label").encard ≤ 65 ∧
      (ofDeclarations "Main" circularDeclarations).FindsNearest "Label" "width" ∧
      ((ofDeclarations "Main" circularDeclarations).member? "Label" "width").map (·.owner) =
        some (some "UIComponent") ∧
      (ofDeclarations "Main" circularDeclarations).member? "Label" "height" = none := by
  have hfew : ((ofDeclarations "Main" circularDeclarations).lineage "Label").encard ≤ 65 := by
    refine (encard_lineage_le _ _).trans ?_
    have hlength : (ofDeclarations "Main" circularDeclarations).classes.length = 4 := by decide
    rw [hlength]
    decide
  exact ⟨hfew, findsNearest_ofDeclarations "Main" circularDeclarations "Label" "width" hfew,
    by decide, by decide⟩

end SymbolTable

end Bindery
