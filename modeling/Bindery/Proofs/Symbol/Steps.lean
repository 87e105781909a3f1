import Bindery.Proofs.Symbol.Inheritance

/-!
# Single declarations

What a single declaration changes in the answers of a table. A member is filed in its class, which
is declared with it where it is not there yet; everything else is left as it was.
-/

namespace Bindery

namespace SymbolTable

variable (table : SymbolTable) (qualified other owner name : String) (base : Option String)
  (definition : Definition)

/-! ## Declaring a class -/

theorem class?_declareClass : (table.declareClass qualified base).resolver.class? other =
    if qualified = other then some ((table.resolver.class? qualified).getD (.ofClass qualified))
    else table.resolver.class? other := by
  simp only [resolver, declareClass, Dictionary.get?_set]
  split
  · cases table.classes.get? qualified <;> rfl
  · rfl

theorem base?_declareClass : (table.declareClass qualified base).base? other =
    if qualified = other then base else table.base? other := by
  simp only [base?, declareClass, Dictionary.get?_set]
  split
  · cases table.classes.get? qualified <;> rfl
  · rfl

/-- Declaring a class leaves the members of all classes as they are. -/
theorem ownMember?_declareClass :
    (table.declareClass qualified base).ownMember? other name = table.ownMember? other name := by
  simp only [ownMember?, declareClass, Dictionary.get?_set]
  split
  · next heq =>
    subst heq
    cases table.classes.get? qualified <;> rfl
  · rfl

theorem globals_declareClass : (table.declareClass qualified base).globals =
    table.globals.set (Text.localName qualified) (.ofClass qualified) := rfl

/-! ## Declaring a member -/

/-- A table with a class, which is declared if it is not there. -/
def withClass : SymbolTable :=
  match table.classes.get? owner with
  | some _ => table
  | none => table.declareClass owner none

theorem withClass_cases :
    (table.classes.get? owner).isSome ∧ table.withClass owner = table ∨
      table.classes.get? owner = none ∧ table.withClass owner = table.declareClass owner none := by
  unfold withClass
  cases table.classes.get? owner <;> simp

/-- A member is filed in its class, once this is there. -/
theorem exists_declareMember_eq : ∃ entry,
    (table.withClass owner).classes.get? owner = some entry ∧
      table.declareMember owner definition = { table.withClass owner with
        classes := (table.withClass owner).classes.set owner { entry with
          members :=
            entry.members.set definition.name { definition with owner := some owner } } } := by
  have hsome : ((table.withClass owner).classes.get? owner).isSome := by
    rcases table.withClass_cases owner with ⟨hthere, heq⟩ | ⟨-, heq⟩
    · rwa [heq]
    · simp [heq, declareClass, Dictionary.get?_set]
  obtain ⟨entry, hentry⟩ := Option.isSome_iff_exists.mp hsome
  have hdeclare : table.declareMember owner definition =
      match (table.withClass owner).classes.get? owner with
      | some entry => { table.withClass owner with
        classes := (table.withClass owner).classes.set owner { entry with
          members := entry.members.set definition.name { definition with owner := some owner } } }
      | none => table.withClass owner := rfl
  exact ⟨entry, hentry, by rw [hdeclare, hentry]⟩

theorem class?_withClass : (table.withClass owner).resolver.class? other =
    if owner = other then some ((table.resolver.class? owner).getD (.ofClass owner))
    else table.resolver.class? other := by
  rcases table.withClass_cases owner with ⟨hthere, heq⟩ | ⟨-, heq⟩
  · obtain ⟨entry, hentry⟩ := Option.isSome_iff_exists.mp hthere
    rw [heq]
    split
    · next hother =>
      subst hother
      simp [resolver, hentry]
    · rfl
  · rw [heq, class?_declareClass]

theorem base?_withClass : (table.withClass owner).base? other = table.base? other := by
  rcases table.withClass_cases owner with ⟨-, heq⟩ | ⟨hmissing, heq⟩
  · rw [heq]
  · rw [heq, base?_declareClass]
    split
    · next hother =>
      subst hother
      simp [base?, hmissing]
    · rfl

theorem ownMember?_withClass :
    (table.withClass owner).ownMember? other name = table.ownMember? other name := by
  rcases table.withClass_cases owner with ⟨-, heq⟩ | ⟨-, heq⟩
  · rw [heq]
  · rw [heq, ownMember?_declareClass]

theorem class?_declareMember : (table.declareMember owner definition).resolver.class? other =
    (table.withClass owner).resolver.class? other := by
  obtain ⟨entry, hentry, heq⟩ := table.exists_declareMember_eq owner definition
  simp only [heq, resolver, Dictionary.get?_set]
  split
  · next hother =>
    subst hother
    rw [hentry]
    rfl
  · rfl

/-- Declaring a member leaves the bases of all classes as they are. -/
theorem base?_declareMember :
    (table.declareMember owner definition).base? other = table.base? other := by
  rw [← table.base?_withClass other owner]
  obtain ⟨entry, hentry, heq⟩ := table.exists_declareMember_eq owner definition
  simp only [heq, base?, Dictionary.get?_set]
  split
  · next hother =>
    subst hother
    rw [hentry]
    rfl
  · rfl

theorem ownMember?_declareMember : (table.declareMember owner definition).ownMember? other name =
    if owner = other ∧ definition.name = name then some { definition with owner := some owner }
    else table.ownMember? other name := by
  rw [← table.ownMember?_withClass other owner]
  obtain ⟨entry, hentry, heq⟩ := table.exists_declareMember_eq owner definition
  simp only [heq, ownMember?, Dictionary.get?_set]
  by_cases hother : owner = other
  · subst hother
    simp [hentry, Dictionary.get?_set]
  · simp [hother]

theorem globals_declareMember :
    (table.declareMember owner definition).globals = (table.withClass owner).globals := by
  obtain ⟨entry, -, heq⟩ := table.exists_declareMember_eq owner definition
  rw [heq]

theorem documentClass_declareMember :
    (table.declareMember owner definition).documentClass = table.documentClass := by
  obtain ⟨entry, -, heq⟩ := table.exists_declareMember_eq owner definition
  rw [heq]
  rcases table.withClass_cases owner with ⟨-, heq⟩ | ⟨-, heq⟩ <;> rw [heq]
  rfl

end SymbolTable

end Bindery
