import Bindery.Proofs.Symbol.Steps

/-!
# The order of declarations

What a table answers is what has been declared, and not when. As long as nothing is declared twice
and no two things are visible under one name, each answer can be read off the declarations as a
set: a class may get its members before or after it is declared with its base, and before or after
the base is declared.
-/

namespace Bindery

namespace SymbolTable

/-! ## What declarations say -/

namespace Declaration

/-- The class that is declared by itself, and its base. -/
def classType? : Declaration → Option (String × Option String)
  | classType qualified base => some (qualified, base)
  | _ => none

/-- The class that a member is declared for, and the member. -/
def member? (documentClass : String) : Declaration → Option (String × Definition)
  | member owner definition => some (owner, definition)
  | ownMember definition => some (documentClass, definition)
  | _ => none

/-- The definition that is declared to be visible everywhere. -/
def global? : Declaration → Option Definition
  | global definition => some definition
  | _ => none

/-- The class that a declaration is about. -/
def about? (documentClass : String) : Declaration → Option String
  | classType qualified _ => some qualified
  | member owner _ => some owner
  | ownMember _ => some documentClass
  | global _ => none

end Declaration

variable (documentClass : String) (declarations : List Declaration)

/-- The classes that some declarations are about, and that of the document. -/
def declaredClasses : List String :=
  documentClass :: declarations.filterMap (·.about? documentClass)

/-- Nothing is declared twice, and no two things are visible under one name. -/
structure Separate : Prop where
  /-- A class is declared by itself at most once. -/
  classes_nodup : ((declarations.filterMap Declaration.classType?).map Prod.fst).Nodup
  /-- A class declares a member of one name at most once. -/
  members_nodup : ((declarations.filterMap (·.member? documentClass)).map
    fun (owner, definition) => (owner, definition.name)).Nodup
  /-- A name is declared to be visible everywhere at most once. -/
  globals_nodup : ((declarations.filterMap Declaration.global?).map Definition.name).Nodup
  /-- Classes are visible under different local names. -/
  localName_inj : ∀ qualified ∈ declaredClasses documentClass declarations,
    ∀ other ∈ declaredClasses documentClass declarations,
      Text.localName qualified = Text.localName other → qualified = other
  /-- No class is visible under a name that is declared by itself. -/
  localName_ne : ∀ definition ∈ declarations.filterMap Declaration.global?,
    ∀ qualified ∈ declaredClasses documentClass declarations,
      definition.name ≠ Text.localName qualified

/-- The answers of a table are what has been declared. -/
structure Represents (table : SymbolTable) : Prop where
  documentClass_eq : table.documentClass = documentClass
  /-- Every class that a declaration is about is there. -/
  class?_eq : ∀ qualified, table.resolver.class? qualified =
    if qualified ∈ declaredClasses documentClass declarations then some (.ofClass qualified)
    else none
  /-- A class has the base with which it has been declared. -/
  base?_eq_some_iff : ∀ qualified base, table.base? qualified = some base ↔
    (qualified, some base) ∈ declarations.filterMap Declaration.classType?
  /-- A class has the members that have been declared for it. -/
  ownMember?_eq_some_iff : ∀ qualified name found, table.ownMember? qualified name = some found ↔
    ∃ definition, (qualified, definition) ∈ declarations.filterMap (·.member? documentClass) ∧
      definition.name = name ∧ { definition with owner := some qualified } = found
  /-- What is visible has been declared so, or is a class that is visible under its local name. -/
  global?_eq_some_iff : ∀ name found, table.globals.get? name = some found ↔ found.name = name ∧
    (found ∈ declarations.filterMap Declaration.global? ∨
      ∃ qualified ∈ declaredClasses documentClass declarations, .ofClass qualified = found)

variable {documentClass declarations}

/-! ## Order and parts of declarations -/

theorem declaredClasses_append (others : List Declaration) :
    declaredClasses documentClass (declarations ++ others) =
      declaredClasses documentClass declarations ++ others.filterMap (·.about? documentClass) := by
  simp [declaredClasses]

/-- Earlier declarations are separate if all are. -/
theorem Separate.of_append {others : List Declaration}
    (h : Separate documentClass (declarations ++ others)) :
    Separate documentClass declarations := by
  have hclasses {qualified : String}
      (hmem : qualified ∈ declaredClasses documentClass declarations) :
      qualified ∈ declaredClasses documentClass (declarations ++ others) := by
    rw [declaredClasses_append]
    exact List.mem_append_left _ hmem
  obtain ⟨hclass, hmember, hglobal, hinj, hne⟩ := h
  simp only [List.filterMap_append, List.map_append] at hclass hmember hglobal hne
  exact {
    classes_nodup := hclass.of_append_left
    members_nodup := hmember.of_append_left
    globals_nodup := hglobal.of_append_left
    localName_inj := fun _ hmem _ hother => hinj _ (hclasses hmem) _ (hclasses hother)
    localName_ne := fun _ hmem _ hother => hne _ (List.mem_append_left _ hmem) _ (hclasses hother) }

/-- A class that is declared by itself has not been declared so before. -/
theorem Separate.notMem_classType {qualified : String} {base : Option String}
    (h : Separate documentClass (declarations ++ [.classType qualified base]))
    (found : Option String) :
    (qualified, found) ∉ declarations.filterMap Declaration.classType? := by
  intro hmem
  have hnodup := h.classes_nodup
  simp only [List.filterMap_append, List.map_append, List.nodup_append] at hnodup
  exact hnodup.2.2 _ (List.mem_map_of_mem hmem) qualified (by simp [Declaration.classType?]) rfl

/-- A member that is declared for a class has another name than those declared for it before. -/
theorem Separate.name_ne {declaration : Declaration} {owner : String}
    {definition earlier : Definition}
    (h : Separate documentClass (declarations ++ [declaration]))
    (hmember : declaration.member? documentClass = some (owner, definition))
    (hmem : (owner, earlier) ∈ declarations.filterMap (·.member? documentClass)) :
    earlier.name ≠ definition.name := by
  intro hname
  have hnodup := h.members_nodup
  simp only [List.filterMap_append, List.map_append, List.nodup_append] at hnodup
  refine hnodup.2.2 _ (List.mem_map_of_mem hmem) (owner, definition.name) ?_ (by simp [hname])
  simp [hmember]

section Perm

variable {others : List Declaration} (hperm : declarations.Perm others)
include hperm

theorem mem_declaredClasses_iff_of_perm {qualified : String} :
    qualified ∈ declaredClasses documentClass declarations ↔
      qualified ∈ declaredClasses documentClass others :=
  ((hperm.filterMap _).cons documentClass).mem_iff

theorem Separate.perm (h : Separate documentClass declarations) :
    Separate documentClass others where
  classes_nodup := ((hperm.filterMap _).map _).nodup_iff.mp h.classes_nodup
  members_nodup := ((hperm.filterMap _).map _).nodup_iff.mp h.members_nodup
  globals_nodup := ((hperm.filterMap _).map _).nodup_iff.mp h.globals_nodup
  localName_inj _ hmem _ hother :=
    h.localName_inj _ ((mem_declaredClasses_iff_of_perm hperm).mpr hmem) _
      ((mem_declaredClasses_iff_of_perm hperm).mpr hother)
  localName_ne _ hmem _ hother :=
    h.localName_ne _ ((hperm.filterMap _).mem_iff.mpr hmem) _
      ((mem_declaredClasses_iff_of_perm hperm).mpr hother)

/-- What a table represents does not depend on the order of the declarations. -/
theorem Represents.perm {table : SymbolTable} (h : Represents documentClass declarations table) :
    Represents documentClass others table where
  documentClass_eq := h.documentClass_eq
  class?_eq qualified := by
    rw [h.class?_eq]
    simp only [mem_declaredClasses_iff_of_perm hperm]
  base?_eq_some_iff qualified base := by
    rw [h.base?_eq_some_iff, (hperm.filterMap _).mem_iff]
  ownMember?_eq_some_iff qualified name found := by
    simp only [h.ownMember?_eq_some_iff, (hperm.filterMap _).mem_iff]
  global?_eq_some_iff name found := by
    simp only [h.global?_eq_some_iff, (hperm.filterMap _).mem_iff,
      mem_declaredClasses_iff_of_perm hperm]

end Perm

/-! ## What a table represents -/

namespace Represents

variable {table : SymbolTable} (h : Represents documentClass declarations table)
  {declaration : Declaration} {owner : String}
include h

section About

variable (habout : declaration.about? documentClass = some owner)
include habout

/-- A declaration about a class brings in that class. -/
theorem class?_about (qualified : String) :
    (if owner = qualified then some ((table.resolver.class? owner).getD (.ofClass owner))
      else table.resolver.class? qualified) =
      if qualified ∈ declaredClasses documentClass (declarations ++ [declaration])
      then some (.ofClass qualified) else none := by
  have hclasses : declaredClasses documentClass (declarations ++ [declaration]) =
      declaredClasses documentClass declarations ++ [owner] := by
    simp [declaredClasses_append, habout]
  rw [hclasses]
  split
  · next heq =>
    subst heq
    rw [h.class?_eq]
    split <;> simp
  · next hne => simp [h.class?_eq, Ne.symm hne]

/-- A declaration about a class makes that class visible under its local name. -/
theorem global?_about (hsep : Separate documentClass (declarations ++ [declaration]))
    (hglobal : declaration.global? = none) (name : String) (found : Definition) :
    (table.globals.set (Text.localName owner) (.ofClass owner)).get? name = some found ↔
      found.name = name ∧
        (found ∈ (declarations ++ [declaration]).filterMap Declaration.global? ∨
          ∃ qualified ∈ declaredClasses documentClass (declarations ++ [declaration]),
            .ofClass qualified = found) := by
  have howner : owner ∈ declaredClasses documentClass (declarations ++ [declaration]) := by
    simp [declaredClasses_append, habout]
  rw [Dictionary.get?_set]
  split
  · next hname =>
    subst hname
    constructor
    · intro hfound
      obtain rfl := Option.some.inj hfound
      exact ⟨rfl, .inr ⟨owner, howner, rfl⟩⟩
    · rintro ⟨hname, hmem | ⟨qualified, hqualified, rfl⟩⟩
      · exact absurd hname (hsep.localName_ne found hmem owner howner)
      · rw [hsep.localName_inj qualified hqualified owner howner hname]
  · next hname =>
    rw [h.global?_eq_some_iff]
    refine and_congr_right fun hfound => or_congr ?_ ?_
    · simp [hglobal]
    · constructor
      · rintro ⟨qualified, hqualified, heq⟩
        exact ⟨qualified, by simp [declaredClasses_append, hqualified], heq⟩
      · rintro ⟨qualified, hqualified, rfl⟩
        have hne : qualified ≠ owner := fun heq => hname (heq ▸ hfound)
        refine ⟨qualified, ?_, rfl⟩
        simpa [declaredClasses_append, habout, hne] using hqualified

end About

/-- Declaring a class by itself adds its base, and the class where it is not there yet. -/
theorem declareClass {qualified : String} {base : Option String}
    (hsep : Separate documentClass (declarations ++ [.classType qualified base])) :
    Represents documentClass (declarations ++ [.classType qualified base])
      (table.declareClass qualified base) where
  documentClass_eq := h.documentClass_eq
  class?_eq other := by
    rw [class?_declareClass]
    exact h.class?_about rfl other
  base?_eq_some_iff other found := by
    rw [base?_declareClass]
    split
    · next heq =>
      subst heq
      simp [hsep.notMem_classType, Declaration.classType?, eq_comm]
    · next hne =>
      simp [h.base?_eq_some_iff, Declaration.classType?, Ne.symm hne]
  ownMember?_eq_some_iff other name found := by
    rw [ownMember?_declareClass, h.ownMember?_eq_some_iff]
    simp [Declaration.member?]
  global?_eq_some_iff := h.global?_about rfl hsep rfl

/-- Where a class is brought in that is there already, it has been visible before. -/
theorem global?_withClass (owner name : String) :
    (table.withClass owner).globals.get? name =
      (table.globals.set (Text.localName owner) (.ofClass owner)).get? name := by
  rcases table.withClass_cases owner with ⟨hthere, heq⟩ | ⟨-, heq⟩
  · have hmem : owner ∈ declaredClasses documentClass declarations := by
      by_contra hmem
      have hmissing := h.class?_eq owner
      rw [if_neg hmem, resolver, Option.map_eq_none_iff] at hmissing
      simp [hmissing] at hthere
    rw [heq, Dictionary.get?_set]
    split
    · next hname => exact (h.global?_eq_some_iff _ _).mpr ⟨hname, .inr ⟨owner, hmem, rfl⟩⟩
    · rfl
  · rw [heq, globals_declareClass]

/-- Declaring a member adds it to its class, and the class where it is not there yet. -/
theorem declareMember {definition : Definition}
    (hmember : declaration.member? documentClass = some (owner, definition))
    (habout : declaration.about? documentClass = some owner)
    (hclass : declaration.classType? = none) (hglobal : declaration.global? = none)
    (hsep : Separate documentClass (declarations ++ [declaration])) :
    Represents documentClass (declarations ++ [declaration])
      (table.declareMember owner definition) where
  documentClass_eq := by
    rw [documentClass_declareMember, h.documentClass_eq]
  class?_eq other := by
    rw [class?_declareMember, class?_withClass]
    exact h.class?_about habout other
  base?_eq_some_iff other base := by
    rw [base?_declareMember, h.base?_eq_some_iff]
    simp [hclass]
  ownMember?_eq_some_iff other name found := by
    rw [ownMember?_declareMember]
    split
    · next heq =>
      obtain ⟨rfl, rfl⟩ := heq
      constructor
      · intro hfound
        exact ⟨definition, by simp [hmember], rfl, Option.some.inj hfound⟩
      · rintro ⟨other, hother, hname, rfl⟩
        rw [List.filterMap_append, List.mem_append] at hother
        rcases hother with hearlier | hlast
        · exact absurd hname (hsep.name_ne hmember hearlier)
        · obtain rfl : other = definition := by simpa [hmember] using hlast
          rfl
    · next hne =>
      rw [h.ownMember?_eq_some_iff, List.filterMap_append]
      refine exists_congr fun earlier => ?_
      rw [List.mem_append, or_and_right, iff_self_or]
      rintro ⟨hlast, hname, -⟩
      obtain ⟨rfl, rfl⟩ : other = owner ∧ earlier = definition := by simpa [hmember] using hlast
      exact absurd ⟨rfl, hname⟩ hne
  global?_eq_some_iff name found := by
    rw [globals_declareMember, h.global?_withClass]
    exact h.global?_about habout hsep hglobal name found

theorem declareGlobal {definition : Definition}
    (hsep : Separate documentClass (declarations ++ [.global definition])) :
    Represents documentClass (declarations ++ [.global definition])
      (table.declareGlobal definition) where
  documentClass_eq := h.documentClass_eq
  class?_eq other := by
    change table.resolver.class? other = _
    rw [h.class?_eq, declaredClasses_append]
    simp [Declaration.about?]
  base?_eq_some_iff other base := by
    change table.base? other = _ ↔ _
    rw [h.base?_eq_some_iff, List.filterMap_append]
    simp [Declaration.classType?]
  ownMember?_eq_some_iff other name found := by
    change table.ownMember? other name = _ ↔ _
    rw [h.ownMember?_eq_some_iff, List.filterMap_append]
    simp [Declaration.member?]
  global?_eq_some_iff name found := by
    have hclasses : declaredClasses documentClass (declarations ++ [.global definition]) =
        declaredClasses documentClass declarations := by
      simp [declaredClasses_append, Declaration.about?]
    have hlast : definition ∈
        (declarations ++ [Declaration.global definition]).filterMap Declaration.global? := by
      simp [Declaration.global?]
    rw [SymbolTable.declareGlobal, Dictionary.get?_set]
    split
    · next hname =>
      subst hname
      constructor
      · intro hfound
        obtain rfl := Option.some.inj hfound
        exact ⟨rfl, .inl hlast⟩
      · rintro ⟨hname, hmem | ⟨qualified, hqualified, rfl⟩⟩
        · rw [List.inj_on_of_nodup_map hsep.globals_nodup hmem hlast hname]
        · exact absurd hname.symm (hsep.localName_ne _ hlast qualified hqualified)
    · next hname =>
      rw [h.global?_eq_some_iff, hclasses, List.filterMap_append, List.mem_append]
      refine and_congr_right fun hfound => or_congr_left ?_
      rw [iff_self_or]
      intro hmem
      obtain rfl : found = definition := by simpa [Declaration.global?] using hmem
      exact absurd hfound hname

/-- A declaration adds what it says to what a table represents, whatever it is. -/
theorem declare (hsep : Separate documentClass (declarations ++ [declaration])) :
    Represents documentClass (declarations ++ [declaration]) (table.declare declaration) := by
  cases declaration with
  | classType qualified base => exact h.declareClass hsep
  | member owner definition => exact h.declareMember rfl rfl rfl rfl hsep
  | ownMember definition =>
    rw [SymbolTable.declare, declareOwnMember, h.documentClass_eq]
    exact h.declareMember rfl rfl rfl rfl hsep
  | global definition => exact h.declareGlobal hsep

end Represents

/-- At first there is the class of the document. -/
theorem represents_ofDocument (documentClass : String) :
    Represents documentClass [] (ofDocument documentClass) where
  documentClass_eq := rfl
  class?_eq qualified := by
    rw [ofDocument, class?_declareClass]
    by_cases heq : qualified = documentClass
    · simp [declaredClasses, resolver, heq]
    · simp [declaredClasses, resolver, heq, Ne.symm heq]
  base?_eq_some_iff qualified base := by
    rw [ofDocument, base?_declareClass]
    simp [base?]
  ownMember?_eq_some_iff qualified name found := by
    rw [ofDocument, ownMember?_declareClass]
    simp [ownMember?]
  global?_eq_some_iff name found := by
    rw [ofDocument, globals_declareClass, Dictionary.get?_set]
    simp only [declaredClasses, List.filterMap_nil, List.not_mem_nil, false_or,
      List.mem_singleton, exists_eq_left, Dictionary.get?_nil]
    constructor
    · intro hfound
      split at hfound
      · next hname => exact ⟨Option.some.inj hfound ▸ hname, Option.some.inj hfound⟩
      · simp at hfound
    · rintro ⟨hname, rfl⟩
      exact if_pos hname

/-- Separate declarations are all represented in the table that they lead to. -/
theorem represents_ofDeclarations (h : Separate documentClass declarations) :
    Represents documentClass declarations (ofDeclarations documentClass declarations) := by
  induction declarations using List.reverseRecOn with
  | nil => exact represents_ofDocument documentClass
  | append_singleton declarations declaration ih =>
    rw [ofDeclarations, List.foldl_append]
    exact (ih h.of_append).declare h

/-! ## Answers -/

/-- A look-up along the bases depends on the bases and on what each class declares itself. -/
theorem findMember?_congr {table other : SymbolTable}
    (hbase : ∀ qualified, table.base? qualified = other.base? qualified)
    (hown : ∀ qualified name, table.ownMember? qualified name = other.ownMember? qualified name)
    (name : String) (fuel : Nat) (type : String) :
    findMember? table.classes name fuel type = findMember? other.classes name fuel type := by
  induction fuel generalizing type with
  | zero => rfl
  | succ fuel ih => rw [findMember?_succ, findMember?_succ, hbase, hown, funext ih]

/-- Tables that represent the same declarations give the same answers. -/
theorem Represents.resolver_eq {table other : SymbolTable}
    (h : Represents documentClass declarations table)
    (h' : Represents documentClass declarations other) : table.resolver = other.resolver := by
  have hbase (qualified : String) : table.base? qualified = other.base? qualified :=
    Option.ext fun base => (h.base?_eq_some_iff _ _).trans (h'.base?_eq_some_iff _ _).symm
  have hown (qualified name : String) :
      table.ownMember? qualified name = other.ownMember? qualified name :=
    Option.ext fun found => (h.ownMember?_eq_some_iff _ _ _).trans
      (h'.ownMember?_eq_some_iff _ _ _).symm
  have hmember : table.resolver.member? = other.resolver.member? :=
    funext fun type => funext fun name => findMember?_congr hbase hown name lookupLimit type
  have hglobal : table.resolver.global? = other.resolver.global? :=
    funext fun name => Option.ext fun found =>
      (h.global?_eq_some_iff _ _).trans (h'.global?_eq_some_iff _ _).symm
  have hclass : table.resolver.class? = other.resolver.class? :=
    funext fun qualified => (h.class?_eq qualified).trans (h'.class?_eq qualified).symm
  have hdocument : table.resolver.documentClass = other.resolver.documentClass :=
    h.documentClass_eq.trans h'.documentClass_eq.symm
  cases hresolver : table.resolver
  cases hresolver' : other.resolver
  simp_all

/-- **The order of declarations does not matter.** As long as each class is declared by itself at
most once, each class declares a member of one name at most once, and all classes and all names that
are declared to be visible everywhere are visible under different names: however the declarations
are ordered, the tables that they lead to give the same answer to every question for a member, a
visible name or a class. -/
theorem resolver_ofDeclarations_eq_of_perm {declarations others : List Declaration}
    (hperm : declarations.Perm others) (h : Separate documentClass declarations) :
    (ofDeclarations documentClass declarations).resolver =
      (ofDeclarations documentClass others).resolver :=
  (represents_ofDeclarations h).resolver_eq
    ((represents_ofDeclarations (h.perm hperm)).perm hperm.symm)

/-- A document and a button, each with a base that is declared later and members that are declared
before that. -/
def scatteredDeclarations : List Declaration :=
  [.member "Button" { name := "label", kind := .variable, type := some "String" },
    .ownMember { name := "status", kind := .accessor, type := some "Button" },
    .classType "Button" (some "spark.UIComponent"),
    .global { name := "trace", kind := .function, type := some "void" },
    .classType "Main" (some "Button"),
    .member "spark.UIComponent" { name := "width", kind := .variable, type := some "Number" },
    .classType "spark.UIComponent" none]

/-- Declared from back to front, so that every class comes before its members and its base before
itself, they give the same answers, and the document inherits a label and a width. -/
theorem resolver_scatteredDeclarations :
    scatteredDeclarations.Perm scatteredDeclarations.reverse ∧
      Separate "Main" scatteredDeclarations ∧
      (ofDeclarations "Main" scatteredDeclarations).resolver =
        (ofDeclarations "Main" scatteredDeclarations.reverse).resolver ∧
      ((ofDeclarations "Main" scatteredDeclarations).member? "Main" "label").map (·.owner) =
        some (some "Button") ∧
      ((ofDeclarations "Main" scatteredDeclarations).member? "Main" "width").map (·.owner) =
        some (some "spark.UIComponent") := by
  have hperm := (List.reverse_perm scatteredDeclarations).symm
  have hseparate : Separate "Main" scatteredDeclarations := {
    classes_nodup := by decide
    members_nodup := by decide
    globals_nodup := by decide
    localName_inj := by decide
    localName_ne := by decide }
  exact ⟨hperm, hseparate, resolver_ofDeclarations_eq_of_perm hperm hseparate, by decide, by decide⟩

end SymbolTable

end Bindery
