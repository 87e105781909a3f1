import Bindery.Symbol.Table

/-!
# Declared symbol tables

A symbol table starts with the class of a document and grows by declarations. Whatever is declared
in whatever order, a member is filed under its own name in the class that it names as its owner, so
that its name and its owner determine it, however it is reached.
-/

namespace Bindery

namespace SymbolTable

/-! ## Declarations -/

/-- What can be declared. -/
inductive Declaration where
  | classType (qualified : String) (base : Option String)
  | member (owner : String) (definition : Definition)
  | ownMember (definition : Definition)
  | global (definition : Definition)

/-- Takes in a declaration. -/
def declare (table : SymbolTable) : Declaration → SymbolTable
  | .classType qualified base => table.declareClass qualified base
  | .member owner definition => table.declareMember owner definition
  | .ownMember definition => table.declareOwnMember definition
  | .global definition => table.declareGlobal definition

/-- The table of a document after some declarations. -/
def ofDeclarations (documentClass : String) (declarations : List Declaration) : SymbolTable :=
  declarations.foldl declare (ofDocument documentClass)

/-! ## Filed members -/

/-- Whether the members of a class are filed under their names and name the class. -/
def Filed (qualified : String) (members : Dictionary Definition) : Prop :=
  ∀ name definition, members.get? name = some definition →
    definition.name = name ∧ definition.owner = some qualified

/-- Whether the members of all classes are filed. -/
def AllFiled (table : SymbolTable) : Prop :=
  ∀ qualified entry, table.classes.get? qualified = some entry → Filed qualified entry.members

variable {table : SymbolTable}

theorem Filed.set {qualified : String} {members : Dictionary Definition}
    (h : Filed qualified members) (definition : Definition) :
    Filed qualified (members.set definition.name { definition with owner := some qualified }) := by
  intro name found hfound
  rw [Dictionary.get?_set] at hfound
  split at hfound
  · next hname =>
    obtain rfl := Option.some.inj hfound
    exact ⟨hname, rfl⟩
  · exact h name found hfound

/-- Replacing a class by one with filed members keeps all members filed. -/
theorem AllFiled.set (h : table.AllFiled) {qualified : String} {entry : ClassEntry}
    (hentry : Filed qualified entry.members) (globals : Dictionary Definition) :
    AllFiled { table with classes := table.classes.set qualified entry, globals } := by
  intro other found hfound
  rw [Dictionary.get?_set] at hfound
  split at hfound
  · next hqualified =>
    obtain rfl := Option.some.inj hfound
    exact hqualified ▸ hentry
  · exact h other found hfound

theorem AllFiled.declareClass (h : table.AllFiled) (qualified : String) (base : Option String) :
    (table.declareClass qualified base).AllFiled := by
  refine h.set ?_ _
  cases hentry : table.classes.get? qualified with
  | some entry => exact h qualified entry hentry
  | none =>
    intro name definition hdefinition
    simp at hdefinition

theorem AllFiled.declareMember (h : table.AllFiled) (owner : String) (definition : Definition) :
    (table.declareMember owner definition).AllFiled := by
  unfold SymbolTable.declareMember
  cases hfound : table.classes.get? owner with
  | some entry =>
    simp only [hfound]
    exact h.set ((h owner entry hfound).set definition) _
  | none =>
    have hgrown := h.declareClass owner none
    dsimp only
    split
    · next entry hentry => exact hgrown.set ((hgrown owner entry hentry).set definition) _
    · exact hgrown

theorem AllFiled.declare (h : table.AllFiled) (declaration : Declaration) :
    (table.declare declaration).AllFiled := by
  cases declaration with
  | classType qualified base => exact h.declareClass qualified base
  | member owner definition => exact h.declareMember owner definition
  | ownMember definition => exact h.declareMember _ definition
  | global definition => exact h

/-- Whatever is declared, members are filed. -/
theorem allFiled_ofDeclarations (documentClass : String) (declarations : List Declaration) :
    (ofDeclarations documentClass declarations).AllFiled := by
  refine List.foldlRecOn declarations declare ?_ fun table h declaration _ => h.declare declaration
  have hempty : AllFiled { documentClass, classes := [], globals := [] } := by
    intro qualified entry hentry
    simp at hentry
  exact hempty.declareClass documentClass none

/-! ## Members -/

/-- What a look-up along the bases finds is filed in some class. -/
theorem exists_of_findMember? {classes : Dictionary ClassEntry} {name : String} {fuel : Nat}
    {type : String} {definition : Definition}
    (h : findMember? classes name fuel type = some definition) :
    ∃ qualified entry, classes.get? qualified = some entry ∧
      entry.members.get? name = some definition := by
  induction fuel generalizing type with
  | zero => simp [findMember?] at h
  | succ fuel ih =>
    obtain ⟨entry, hentry, h⟩ := Option.bind_eq_some_iff.mp h
    split at h
    · next hmember => exact ⟨type, entry, hentry, hmember.trans h⟩
    · exact ih h
    · simp at h

end SymbolTable

/-- Members know their names and their owners, and are determined by them. -/
structure Resolver.Identifies (resolver : Resolver) : Prop where
  name_eq : ∀ {type name definition}, resolver.member? type name = some definition →
    definition.name = name
  owner_isSome : ∀ {type name definition}, resolver.member? type name = some definition →
    definition.owner.isSome
  unique : ∀ {type other name definition found}, resolver.member? type name = some definition →
    resolver.member? other name = some found → definition.owner = found.owner → definition = found

/-- In a declared table, members are identified by their names and owners. -/
theorem SymbolTable.identifies_ofDeclarations (documentClass : String)
    (declarations : List Declaration) :
    (ofDeclarations documentClass declarations).resolver.Identifies := by
  have hfiled := allFiled_ofDeclarations documentClass declarations
  refine {
    name_eq := fun h => ?_
    owner_isSome := fun h => ?_
    unique := fun h h' howner => ?_ }
  · obtain ⟨qualified, entry, hentry, hmember⟩ := exists_of_findMember? h
    exact (hfiled qualified entry hentry _ _ hmember).1
  · obtain ⟨qualified, entry, hentry, hmember⟩ := exists_of_findMember? h
    rw [(hfiled qualified entry hentry _ _ hmember).2]
    rfl
  · obtain ⟨qualified, entry, hentry, hmember⟩ := exists_of_findMember? h
    obtain ⟨other, entry', hentry', hmember'⟩ := exists_of_findMember? h'
    rw [(hfiled qualified entry hentry _ _ hmember).2,
      (hfiled other entry' hentry' _ _ hmember').2] at howner
    obtain rfl := Option.some.inj howner
    obtain rfl := Option.some.inj (hentry.symm.trans hentry')
    exact Option.some.inj (hmember.symm.trans hmember')

end Bindery
