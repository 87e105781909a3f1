import Bindery.Symbol.Dictionary
import Bindery.Symbol.Resolver

/-!
# Symbol tables

A symbol table collects the classes of a project, their members and the names that are visible
everywhere, and resolves names from them. Members are looked up along the base classes.
-/

namespace Bindery

/-- What is known of one class. -/
structure ClassEntry where
  definition : Definition
  base : Option String
  members : Dictionary Definition

/-- All that has been declared around a document. -/
structure SymbolTable where
  documentClass : String
  classes : Dictionary ClassEntry
  globals : Dictionary Definition

namespace SymbolTable

/-- Declares a class, which becomes visible under its local name. A class that is there already
keeps its members and takes the new base. -/
def declareClass (table : SymbolTable) (qualified : String) (base : Option String) : SymbolTable :=
  let definition := Definition.ofClass qualified
  let entry :=
    match table.classes.get? qualified with
    | some entry => { entry with base }
    | none => { definition, base, members := [] }
  { table with
    classes := table.classes.set qualified entry
    globals := table.globals.set definition.name definition }

/-- The table of a document about which nothing else is known. -/
def ofDocument (documentClass : String) : SymbolTable :=
  declareClass { documentClass, classes := [], globals := [] } documentClass none

/-- Declares a member of a class, and the class itself where it is not there yet. -/
def declareMember (table : SymbolTable) (owner : String) (definition : Definition) : SymbolTable :=
  let table :=
    match table.classes.get? owner with
    | some _ => table
    | none => table.declareClass owner none
  match table.classes.get? owner with
  | some entry =>
    let members := entry.members.set definition.name { definition with owner := some owner }
    { table with classes := table.classes.set owner { entry with members } }
  | none => table

/-- Declares a member of the document. -/
def declareOwnMember (table : SymbolTable) (definition : Definition) : SymbolTable :=
  table.declareMember table.documentClass definition

/-- Declares a name that is visible everywhere. -/
def declareGlobal (table : SymbolTable) (definition : Definition) : SymbolTable :=
  { table with globals := table.globals.set definition.name definition }

/-- Looks a member up on a class and its bases, through at most `fuel` classes. -/
def findMember? (classes : Dictionary ClassEntry) (name : String) :
    (fuel : Nat) → (type : String) → Option Definition
  | 0, _ => none
  | fuel + 1, type => do
    let entry ← classes.get? type
    match entry.members.get? name, entry.base with
    | some definition, _ => some definition
    | none, some base => findMember? classes name fuel base
    | none, none => none

/-- The number of classes that one member lookup visits at most, so that bases in a circle end. -/
def lookupLimit : Nat := 65

/-- The member of a class or of its nearest base that declares it. -/
def member? (table : SymbolTable) (type name : String) : Option Definition :=
  findMember? table.classes name lookupLimit type

/-- The resolver that answers from the table. -/
def resolver (table : SymbolTable) : Resolver where
  documentClass := table.documentClass
  member? := table.member?
  global? := table.globals.get?
  class? qualified := (table.classes.get? qualified).map (·.definition)

end SymbolTable

end Bindery
