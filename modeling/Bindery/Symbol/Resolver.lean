import Bindery.Symbol.Definition

/-!
# Name resolution

All that the binding compiler asks about the project around a document. It puts no condition on
the answers.
-/

namespace Bindery

/-- The answers to all questions about names. -/
structure Resolver where
  /-- The qualified name of the class that the document becomes. -/
  documentClass : String
  /-- The member of this name on values of this type. -/
  member? : (type : String) → (name : String) → Option Definition
  /-- What a name stands for that is used without a receiver. -/
  global? : (name : String) → Option Definition
  /-- The class of this qualified name. -/
  class? : (qualified : String) → Option Definition

/-- The member of the document of this name. -/
def Resolver.documentMember? (resolver : Resolver) (name : String) : Option Definition :=
  resolver.member? resolver.documentClass name

end Bindery
