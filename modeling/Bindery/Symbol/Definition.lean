import Bindery.Text.Dotted

/-!
# Definitions

What a name can stand for: a variable, an accessor or a function of some class, or a class.
-/

namespace Bindery

/-- What sort of thing a name stands for. -/
inductive DefinitionKind where
  | variable
  | accessor
  | function
  | classType
deriving Repr, DecidableEq

/-- What a name stands for. -/
structure Definition where
  name : String
  kind : DefinitionKind
  /-- The declared type of a variable or accessor, the return type of a function, the qualified
  name of a class. -/
  type : Option String
  isStatic : Bool := false
  isPublic : Bool := true
  /-- The events that announce a change; without any, changes cannot be observed. -/
  events : List String := []
  /-- The qualified name of the class that declares this member. -/
  owner : Option String := none
deriving Repr, DecidableEq

namespace Definition

/-- The definition of a class, found under its local name. -/
def ofClass (qualified : String) : Definition where
  name := Text.localName qualified
  kind := .classType
  type := some qualified

/-- The event of a bindable member that names none of its own. -/
def defaultEvent : String := "propertyChange"

/-- Whether some event announces a change of this member. -/
def isBindable (definition : Definition) : Bool := !definition.events.isEmpty

/-- Whether the definition can be called. -/
def isFunction (definition : Definition) : Bool := definition.kind = .function

/-- Whether the definition is a class. -/
def isClass (definition : Definition) : Bool := definition.kind = .classType

/-- Whether the definition holds a value that can be read as a property. -/
def isProperty (definition : Definition) : Bool :=
  definition.kind = .variable || definition.kind = .accessor

end Definition

/-- Values of these types are observed as XML. -/
def TypeName.isXml (type : Option String) : Bool := type = some "XML" || type = some "XMLList"

/-- The members of values of these types are only known when the program runs. -/
def TypeName.isDynamic (type : Option String) : Bool :=
  type = none || type = some "*" || type = some "Object"

end Bindery
