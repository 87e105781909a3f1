import Bindery.Json.Decoding

/-!
# Configuration

The classes that constructed code builds its objects from. A configuration file names those that
differ from the usual ones.
-/

namespace Bindery

/-- The qualified names of the classes that constructed code needs. -/
structure Config where
  bindingClass : String := "mx.binding.Binding"
  propertyWatcherClass : String := "mx.binding.PropertyWatcher"
  staticPropertyWatcherClass : String := "mx.binding.StaticPropertyWatcher"
  functionReturnWatcherClass : String := "mx.binding.FunctionReturnWatcher"
  xmlWatcherClass : String := "mx.binding.XMLWatcher"
  bindingManagerClass : String := "mx.binding.BindingManager"
deriving Repr, DecidableEq, Inhabited

namespace Config

/-- The classes without which no code can be constructed, in the order in which they are missed. -/
def requiredClasses (config : Config) : List String :=
  [config.bindingClass, config.propertyWatcherClass, config.staticPropertyWatcherClass,
    config.functionReturnWatcherClass, config.xmlWatcherClass, config.bindingManagerClass]

/-- The keys of a configuration file, in the order of the classes they name. -/
def fieldNames : List String :=
  ["bindingClass", "propertyWatcherClass", "staticPropertyWatcherClass",
    "functionReturnWatcherClass", "xmlWatcherClass", "bindingManagerClass"]

def toJson (config : Config) : Json.Value :=
  .record (fieldNames.zip (config.requiredClasses.map Json.Value.text))

/-- A class name that may be left out. -/
def classOr? (usual : String) : Option Json.Value → Option String
  | none => some usual
  | some value => value.asText?

/-- Reads a configuration; what is left out keeps its usual value. -/
def ofJson? (value : Json.Value) : Option Config := do
  let usual : Config := {}
  match ← value.asPartialRecord? fieldNames with
  | [binding, property, staticProperty, function, xml, manager] =>
    return {
      bindingClass := ← classOr? usual.bindingClass binding
      propertyWatcherClass := ← classOr? usual.propertyWatcherClass property
      staticPropertyWatcherClass := ← classOr? usual.staticPropertyWatcherClass staticProperty
      functionReturnWatcherClass := ← classOr? usual.functionReturnWatcherClass function
      xmlWatcherClass := ← classOr? usual.xmlWatcherClass xml
      bindingManagerClass := ← classOr? usual.bindingManagerClass manager }
  | _ => none

/-- Reads the text of a configuration file. -/
def ofText? (text : String) : Option Config := do
  ofJson? (← Json.Value.ofText? text)

end Config

end Bindery
