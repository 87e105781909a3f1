import Bindery.Config
import Bindery.Constructor.Closure
import Bindery.Watch.Tree

/-!
# Construction of runtime objects

The code that constructs one binding or one watcher and leaves it on the stack. Local 0 holds the
document, and once bindings are constructed, local 1 holds the array of them.
-/

namespace Bindery

namespace RuntimeObject

/-- A closure, or null. -/
def functionOrNull : Option MethodHandle → Instruction
  | some handle => .newFunction handle
  | none => .pushNull

/-- A string, or null. -/
def stringOrNull : Option String → Instruction
  | some text => .pushString text
  | none => .pushNull

/-- A new object of a class, from the code of its arguments. -/
def object (qualified : String) (argCount : Nat) (args : List Instruction) : List Instruction :=
  [.findPropStrict (.ofQualified qualified)] ++ args ++
    [.constructProp (.ofQualified qualified) argCount]

/-- The element of an array that is kept in a local variable. -/
def element (array slot : Nat) : List Instruction :=
  [.getLocal array, .pushNat slot, .getProperty RuntimeName.arrayIndex]

/-- An object with a true property for every event. -/
def events (events : List String) : List Instruction :=
  events.flatMap (fun event => [.pushString event, .pushTrue]) ++ [.newObject events.length]

/-- The array of the bindings in some slots. -/
def listeners (slots : List Nat) : List Instruction :=
  slots.flatMap (element 1) ++ [.newArray slots.length]

/-- A binding, constructed from the document, its closures and its texts. A source that can be read
by its name needs no closure. -/
def binding (config : Config) (resolver : Resolver) (binding : Binding) (out : Emission) :
    List Instruction × Emission :=
  let getter := if binding.isSimple then (none, out) else out.emitGetter resolver binding
  let setter := getter.2.emitSetter binding
  (object config.bindingClass 5
    [.getLocal 0, functionOrNull getter.1, functionOrNull setter.1,
      stringOrNull binding.destinationText, stringOrNull binding.sourceText],
    setter.2)

/-- A watcher of a property, static or not. -/
def propertyWatcher (qualified name : String) (eventNames : List String) (slots : List Nat)
    (getter : Option MethodHandle) : List Instruction :=
  object qualified 4
    ([.pushString name] ++ events eventNames ++ listeners slots ++ [functionOrNull getter])

/-- A watcher of the result of a function. -/
def functionWatcher (qualified name : String) (eventNames : List String) (slots : List Nat)
    (parameters : Option MethodHandle) : List Instruction :=
  object qualified 7
    ([.pushString name, .getLocal 0, functionOrNull parameters] ++ events eventNames ++
      listeners slots ++ [.pushNull, .pushFalse])

/-- A watcher of a part of an XML value. -/
def xmlWatcher (qualified name : String) (slots : List Nat) : List Instruction :=
  object qualified 2 ([.pushString name] ++ listeners slots)

/-- The watcher of one step of a chain. Only properties of the document itself are read through the
closure that reads any property of it. -/
def watcher (config : Config) (resolver : Resolver) (propertyGetter : Option MethodHandle)
    (isRoot : Bool) (watched : Watched) (slots : List Nat) (out : Emission) :
    List Instruction × Emission :=
  match watched.kind with
  | .property =>
    (propertyWatcher config.propertyWatcherClass watched.name watched.events slots
      (if isRoot then propertyGetter else none), out)
  | .staticProperty _ =>
    (propertyWatcher config.staticPropertyWatcherClass watched.name watched.events slots none, out)
  | .function args =>
    let parameters := out.emitClosure (Closure.parameters resolver watched.name args)
    (functionWatcher config.functionReturnWatcherClass watched.name watched.events slots
      parameters.1, parameters.2)
  | .xml => (xmlWatcher config.xmlWatcherClass watched.name slots, out)

/-- The code that runs every binding once, in the order of their slots. -/
def execution (count : Nat) : List Instruction :=
  (List.range count).flatMap fun slot => element 1 slot ++ [.callPropVoid RuntimeName.execute 0]

end RuntimeObject

end Bindery
