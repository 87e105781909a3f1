import Bindery.Binding.Database
import Bindery.Constructor.RuntimeObject

/-!
# Constructor code

The code that is appended to the constructor of a document with bindings. It runs in four stages:

* all bindings are constructed and kept in an array, the halves of two-way bindings are linked,
  and an array is filled with null for every watcher;
* every chain of watchers that something can make fire is constructed into its slots;
* the roots of these chains are told what they watch, and every other watcher is added to the one
  above it;
* every binding runs once.

Local 1 holds the bindings and local 2 the watchers; locals 3 and 4 hold the two watchers that are
being joined.
-/

namespace Bindery

/-- All that constructed code is generated from. -/
structure ConstructorContext where
  config : Config
  resolver : Resolver
  database : Database
  /-- The closure that reads any property of the document, if some watcher needs it. -/
  propertyGetter : Option MethodHandle

namespace ConstructorContext

/-- The code that keeps the value on the stack as a property of the document. -/
def keep (name : Name) : List Instruction := [.getLocal 0, .swap, .setProperty name]

/-- The code that constructs some bindings. -/
def bindings (context : ConstructorContext) :
    List Binding → Emission → List Instruction × Emission
  | [], out => ([], out)
  | first :: rest, out =>
    let made := RuntimeObject.binding context.config context.resolver first out
    let more := context.bindings rest made.2
    (made.1 ++ more.1, more.2)

/-- A binding, before the array of bindings is in a local variable. -/
def ownBinding (slot : Nat) : List Instruction :=
  [.getLocal 0, .getProperty RuntimeName.bindings, .pushNat slot,
    .getProperty RuntimeName.arrayIndex]

/-- The code that makes one binding the counterpart of another. -/
def linkTo (a b : Nat) : List Instruction :=
  ownBinding a ++ ownBinding b ++ [.setProperty RuntimeName.twoWayCounterpart]

/-- The code that links the halves of two-way bindings with each other. -/
def links (context : ConstructorContext) :
    List (Nat × Nat) → Emission → List Instruction × Emission
  | [], out => ([], out)
  | (a, b) :: rest, out =>
    if a = b then
      let problem : Problem := {
        kind := .internalCodegen
        span := (context.database.bindings[a]?.map (·.span)).getD .unknown
        message := "binding " ++ toString a ++ " cannot be its own two-way counterpart" }
      context.links rest { out with problems := out.problems ++ [problem] }
    else
      let more := context.links rest out
      (linkTo a b ++ linkTo b a ++ more.1, more.2)

/-- The code that keeps an array with null for every watcher. -/
def emptyWatchers (count : Nat) : List Instruction :=
  List.replicate count .pushNull ++ [.newArray count] ++ keep RuntimeName.watchers

/-- The code that puts the bindings into local 1 and the watchers into local 2. -/
def loadArrays : List Instruction :=
  [.getLocal 0, .dup, .getProperty RuntimeName.bindings, .setLocal 1,
    .getProperty RuntimeName.watchers, .setLocal 2]

/-- The first stage. -/
def allocation (context : ConstructorContext) (out : Emission) : List Instruction × Emission :=
  let db := context.database
  let made := context.bindings db.bindings out
  let linked := context.links db.pairs made.2
  (made.1 ++ [.newArray db.bindings.length] ++ keep RuntimeName.bindings ++ linked.1 ++
    emptyWatchers db.watchers.length ++ loadArrays, linked.2)

mutual

/-- The code that constructs a watcher and all below it into their slots. -/
def construction (context : ConstructorContext) (isRoot : Bool) :
    WatchChain → Emission → List Instruction × Emission
  | .link slot watched slots children, out =>
    let made := RuntimeObject.watcher context.config context.resolver context.propertyGetter isRoot
      watched slots out
    let below := constructionAll context false children made.2
    ([.getLocal 2, .pushNat slot] ++ made.1 ++ [.setProperty RuntimeName.arrayIndex] ++ below.1,
      below.2)

/-- The code that constructs several watchers and all below them. -/
def constructionAll (context : ConstructorContext) (isRoot : Bool) :
    List WatchChain → Emission → List Instruction × Emission
  | [], out => ([], out)
  | chain :: chains, out =>
    let made := construction context isRoot chain out
    let more := constructionAll context isRoot chains made.2
    (made.1 ++ more.1, more.2)

end

/-- A watcher, once the array of watchers is in local 2. -/
def ownWatcher (slot : Nat) : List Instruction := RuntimeObject.element 2 slot

/-- The code that adds a watcher to the one above it. The watcher of a function also learns which
watcher that is. -/
def join (parent child : Nat) (childForm : WatchForm) : List Instruction :=
  ownWatcher parent ++ [.setLocal 3] ++ ownWatcher child ++ [.setLocal 4] ++
    (if childForm = .function then
      [.getLocal 4, .getLocal 3, .setProperty RuntimeName.parentWatcher]
    else []) ++
    [.getLocal 3, .getLocal 4, .callPropVoid RuntimeName.addChild 1]

mutual

/-- The code that joins all watchers below a watcher. -/
def wiring : WatchChain → List Instruction
  | .link slot _ _ children => wiringAll slot children

/-- The code that joins several watchers to the one above them, each followed by all below it. -/
def wiringAll (parent : Nat) : List WatchChain → List Instruction
  | [] => []
  | chain :: chains =>
    join parent chain.slot chain.watched.kind.form ++ wiring chain ++ wiringAll parent chains

end

/-- The code that leaves what the root of a chain watches. -/
def rootObject (watched : Watched) : Instruction :=
  match watched.kind with
  | .staticProperty owner => .getLex (.ofQualified owner)
  | _ => .getLocal 0

/-- The code that tells the root of a chain what it watches and joins the watchers below it. -/
def rootWiring (chain : WatchChain) : List Instruction :=
  ownWatcher chain.slot ++
    [rootObject chain.watched, .callPropVoid RuntimeName.updateParent 1] ++ wiring chain

/-- The code of all four stages. -/
def code (context : ConstructorContext) (out : Emission) : List Instruction × Emission :=
  let allocated := context.allocation out
  let chains := context.database.constructed
  let constructed := context.constructionAll true chains allocated.2
  (allocated.1 ++ constructed.1 ++ chains.flatMap rootWiring ++
    RuntimeObject.execution context.database.bindings.length, constructed.2)

end ConstructorContext

/-- What a document with bindings contributes to its class. -/
structure ConstructorCode where
  /-- The code that is appended to the constructor. -/
  instructions : List Instruction
  /-- The variables that the class must declare, with their types. -/
  declarations : List (Name × Name)
  propertyGetter : Option MethodHandle
  database : Database

/-- The variables that every class with bindings declares. -/
def ConstructorCode.requiredVariables : List (Name × Name) :=
  [(RuntimeName.bindingsByDestination, RuntimeName.objectType),
    (RuntimeName.bindingsBeginWithWord, RuntimeName.objectType),
    (RuntimeName.watchers, RuntimeName.arrayType),
    (RuntimeName.bindings, RuntimeName.arrayType)]

/-- The constructor code for a database. -/
def ConstructorCode.ofDatabase (config : Config) (resolver : Resolver) (database : Database)
    (out : Emission) : ConstructorCode × Emission :=
  let getter : Option MethodHandle × Emission :=
    if database.needsPropertyGetter then
      let emitted := out.emit .propertyGetter
      (some emitted.1, emitted.2)
    else (none, out)
  let context : ConstructorContext := { config, resolver, database, propertyGetter := getter.1 }
  let generated := context.code getter.2
  ({ instructions := generated.1
     declarations := requiredVariables
     propertyGetter := getter.1
     database },
    generated.2)

end Bindery
