import Bindery.Binding.Basic
import Bindery.Watch.Analysis

/-!
# The rules of observation

Which property-access chains a source expression observes, said of the expression alone. A chain is
the list of its keys from the start, so the rules need neither watchers nor an order in which
expressions are looked at:

* a name of the document, with or without `this.`, starts a chain, and so does a static property;
* any other member extends the chain of its receiver, and observes nothing if that is not observed;
* arguments, element numbers, operands and parts contribute chains of their own.
-/

namespace Bindery

/-! ## Keys -/

namespace WatchKey

/-- The key of a property of an instance. -/
def ofProperty (name : String) (events : List String) : WatchKey :=
  { form := .property, name, qualifier := "", events := eventSet events }

/-- The key of a static property of a class. -/
def ofStatic (owner name : String) (events : List String) : WatchKey :=
  { form := .staticProperty, name, qualifier := owner, events := eventSet events }

/-- The key of the result of a call, which is distinguished by the text of its arguments. -/
def ofCall (name : String) (args : List Expr) (events : List String) : WatchKey :=
  { form := .function
    name
    qualifier := "(" ++ String.intercalate ", " (args.map Expr.text) ++ ")"
    events := eventSet events }

/-- The key of a part of an XML value. -/
def ofXml (name : String) : WatchKey :=
  { form := .xml, name, qualifier := "", events := [] }

end WatchKey

/-! ## Values -/

namespace Subject

/-- The chain that observes a value, if there is one. -/
def chain? : Subject → Option WatchPath
  | value chain _ => chain
  | _ => none

/-- A value at the start of a chain. -/
def start (key : WatchKey) (type : Option String) : Subject := value (some [key]) type

/-- A value one step behind another one, which is observed if that is. -/
def behind (above : Option WatchPath) (key : WatchKey) (type : Option String) : Subject :=
  value (above.map (· ++ [key])) type

end Subject

namespace Resolver

/-- A member of the document as a value. -/
def ownValue (resolver : Resolver) (definition : Definition) : Subject :=
  if definition.isStatic then
    .start (.ofStatic (definition.owner.getD resolver.documentClass) definition.name
      definition.events) definition.type
  else .start (.ofProperty definition.name definition.events) definition.type

/-- The result of a method of the document. Only what an instance method returns is observed. -/
def ownResult (definition : Definition) (args : List Expr) : Subject :=
  if definition.isFunction && !definition.isStatic then
    .start (.ofCall definition.name args definition.events) definition.type
  else .value none definition.type

/-- What a name without a receiver stands for. -/
def nameValue (resolver : Resolver) (name : String) : Subject :=
  match resolver.documentMember? name, resolver.global? name with
  | some definition, _ => resolver.ownValue definition
  | none, some definition =>
    match definition.isClass, definition.type with
    | true, some qualified => .classObject qualified
    | _, type => .value none type
  | none, none => .unresolved

/-- A member of a value. -/
def memberValue (resolver : Resolver) (name : String) : Subject → Subject
  | .unresolved => .unresolved
  | .document =>
    match resolver.documentMember? name with
    | some definition => resolver.ownValue definition
    | none => .unresolved
  | .classObject qualified =>
    match resolver.member? qualified name with
    | some definition =>
      .start (.ofStatic (definition.owner.getD qualified) name definition.events) definition.type
    | none => .unresolved
  | .value above type =>
    if TypeName.isXml type then .behind above (.ofXml name) (some "XMLList")
    else if TypeName.isDynamic type then .behind above (.ofProperty name []) none
    else
      match resolver.member? (type.getD "") name with
      | some definition =>
        if definition.isStatic then
          .start (.ofStatic (definition.owner.getD (type.getD "")) name definition.events)
            definition.type
        else .behind above (.ofProperty name definition.events) definition.type
      | none => .unresolved

/-- The result of a call of a name without a receiver. -/
def nameResult (resolver : Resolver) (name : String) (args : List Expr) : Subject :=
  match resolver.documentMember? name, resolver.global? name with
  | some definition, _ => ownResult definition args
  | none, some definition => .value none definition.type
  | none, none => .unresolved

/-- The result of a call of a member of a value. -/
def memberResult (resolver : Resolver) (name : String) (args : List Expr) : Subject → Subject
  | .unresolved => .unresolved
  | .document =>
    match resolver.documentMember? name with
    | some definition => ownResult definition args
    | none => .unresolved
  | .classObject qualified =>
    match resolver.member? qualified name with
    | some definition => .value none definition.type
    | none => .unresolved
  | .value above type =>
    if TypeName.isXml type || TypeName.isDynamic type then
      .behind above (.ofCall name args []) none
    else
      match resolver.member? (type.getD "") name with
      | some definition =>
        if definition.isStatic then .value none definition.type
        else .behind above (.ofCall name args definition.events) definition.type
      | none => .unresolved

end Resolver

/-! ## Expressions -/

namespace Expr

/-- What the rules know of the value of an expression. -/
def subject (resolver : Resolver) : Expr → Subject
  | self _ => .document
  | identifier name _ => resolver.nameValue name
  | member object name _ => resolver.memberValue name (subject resolver object)
  | call (identifier name _) args _ => resolver.nameResult name args
  | call (member object name _) args _ =>
    resolver.memberResult name args (subject resolver object)
  | call _ _ _ => .unresolved
  | index .. | literal .. | binary .. | concat .. => .value none none

mutual

/-- The chains that an expression observes: that of its value, and those of its parts. -/
def chains (resolver : Resolver) : Expr → List WatchPath
  | self _ | literal .. => []
  | identifier name _ => (resolver.nameValue name).chain?.toList
  | member object name _ =>
    chains resolver object ++
      (resolver.memberValue name (subject resolver object)).chain?.toList
  | index object i _ => chains resolver object ++ chains resolver i
  | call (identifier name _) args _ =>
    chainsAll resolver args ++ (resolver.nameResult name args).chain?.toList
  | call (member object name _) args _ =>
    chainsAll resolver args ++ chains resolver object ++
      (resolver.memberResult name args (subject resolver object)).chain?.toList
  | call callee args _ => chainsAll resolver args ++ chains resolver callee
  | binary _ left right _ => chains resolver left ++ chains resolver right
  | concat parts _ => chainsAll resolver parts

/-- The chains that several expressions observe. -/
def chainsAll (resolver : Resolver) : List Expr → List WatchPath
  | [] => []
  | e :: es => chains resolver e ++ chainsAll resolver es

end

end Expr

/-- The chains that a binding observes; without a source there are none. -/
def Binding.chains (resolver : Resolver) (binding : Binding) : List WatchPath :=
  match binding.source with
  | some source => source.chains resolver
  | none => []

end Bindery
