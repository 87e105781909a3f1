import Bindery.Problem
import Bindery.Symbol.Resolver
import Bindery.Watch.Tree

/-!
# Which watchers an expression needs

An expression is taken apart into property-access chains, and one watcher is inserted for every
observable step:

* a name of the document, with or without `this.`, starts a chain;
* a static property starts a chain, however it is reached;
* a part of an XML value is observed as XML;
* a member of a value of unknown type gets a watcher without events;
* a call of a method is observed as a function result, and its arguments, like the operands,
  parts and element numbers of other expressions, are chains of their own.

A name that cannot be resolved is reported, and nothing behind it is observed.
-/

namespace Bindery

/-- What is known of the value of an expression. -/
inductive Subject where
  /-- The document. -/
  | document
  /-- The class of this qualified name. -/
  | classObject (qualified : String)
  /-- A value, the watcher that observes it if there is one, and its type if that is known. -/
  | value (watcher : Option WatchPath) (type : Option String)
  /-- Nothing, since some name could not be resolved. -/
  | unresolved
deriving Repr, DecidableEq, Inhabited

/-- A value that nothing observes and of which nothing is known. -/
def Subject.detached : Subject := .value none none

/-- The watchers that have been inserted and the diagnostics that have been reported. -/
structure WatchAnalysis where
  forest : WatchForest := []
  problems : List Problem := []
deriving Inhabited

/-- What stays the same while one source is analysed. -/
structure WatchContext where
  resolver : Resolver
  /-- The slot of the binding whose source it is. -/
  binding : Nat

namespace WatchContext

/-- Reports a name that nothing declares. -/
def report (span : Span) (name : String) (state : WatchAnalysis) : Subject × WatchAnalysis :=
  (.unresolved,
    { state with
      problems := state.problems ++ [{
        kind := .unresolvedReference
        span
        message :=
          "`" ++ name ++ "` cannot be resolved; changes to it will not update the binding" }] })

/-- Inserts the watcher of a step and goes on with its value. -/
def watch (context : WatchContext) (above : WatchPath) (watched : Watched) (type : Option String)
    (state : WatchAnalysis) : Subject × WatchAnalysis :=
  (.value (some (above ++ [watched.key])) type,
    { state with forest := state.forest.insert watched context.binding above })

/-- Inserts the watcher of a step below that of its receiver; a step from a value that nothing
observes is not observed either. -/
def watchBelow (context : WatchContext) (above : Option WatchPath) (watched : Watched)
    (type : Option String) (state : WatchAnalysis) : Subject × WatchAnalysis :=
  match above with
  | some above => context.watch above watched type state
  | none => (.value none type, state)

/-- Inserts the watcher of a static property, which starts a chain. -/
def watchStatic (context : WatchContext) (name owner : String) (definition : Definition)
    (state : WatchAnalysis) : Subject × WatchAnalysis :=
  context.watch []
    { kind := .staticProperty (definition.owner.getD owner)
      name
      events := eventSet definition.events }
    definition.type state

/-- A member of the document as a value. -/
def documentMember (context : WatchContext) (definition : Definition) (state : WatchAnalysis) :
    Subject × WatchAnalysis :=
  if definition.isStatic then
    context.watchStatic definition.name context.resolver.documentClass definition state
  else
    context.watch []
      { kind := .property, name := definition.name, events := eventSet definition.events }
      definition.type state

/-- A call of a member of the document. Only instance methods are observed. -/
def documentCall (context : WatchContext) (definition : Definition) (args : List Expr)
    (state : WatchAnalysis) : Subject × WatchAnalysis :=
  if definition.isStatic || !definition.isFunction then (.value none definition.type, state)
  else
    context.watch []
      { kind := .function args, name := definition.name, events := eventSet definition.events }
      definition.type state

/-- What a name without a receiver stands for. -/
def name (context : WatchContext) (span : Span) (name : String) (state : WatchAnalysis) :
    Subject × WatchAnalysis :=
  match context.resolver.documentMember? name with
  | some definition => context.documentMember definition state
  | none =>
    match context.resolver.global? name with
    | some definition =>
      if definition.isClass then
        match definition.type with
        | some qualified => (.classObject qualified, state)
        | none => (.detached, state)
      else (.value none definition.type, state)
    | none => report span name state

/-- A member of a value. -/
def member (context : WatchContext) (span : Span) (receiver : Subject) (name : String)
    (state : WatchAnalysis) : Subject × WatchAnalysis :=
  match receiver with
  | .unresolved => (.unresolved, state)
  | .document =>
    match context.resolver.documentMember? name with
    | some definition => context.documentMember definition state
    | none => report span name state
  | .classObject qualified =>
    match context.resolver.member? qualified name with
    | some definition => context.watchStatic name qualified definition state
    | none => report span name state
  | .value watcher type =>
    if TypeName.isXml type then
      context.watchBelow watcher { kind := .xml, name, events := [] } (some "XMLList") state
    else if TypeName.isDynamic type then
      context.watchBelow watcher { kind := .property, name, events := [] } none state
    else
      let type := type.getD ""
      match context.resolver.member? type name with
      | some definition =>
        if definition.isStatic then context.watchStatic name type definition state
        else
          context.watchBelow watcher
            { kind := .property, name, events := eventSet definition.events } definition.type state
      | none => report span name state

/-- The result of a call of a member. What cannot be called is left for code generation to
report. -/
def memberCall (context : WatchContext) (receiver : Subject) (name : String) (args : List Expr)
    (state : WatchAnalysis) : Subject × WatchAnalysis :=
  match receiver with
  | .unresolved => (.unresolved, state)
  | .document =>
    match context.resolver.documentMember? name with
    | some definition => context.documentCall definition args state
    | none => (.unresolved, state)
  | .classObject qualified =>
    match context.resolver.member? qualified name with
    | some definition => (.value none definition.type, state)
    | none => (.unresolved, state)
  | .value watcher type =>
    if TypeName.isXml type || TypeName.isDynamic type then
      context.watchBelow watcher { kind := .function args, name, events := [] } none state
    else
      match context.resolver.member? (type.getD "") name with
      | some definition =>
        if definition.isStatic then (.value none definition.type, state)
        else
          context.watchBelow watcher
            { kind := .function args, name, events := eventSet definition.events }
            definition.type state
      | none => (.unresolved, state)

/-- The result of a call of a name without a receiver. -/
def nameCall (context : WatchContext) (name : String) (args : List Expr) (state : WatchAnalysis) :
    Subject × WatchAnalysis :=
  match context.resolver.documentMember? name with
  | some definition => context.documentCall definition args state
  | none =>
    match context.resolver.global? name with
    | some definition => (.value none definition.type, state)
    | none => (.unresolved, state)

mutual

/-- Inserts the watchers of an expression and tells what its value is. -/
def analyze (context : WatchContext) : Expr → WatchAnalysis → Subject × WatchAnalysis
  | .self _, state => (.document, state)
  | .identifier name span, state => context.name span name state
  | .member object name span, state =>
    let receiver := analyze context object state
    context.member span receiver.1 name receiver.2
  | .index object i _, state =>
    (.detached, (analyze context i (analyze context object state).2).2)
  | .call (.identifier name _) args _, state =>
    context.nameCall name args (analyzeAll context args state)
  | .call (.member object name _) args _, state =>
    let receiver := analyze context object (analyzeAll context args state)
    context.memberCall receiver.1 name args receiver.2
  | .call callee args _, state =>
    (.unresolved, (analyze context callee (analyzeAll context args state)).2)
  | .literal .., state => (.detached, state)
  | .binary _ left right _, state =>
    (.detached, (analyze context right (analyze context left state).2).2)
  | .concat parts _, state => (.detached, analyzeAll context parts state)

/-- Inserts the watchers of several expressions, one after the other. -/
def analyzeAll (context : WatchContext) : List Expr → WatchAnalysis → WatchAnalysis
  | [], state => state
  | e :: es, state => analyzeAll context es (analyze context e state).2

end

end WatchContext

end Bindery
