import Bindery.Constructor.Closure
import Bindery.Proofs.Machine.Heap
import Bindery.Proofs.Machine.Lowering
import Bindery.Proofs.Watch.Trie
import Bindery.Symbol.Table

/-!
# What the getter reads is watched

Sources are analysed and turned into code by two functions that do not know of each other. Here
the code is run on values of which only the origin matters: the document itself, or anything else.
Whatever the code reads directly from the document is then seen to start a chain that the rules of
observation find, and so does every method that it calls directly on the document. A property of
the document that is called although it is no method is not observed.
-/

namespace Bindery

/-! ## Origins -/

/-- Where a value comes from. -/
inductive Origin where
  /-- It is the document, taken from local 0. -/
  | document
  | elsewhere
deriving DecidableEq

/-- A heap on which no property holds the document again, so that whatever is accessed in the
document is accessed through local 0. -/
def Heap.origins : Heap Origin Name where
  constant _ := .elsewhere
  lookUp _ := .elsewhere
  findOwner _ := .elsewhere
  property _ name := name
  element _ _ := .runtime
  held _ _ := .elsewhere
  result _ _ _ := .elsewhere
  toText _ := .elsewhere
  arithmetic _ _ _ := .elsewhere

/-- Only `this` has the document as its value. -/
def Expr.origin : Expr → Origin
  | self _ => .document
  | _ => .elsewhere

/-! ## Actions and their accesses -/

/-- What is done on the heap of origins. -/
abbrev Tracing (α : Type) : Type := StateT (List (Access Origin Name)) Option α

/-- An action has a result, and all its accesses have some property. -/
def Traces {α : Type} (P : Access Origin Name → Prop) (action : Tracing α) (result : α) : Prop :=
  ∃ accesses, (∀ access ∈ accesses, P access) ∧
    ∀ before, action before = some (result, before ++ accesses)

namespace Traces

variable {α β : Type} {P Q : Access Origin Name → Prop}

theorem pure (result : α) : Traces P (Pure.pure result) result :=
  ⟨[], by simp, fun before => by simp; rfl⟩

theorem bind {action : Tracing α} {result : α}
    {next : α → Tracing β} {final : β}
    (h : Traces P action result) (h' : Traces P (next result) final) :
    Traces P (action >>= next) final := by
  obtain ⟨accesses, hall, hrun⟩ := h
  obtain ⟨more, hmore, hnext⟩ := h'
  have hboth : ∀ access ∈ accesses ++ more, P access := by
    simpa [or_imp, forall_and] using ⟨hall, hmore⟩
  refine ⟨accesses ++ more, hboth, fun before => ?_⟩
  show (StateT.bind action next) before = _
  rw [StateT.bind, hrun before, ← List.append_assoc]
  exact hnext (before ++ accesses)

theorem note {access : Access Origin Name} (h : P access) : Traces P (Heap.note access) () :=
  ⟨[access], by simpa using h, fun _ => rfl⟩

theorem read {object : Origin} {name : Name} (h : P (.read object name)) :
    Traces P (Heap.origins.machine.read object name) .elsewhere :=
  (note h).bind (pure Origin.elsewhere)

theorem readAt {object : Origin} (index : Origin) (h : P (.read object .runtime)) :
    Traces P (Heap.origins.machine.readAt object index) .elsewhere :=
  (note h).bind (pure Origin.elsewhere)

theorem call {object : Origin} {name : Name} {args : List Origin} (h : P (.call object name args)) :
    Traces P (Heap.origins.machine.call object name args) .elsewhere :=
  (note h).bind (pure Origin.elsewhere)

/-- Actions one after the other. -/
theorem exists_mapM {actions : List (Tracing α)}
    (h : ∀ action ∈ actions, ∃ result, Traces P action result) :
    ∃ results, Traces P (actions.mapM id) results := by
  induction actions with
  | nil => exact ⟨[], pure []⟩
  | cons action actions ih =>
    obtain ⟨result, hresult⟩ := h action List.mem_cons_self
    obtain ⟨results, hresults⟩ := ih fun other hother => h other (List.mem_cons_of_mem _ hother)
    rw [List.mapM_cons]
    exact ⟨result :: results, hresult.bind (hresults.bind (pure _))⟩

/-- The parts of a text. -/
theorem appendParts {parts : List (Tracing Origin)}
    (h : ∀ part ∈ parts, ∃ result, Traces P part result) :
    Traces P (parts.foldlM Heap.origins.machine.appendPart .elsewhere) .elsewhere := by
  induction parts with
  | nil => exact pure Origin.elsewhere
  | cons part parts ih =>
    obtain ⟨result, hresult⟩ := h part List.mem_cons_self
    rw [List.foldlM_cons]
    exact (hresult.bind (pure Origin.elsewhere)).bind
      (ih fun other hother => h other (List.mem_cons_of_mem _ hother))

end Traces

/-! ## Names -/

/-- What is accessed directly in the document starts one of the chains: an instance member that is
read, and a method that is called. -/
def Covered (resolver : Resolver) (observed : List WatchPath) : Access Origin Name → Prop
  | .read .document (.inPublic name) => ∃ definition,
    resolver.documentMember? name = some definition ∧ definition.isStatic = false ∧
      [WatchKey.ofProperty definition.name definition.events] ∈ observed
  | .call .document (.inPublic name) _ => ∃ definition,
    resolver.documentMember? name = some definition ∧ definition.isStatic = false ∧
      (definition.isFunction = true → ∃ args,
        [WatchKey.ofCall definition.name args definition.events] ∈ observed)
  | _ => True

section Names

variable {resolver : Resolver} {observed : List WatchPath}

/-- The holder of a document member is the document exactly for instance members. -/
theorem traces_holder {P : Access Origin Name → Prop} (definition : Definition) :
    Traces P (Heap.origins.machine.holder resolver .document definition)
      (if definition.isStatic then .elsewhere else .document) := by
  unfold Machine.holder
  cases definition.isStatic with
  | true => exact .pure Origin.elsewhere
  | false => exact .pure Origin.document

/-- Whatever a name reads from the document starts the chain of the name. -/
theorem traces_nameMeaning {name : String} {value : Tracing Origin}
    (h : Heap.origins.machine.nameMeaning? resolver .document name = some value)
    (hchains : ∀ definition, resolver.documentMember? name = some definition →
      (resolver.ownValue definition).chain?.toList ⊆ observed) :
    Traces (Covered resolver observed) value .elsewhere := by
  unfold Machine.nameMeaning? at h
  cases hmember : resolver.documentMember? name with
  | some definition =>
    simp only [hmember] at h
    obtain rfl := Option.some.inj h
    refine (traces_holder definition).bind (.read ?_)
    cases hstatic : definition.isStatic with
    | true => trivial
    | false =>
      refine ⟨definition, hmember, hstatic, hchains definition hmember ?_⟩
      simp [Resolver.ownValue, hstatic, Subject.start, Subject.chain?]
  | none =>
    cases hglobal : resolver.global? name with
    | none => simp [hmember, hglobal] at h
    | some definition =>
      simp only [hmember, hglobal] at h
      split at h
      · obtain rfl := Option.some.inj h
        exact .pure Origin.elsewhere
      · obtain rfl := Option.some.inj h
        exact .pure Origin.elsewhere

/-- A call accesses what its receiver and its arguments access, and the method itself. -/
theorem traces_callMeaning {receiver : Tracing Origin} {object : Origin}
    {args : List (Tracing Origin)} {name : String}
    (hreceiver : Traces (Covered resolver observed) receiver object)
    (hargs : ∀ arg ∈ args, ∃ result, Traces (Covered resolver observed) arg result)
    (hcall : ∀ results, Covered resolver observed (.call object (.inPublic name) results)) :
    Traces (Covered resolver observed)
      (Heap.origins.machine.callMeaning receiver name args) .elsewhere := by
  obtain ⟨results, hresults⟩ := Traces.exists_mapM hargs
  exact hreceiver.bind (hresults.bind (.call (hcall results)))

/-- Whatever a call without a receiver calls on the document starts the chain of its result. -/
theorem traces_ownCall (args : List Expr) {name : String} {receiver : Tracing Origin}
    {values : List (Tracing Origin)}
    (hreceiver : Heap.origins.machine.ownerMeaning? resolver .document name = some receiver)
    (hargs : ∀ value ∈ values, ∃ result, Traces (Covered resolver observed) value result)
    (hchains : ∀ definition, resolver.documentMember? name = some definition →
      (Resolver.ownResult definition args).chain?.toList ⊆ observed) :
    Traces (Covered resolver observed)
      (Heap.origins.machine.callMeaning receiver name values) .elsewhere := by
  unfold Machine.ownerMeaning? at hreceiver
  cases hmember : resolver.documentMember? name with
  | some definition =>
    simp only [hmember] at hreceiver
    obtain rfl := Option.some.inj hreceiver
    refine traces_callMeaning (traces_holder definition) hargs fun results => ?_
    cases hstatic : definition.isStatic with
    | true => trivial
    | false =>
      refine ⟨definition, hmember, hstatic, fun hfunction => ⟨args, ?_⟩⟩
      refine hchains definition hmember ?_
      simp [Resolver.ownResult, hstatic, hfunction, Subject.start, Subject.chain?]
  | none =>
    cases hglobal : resolver.global? name with
    | none => simp [hmember, hglobal] at hreceiver
    | some definition =>
      simp only [hmember, hglobal] at hreceiver
      obtain rfl := Option.some.inj hreceiver
      exact traces_callMeaning (.pure Origin.elsewhere) hargs fun results => trivial

end Names

/-! ## Expressions -/

namespace Expr

variable {resolver : Resolver}

theorem origin_of_ne_self {e : Expr} (h : ∀ span, e = self span → False) :
    e.origin = .elsewhere := by
  cases e with
  | self span => exact absurd rfl (h span)
  | _ => rfl

/-- What is made of two results exists if both of them do. -/
theorem exists_of_bind_bind {α β γ : Type} {first : Option α} {second : Option β}
    {f : α → β → γ} {result : γ}
    (h : (do
      let a ← first
      let b ← second
      some (f a b)) = some result) :
    ∃ a b, first = some a ∧ second = some b ∧ f a b = result := by
  obtain ⟨a, ha, h⟩ := Option.bind_eq_some_iff.mp h
  obtain ⟨b, hb, h⟩ := Option.bind_eq_some_iff.mp h
  exact ⟨a, b, ha, hb, Option.some.inj h⟩

variable {observed : List WatchPath}

mutual

/-- What the value of an expression takes directly from the document starts a chain of the
expression. -/
theorem traces_meaning : (e : Expr) → {value : Tracing Origin} →
    e.meaning? Heap.origins.machine resolver .document = some value →
    e.chains resolver ⊆ observed → Traces (Covered resolver observed) value e.origin
  | .self _, _, h, _ => by
    rw [meaning?] at h
    obtain rfl := Option.some.inj h
    exact .pure Origin.document
  | .identifier name _, _, h, hchains => by
    rw [meaning?] at h
    refine traces_nameMeaning h fun definition hmember => ?_
    rwa [chains, Resolver.nameValue, hmember] at hchains
  | .member object name _, _, h, hchains => by
    rcases object.eq_self_or_not with ⟨_, rfl⟩ | hself
    · rw [meaning?] at h
      refine traces_nameMeaning h fun definition hmember => ?_
      simpa only [chains, subject, Resolver.memberValue, hmember, List.nil_append] using hchains
    · rw [meaning?] at h
      · obtain ⟨objectValue, hobject, heq⟩ := Option.bind_eq_some_iff.mp h
        obtain rfl := Option.some.inj heq
        rw [chains] at hchains
        have htraces := traces_meaning object hobject (List.append_subset.mp hchains).1
        -- Only `this` is the document, so what is read here needs no chain of its own.
        rw [origin_of_ne_self hself] at htraces
        exact htraces.bind (.read trivial)
      · exact hself
  | .index object i _, _, h, hchains => by
    rw [meaning?] at h
    obtain ⟨objectValue, indexValue, hobject, hindex, rfl⟩ := exists_of_bind_bind h
    obtain ⟨hobjectChains, hindexChains⟩ := List.append_subset.mp (by rwa [chains] at hchains)
    refine (traces_meaning object hobject hobjectChains).bind
      ((traces_meaning i hindex hindexChains).bind (.readAt i.origin ?_))
    cases object.origin <;> trivial
  | .call (.identifier name _) args _, _, h, hchains => by
    rw [meaning?] at h
    obtain ⟨receiver, values, hreceiver, hvalues, rfl⟩ := exists_of_bind_bind h
    rw [chains, List.append_subset] at hchains
    refine traces_ownCall args hreceiver (traces_meanings args hvalues hchains.1)
      fun definition hmember => ?_
    simpa only [Resolver.nameResult, hmember] using hchains.2
  | .call (.member object name _) args _, _, h, hchains => by
    rw [chains, List.append_subset, List.append_subset] at hchains
    obtain ⟨⟨hargs, hobjectChains⟩, hresult⟩ := hchains
    rcases object.eq_self_or_not with ⟨_, rfl⟩ | hself
    · rw [meaning?] at h
      obtain ⟨receiver, values, hreceiver, hvalues, rfl⟩ := exists_of_bind_bind h
      refine traces_ownCall args hreceiver (traces_meanings args hvalues hargs)
        fun definition hmember => ?_
      simpa only [subject, Resolver.memberResult, hmember] using hresult
    · rw [meaning?] at h
      · obtain ⟨receiver, values, hreceiver, hvalues, rfl⟩ := exists_of_bind_bind h
        have htraces := traces_meaning object hreceiver hobjectChains
        rw [origin_of_ne_self hself] at htraces
        exact traces_callMeaning htraces (traces_meanings args hvalues hargs) fun _ => trivial
      · exact hself
  | .call (.self _) _ _, _, h, _ | .call (.index ..) _ _, _, h, _ | .call (.call ..) _ _, _, h, _
  | .call (.literal ..) _ _, _, h, _ | .call (.binary ..) _ _, _, h, _
  | .call (.concat ..) _ _, _, h, _ => by
    simp [meaning?] at h
  | .literal _ _, _, h, _ => by
    rw [meaning?] at h
    obtain rfl := Option.some.inj h
    exact .pure Origin.elsewhere
  | .binary op left right _, _, h, hchains => by
    rw [meaning?] at h
    obtain ⟨leftValue, rightValue, hleft, hright, rfl⟩ := exists_of_bind_bind h
    obtain ⟨hleftChains, hrightChains⟩ := List.append_subset.mp (by rwa [chains] at hchains)
    exact (traces_meaning left hleft hleftChains).bind
      ((traces_meaning right hright hrightChains).bind (.pure Origin.elsewhere))
  | .concat parts _, _, h, hchains => by
    rw [meaning?] at h
    obtain ⟨values, hvalues, heq⟩ := Option.bind_eq_some_iff.mp h
    obtain rfl := Option.some.inj heq
    exact .appendParts (traces_meanings parts hvalues (by rwa [chains] at hchains))

/-- What the values of several expressions take directly from the document starts one of their
chains. -/
theorem traces_meanings : (es : List Expr) → {values : List (Tracing Origin)} →
    meanings? Heap.origins.machine resolver .document es = some values →
    chainsAll resolver es ⊆ observed →
    ∀ value ∈ values, ∃ result, Traces (Covered resolver observed) value result
  | [], _, h, _ => by
    rw [meanings?] at h
    obtain rfl := Option.some.inj h
    simp
  | e :: es, _, h, hchains => by
    rw [meanings?] at h
    obtain ⟨first, rest, hfirst, hrest, rfl⟩ := exists_of_bind_bind h
    rw [chainsAll, List.append_subset] at hchains
    intro value hvalue
    rcases List.mem_cons.mp hvalue with rfl | hvalue
    · exact ⟨e.origin, traces_meaning e hfirst hchains.1⟩
    · exact traces_meanings es hrest hchains.2 value hvalue

end

end Expr

/-! ## The main result -/

namespace Database

variable {resolver : Resolver} {bindings : List Binding}

end Database

end Bindery
