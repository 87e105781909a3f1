import Bindery.Proofs.Watch.Rules

/-!
# Where chains come from

What the rules find for a name, a member or a call is of one of three sorts: nothing observes it, it
starts a chain, or it is one step behind its receiver. All that is true of the chains of expressions
follows from these three, whatever names resolve to.
-/

namespace Bindery

namespace Resolver

variable (resolver : Resolver)

/-- The first key of a chain, and the type of the value that the chain observes. -/
inductive Opens : WatchKey → Option String → Prop
  | own {name : String} {definition : Definition} :
    resolver.documentMember? name = some definition →
    Opens (.ofProperty definition.name definition.events) definition.type
  | ownStatic {name : String} {definition : Definition} :
    resolver.documentMember? name = some definition →
    Opens (.ofStatic (definition.owner.getD resolver.documentClass) definition.name
      definition.events) definition.type
  | static {type name : String} {definition : Definition} :
    resolver.member? type name = some definition →
    Opens (.ofStatic (definition.owner.getD type) name definition.events) definition.type
  | ownCall {name : String} {definition : Definition} (args : List Expr) :
    resolver.documentMember? name = some definition →
    Opens (.ofCall definition.name args definition.events) definition.type

/-- The next key of a chain that observes a value of some type, and the type of the value that is
observed then. -/
inductive Continues (type : Option String) : WatchKey → Option String → Prop
  | xml (name : String) : TypeName.isXml type = true →
    Continues type (.ofXml name) (some "XMLList")
  | dynamic (name : String) : TypeName.isXml type = false → TypeName.isDynamic type = true →
    Continues type (.ofProperty name []) none
  | member {name : String} {definition : Definition} : TypeName.isXml type = false →
    TypeName.isDynamic type = false → resolver.member? (type.getD "") name = some definition →
    Continues type (.ofProperty name definition.events) definition.type
  | dynamicCall (name : String) (args : List Expr) :
    (TypeName.isXml type || TypeName.isDynamic type) = true →
    Continues type (.ofCall name args []) none
  | call {name : String} {definition : Definition} (args : List Expr) :
    (TypeName.isXml type || TypeName.isDynamic type) = false →
    resolver.member? (type.getD "") name = some definition →
    Continues type (.ofCall name args definition.events) definition.type

/-- How what is found in a receiver is observed. -/
inductive Finds : Subject → Subject → Prop
  | unobserved {receiver subject : Subject} : subject.chain? = none → Finds receiver subject
  | start {receiver : Subject} {key : WatchKey} {type : Option String} :
    resolver.Opens key type → Finds receiver (.start key type)
  | behind {above : Option WatchPath} {key : WatchKey} {type type' : Option String} :
    resolver.Continues type key type' → Finds (.value above type) (.behind above key type')

variable {resolver}

theorem finds_ownValue {name : String} {definition : Definition}
    (h : resolver.documentMember? name = some definition) (receiver : Subject) :
    resolver.Finds receiver (resolver.ownValue definition) := by
  unfold ownValue
  split
  · exact .start (.ownStatic h)
  · exact .start (.own h)

theorem finds_ownResult {name : String} {definition : Definition}
    (h : resolver.documentMember? name = some definition) (args : List Expr) (receiver : Subject) :
    resolver.Finds receiver (ownResult definition args) := by
  unfold ownResult
  split
  · exact .start (.ownCall args h)
  · exact .unobserved rfl

theorem finds_nameValue (name : String) (receiver : Subject) :
    resolver.Finds receiver (resolver.nameValue name) := by
  unfold nameValue
  split
  · next hmember => exact finds_ownValue hmember receiver
  · split <;> exact .unobserved rfl
  · exact .unobserved rfl

theorem finds_nameResult (name : String) (args : List Expr) (receiver : Subject) :
    resolver.Finds receiver (resolver.nameResult name args) := by
  unfold nameResult
  split
  · next hmember => exact finds_ownResult hmember args receiver
  · exact .unobserved rfl
  · exact .unobserved rfl

theorem finds_memberValue (name : String) (receiver : Subject) :
    resolver.Finds receiver (resolver.memberValue name receiver) := by
  cases receiver with
  | unresolved => exact .unobserved rfl
  | document =>
    simp only [memberValue]
    split
    · next hmember => exact finds_ownValue hmember _
    · exact .unobserved rfl
  | classObject qualified =>
    simp only [memberValue]
    split
    · next hmember => exact .start (.static hmember)
    · exact .unobserved rfl
  | value above type =>
    simp only [memberValue]
    split
    · next hxml => exact .behind (.xml name hxml)
    · next hxml =>
      rw [Bool.not_eq_true] at hxml
      split
      · next hdynamic => exact .behind (.dynamic name hxml hdynamic)
      · next hdynamic =>
        rw [Bool.not_eq_true] at hdynamic
        split
        · next hmember =>
          split
          · exact .start (.static hmember)
          · exact .behind (.member hxml hdynamic hmember)
        · exact .unobserved rfl

theorem finds_memberResult (name : String) (args : List Expr) (receiver : Subject) :
    resolver.Finds receiver (resolver.memberResult name args receiver) := by
  cases receiver with
  | unresolved => exact .unobserved rfl
  | document =>
    simp only [memberResult]
    split
    · next hmember => exact finds_ownResult hmember args _
    · exact .unobserved rfl
  | classObject qualified =>
    simp only [memberResult]
    split <;> exact .unobserved rfl
  | value above type =>
    simp only [memberResult]
    split
    · next hunknown => exact .behind (.dynamicCall name args hunknown)
    · next hknown =>
      rw [Bool.not_eq_true] at hknown
      split
      · next hmember =>
        split
        · exact .unobserved rfl
        · exact .behind (.call args hknown hmember)
      · exact .unobserved rfl

end Resolver

namespace Expr

variable {resolver : Resolver} {P : Subject → Prop}

section Induction

variable (hunobserved : ∀ subject, subject.chain? = none → P subject)
  (hfinds : ∀ receiver subject, P receiver → resolver.Finds receiver subject → P subject)
include hunobserved hfinds

/-- What is true of all that is not observed, and of all that is found in a receiver for which it is
true, is true of the values of all expressions. -/
theorem subject_induction : (e : Expr) → P (e.subject resolver)
  | .self _ | .index .. | .literal .. | .binary .. | .concat .. => hunobserved _ rfl
  | .identifier name _ =>
    hfinds .document _ (hunobserved _ rfl) (Resolver.finds_nameValue name _)
  | .member object name _ => by
    rw [subject]
    exact hfinds _ _ (subject_induction object) (Resolver.finds_memberValue name _)
  | .call (.identifier name _) args _ =>
    hfinds .document _ (hunobserved _ rfl) (Resolver.finds_nameResult name args _)
  | .call (.member object name _) args _ => by
    rw [subject]
    exact hfinds _ _ (subject_induction object) (Resolver.finds_memberResult name args _)
  | .call (.self _) _ _ | .call (.index ..) _ _ | .call (.call ..) _ _ | .call (.literal ..) _ _
  | .call (.binary ..) _ _ | .call (.concat ..) _ _ => hunobserved _ rfl

end Induction

variable {path : WatchPath}

mutual

/-- Every chain that an expression observes is that of the value of some expression. -/
theorem exists_subject_of_mem_chains :
    (e : Expr) → path ∈ e.chains resolver → ∃ part : Expr, path ∈ (part.subject resolver).chain?
  | .self _, h | .literal .., h => by simp [chains] at h
  | .identifier name span, h => by
    rw [chains, Option.mem_toList] at h
    exact ⟨.identifier name span, h⟩
  | .member object name span, h => by
    rw [chains, List.mem_append, Option.mem_toList] at h
    rcases h with h | h
    · exact exists_subject_of_mem_chains object h
    · exact ⟨.member object name span, by rwa [subject]⟩
  | .index object i _, h | .binary _ object i _, h => by
    rw [chains, List.mem_append] at h
    rcases h with h | h
    · exact exists_subject_of_mem_chains object h
    · exact exists_subject_of_mem_chains i h
  | .call callee args span, h => by
    have hargs := exists_subject_of_mem_chainsAll args
    have hcallee := exists_subject_of_mem_chains callee
    cases callee with
    | identifier name nameSpan =>
      rw [chains, List.mem_append, Option.mem_toList] at h
      rcases h with h | h
      · exact hargs h
      · exact ⟨.call (.identifier name nameSpan) args span, h⟩
    | member object name nameSpan =>
      have hobject := exists_subject_of_mem_chains object
      rw [chains, List.mem_append, List.mem_append, Option.mem_toList] at h
      rcases h with (h | h) | h
      · exact hargs h
      · exact hobject h
      · exact ⟨.call (.member object name nameSpan) args span, by rwa [subject]⟩
    | _ => exact (List.mem_append.mp h).elim hargs hcallee
  | .concat parts _, h => by
    rw [chains] at h
    exact exists_subject_of_mem_chainsAll parts h

theorem exists_subject_of_mem_chainsAll : (es : List Expr) → path ∈ chainsAll resolver es →
    ∃ part : Expr, path ∈ (part.subject resolver).chain?
  | [], h => by simp [chainsAll] at h
  | e :: es, h => by
    rw [chainsAll, List.mem_append] at h
    rcases h with h | h
    · exact exists_subject_of_mem_chains e h
    · exact exists_subject_of_mem_chainsAll es h

end

end Expr

end Bindery
