import Bindery.Binding.Database
import Bindery.Proofs.Expr.Lookups
import Bindery.Proofs.Watch.Steps

/-!
# What the analysis of sources reports

The analysis of a source reports the places at which it reads a name that nothing declares, one by
one and nothing else. A place behind such a name is passed over. Which places these are is found in
the expression alone.

The names that code generation reads without a receiver are among the places that analysis looks at.
So where code generation fails silently since such a name is not declared, analysis has reported a
name.
-/

namespace Bindery

namespace Expr

/-- The name that an expression reads last. -/
def readName : Expr → String
  | identifier name _ | member _ name _ => name
  | _ => ""

/-- The diagnostic about a place at which a name is read that nothing declares. -/
def undeclaredProblem (place : Expr) : Problem :=
  WatchContext.undeclaredProblem place.span place.readName

/-! ## Places -/

mutual

/-- The places inside an expression at which the analysis reads a name, in the order of the
analysis: arguments come before what is called. A name that is called is not read. -/
def places : Expr → List Expr
  | self _ | literal .. => []
  | identifier name span => [identifier name span]
  | member object name span => places object ++ [member object name span]
  | index object i _ => places object ++ places i
  | call (identifier _ _) args _ => placesAll args
  | call (member object _ _) args _ => placesAll args ++ places object
  | call callee args _ => placesAll args ++ places callee
  | binary _ left right _ => places left ++ places right
  | concat elements _ => placesAll elements

/-- The places inside several expressions at which the analysis reads a name. -/
def placesAll : List Expr → List Expr
  | [] => []
  | e :: es => places e ++ placesAll es

end

/-- Whether nothing declares the name that is read at a place, though what is in front of the name
is known. -/
def isUndeclared (resolver : Resolver) : Expr → Bool
  | identifier name _ => resolver.nameValue name = .unresolved
  | member object name _ =>
    object.subject resolver ≠ .unresolved ∧
      resolver.memberValue name (object.subject resolver) = .unresolved
  | _ => false

/-- The places inside an expression at which a name is read that nothing declares. -/
def undeclared (resolver : Resolver) (e : Expr) : List Expr :=
  e.places.filter (·.isUndeclared resolver)

theorem mem_undeclared {resolver : Resolver} {e place : Expr} :
    place ∈ e.undeclared resolver ↔ place ∈ e.places ∧ place.isUndeclared resolver :=
  List.mem_filter

end Expr

/-! ## Names without a receiver -/

namespace Resolver

variable {resolver : Resolver} {name : String}

theorem ownValue_ne_unresolved {definition : Definition} :
    resolver.ownValue definition ≠ .unresolved := by
  unfold ownValue
  split <;> simp [Subject.start]

/-- A name without a receiver is unknown exactly if nothing declares it. -/
theorem nameValue_eq_unresolved_iff :
    resolver.nameValue name = .unresolved ↔ resolver.declares name = false := by
  unfold nameValue
  split
  · next hmember => simp [declares, hmember, ownValue_ne_unresolved]
  · next hmember hglobal =>
    split <;> simp [declares, hglobal]
  · next hmember hglobal => simp [declares, hmember, hglobal]

/-- A member of the document is unknown exactly if the document has none of its name. -/
theorem memberValue_document_eq_unresolved_iff :
    resolver.memberValue name .document = .unresolved ↔ resolver.documentMember? name = none := by
  simp only [memberValue]
  cases resolver.documentMember? name <;> simp [ownValue_ne_unresolved]

end Resolver

namespace Expr

variable {name : String}

/-- A name of the document is a name by itself or a member of the document. -/
theorem ownName?_eq_some_iff {place : Expr} : place.ownName? = some name ↔
    (∃ span, place = identifier name span) ∨
      ∃ start span, place = member (self start) name span := by
  constructor
  · intro h
    cases place with
    | identifier other span =>
      obtain rfl := Option.some.inj h
      exact .inl ⟨span, rfl⟩
    | member object other span =>
      cases object with
      | self start =>
        obtain rfl := Option.some.inj h
        exact .inr ⟨start, span, rfl⟩
      | _ => simp [ownName?] at h
    | _ => simp [ownName?] at h
  · rintro (⟨span, rfl⟩ | ⟨start, span, rfl⟩) <;> rfl

/-- What is called counts as a place only where it is not itself a name of the document. -/
theorem mem_places_call {place callee : Expr} {args : List Expr} {span : Span}
    (hplace : place.ownName? = some name) :
    place ∈ (call callee args span).places ↔
      callee.ownName? = none ∧ place ∈ callee.places ∨ place ∈ placesAll args := by
  cases callee with
  | identifier other => simp [places, ownName?]
  | member object other =>
    rcases object.eq_self_or_not with ⟨_, rfl⟩ | hself
    · simp [places, ownName?]
    · have hne {span : Span} : place ≠ member object other span := by
        rintro rfl
        simp [ownName?_member hself] at hplace
      simp [places, ownName?_member hself, hne, or_comm]
  | _ => simp [places, ownName?, or_comm]

mutual

/-- Code generation reads the same names without a receiver as the analysis. -/
theorem read_mem_lookups_iff : (e : Expr) →
    (.read name ∈ e.lookups ↔ ∃ place ∈ e.places, place.ownName? = some name)
  | .self _ | .literal .. => by simp [lookups, places]
  | .identifier other _ => by simp [lookups, places, ownName?, eq_comm]
  | .member object other _ => by
    rcases object.eq_self_or_not with ⟨_, rfl⟩ | hself
    · simp [lookups, places, isSelf, ownName?, eq_comm]
    · rw [lookups, if_neg (not_isSelf hself), read_mem_lookups_iff object]
      simp [places, ownName?_member hself]
  | .index object i _ => by
    simp only [lookups, places, List.mem_append, read_mem_lookups_iff object,
      read_mem_lookups_iff i, or_and_right, exists_or]
  | .call callee args _ => by
    rw [read_mem_lookups_call_iff, read_mem_lookups_iff callee, read_mem_lookupsAll_iff args]
    constructor
    · rintro (⟨hown, place, hmem, hplace⟩ | ⟨place, hmem, hplace⟩)
      · exact ⟨place, (mem_places_call hplace).mpr (.inl ⟨hown, hmem⟩), hplace⟩
      · exact ⟨place, (mem_places_call hplace).mpr (.inr hmem), hplace⟩
    · rintro ⟨place, hmem, hplace⟩
      exact ((mem_places_call hplace).mp hmem).imp
        (fun ⟨hown, hcallee⟩ => ⟨hown, place, hcallee, hplace⟩) fun hargs => ⟨place, hargs, hplace⟩
  | .binary _ left right _ => by
    simp only [lookups, places, List.mem_append, read_mem_lookups_iff left,
      read_mem_lookups_iff right, or_and_right, exists_or]
  | .concat elements _ => by
    rw [lookups, places, read_mem_lookupsAll_iff elements]

theorem read_mem_lookupsAll_iff : (es : List Expr) →
    (.read name ∈ lookupsAll es ↔ ∃ place ∈ placesAll es, place.ownName? = some name)
  | [] => by simp [lookupsAll, placesAll]
  | e :: es => by
    simp only [lookupsAll, placesAll, List.mem_append, read_mem_lookups_iff e,
      read_mem_lookupsAll_iff es, or_and_right, exists_or]

end

section Undeclared

variable {resolver : Resolver} {e place : Expr} (hplace : place.ownName? = some name)
include hplace

theorem isUndeclared_of_not_declares (h : resolver.declares name = false) :
    place.isUndeclared resolver := by
  rcases ownName?_eq_some_iff.mp hplace with ⟨span, rfl⟩ | ⟨start, span, rfl⟩
  · simpa [isUndeclared] using Resolver.nameValue_eq_unresolved_iff.mpr h
  · have hmember := (Resolver.declares_eq_false_iff.mp h).1
    simpa [isUndeclared, subject] using
      Resolver.memberValue_document_eq_unresolved_iff.mpr hmember

/-- An unknown name of the document is not declared; behind `this.`, it may be visible elsewhere. -/
theorem not_declares_of_isUndeclared (h : place.isUndeclared resolver)
    (hglobal : ∀ start span, place = member (self start) name span →
      resolver.global? name = none) : resolver.declares name = false := by
  rcases ownName?_eq_some_iff.mp hplace with ⟨span, rfl⟩ | ⟨start, span, rfl⟩
  · have hvalue : resolver.nameValue name = .unresolved := by simpa [isUndeclared] using h
    exact Resolver.nameValue_eq_unresolved_iff.mp hvalue
  · have hvalue : resolver.memberValue name .document = .unresolved := by
      simpa [isUndeclared, subject] using h
    exact Resolver.declares_eq_false_iff.mpr
      ⟨Resolver.memberValue_document_eq_unresolved_iff.mp hvalue, hglobal start span rfl⟩

end Undeclared

/-- Where code generation reads a name that nothing declares, analysis reports it. -/
theorem exists_undeclared_of_read {resolver : Resolver} {e : Expr} (h : .read name ∈ e.lookups)
    (hname : resolver.declares name = false) :
    ∃ place ∈ e.undeclared resolver, place.ownName? = some name := by
  obtain ⟨place, hmem, hplace⟩ := (read_mem_lookups_iff e).mp h
  exact ⟨place, mem_undeclared.mpr ⟨hmem, isUndeclared_of_not_declares hplace hname⟩, hplace⟩

end Expr

/-! ## Reports -/

namespace WatchContext

variable (context : WatchContext)

mutual

/-- The analysis of an expression reports the places at which it reads a name that nothing
declares. -/
theorem problems_analyze : (e : Expr) → (state : WatchAnalysis) →
    (context.analyze e state).2.problems =
      state.problems ++ (e.undeclared context.resolver).map Expr.undeclaredProblem
  | .self _, state | .literal .., state => by
    rw [analyze, Expr.undeclared, Expr.places]
    exact (List.append_nil _).symm
  | .identifier name span, state => by
    have hsubject := (context.analyzed_analyze (.identifier name span) state).subject_eq
    rw [analyze, Expr.subject] at hsubject
    rw [analyze, (context.readStep_name span name).problems_eq, hsubject]
    by_cases hunknown : context.resolver.nameValue name = .unresolved <;>
      simp [Expr.undeclared, Expr.places, Expr.isUndeclared, hunknown, Expr.undeclaredProblem,
        Expr.span, Expr.readName]
  | .member object name span, state => by
    have hobject := problems_analyze object state
    have hsubject := (context.analyzed_analyze object state).subject_eq
    have hmember := (context.analyzed_analyze (.member object name span) state).subject_eq
    rw [analyze, Expr.subject] at hmember
    rw [analyze, Expr.undeclared, Expr.places, List.filter_append, ← Expr.undeclared,
      List.map_append, ← List.append_assoc, ← hobject]
    -- Members of something unknown are not looked up, and so not reported.
    by_cases hunknown : (context.analyze object state).1 = .unresolved
    · rw [hunknown]
      simp [member, Expr.isUndeclared, ← hsubject, hunknown]
    · rw [(context.readStep_member span name hunknown).problems_eq, hmember, ← hsubject]
      by_cases hvalue : context.resolver.memberValue name (context.analyze object state).1 =
          .unresolved <;>
        simp [Expr.isUndeclared, ← hsubject, hunknown, hvalue, Expr.undeclaredProblem, Expr.span,
          Expr.readName]
  | .index object i _, state => by
    rw [analyze, problems_analyze i, problems_analyze object]
    simp [Expr.undeclared, Expr.places]
  | .call callee args _, state => by
    have hargs := problems_analyzeAll args state
    have hcallee := problems_analyze callee (context.analyzeAll args state)
    cases callee with
    | identifier name =>
      rw [analyze, (context.callStep_nameCall name args).problems_eq, hargs]
      simp [Expr.undeclared, Expr.places]
    | member object name =>
      have hobject := problems_analyze object (context.analyzeAll args state)
      rw [analyze, (context.callStep_memberCall name args _).problems_eq, hobject, hargs]
      simp [Expr.undeclared, Expr.places]
    | _ =>
      rw [hargs, List.append_assoc, ← List.map_append, Expr.undeclared,
        ← List.filter_append] at hcallee
      exact hcallee
  | .binary _ left right _, state => by
    rw [analyze, problems_analyze right, problems_analyze left]
    simp [Expr.undeclared, Expr.places]
  | .concat elements _, state => by
    rw [analyze, problems_analyzeAll elements]
    rfl

theorem problems_analyzeAll : (es : List Expr) → (state : WatchAnalysis) →
    (context.analyzeAll es state).problems = state.problems ++
      ((Expr.placesAll es).filter (·.isUndeclared context.resolver)).map Expr.undeclaredProblem
  | [], state => by
    rw [analyzeAll, Expr.placesAll]
    exact (List.append_nil _).symm
  | e :: es, state => by
    rw [analyzeAll, problems_analyzeAll es, problems_analyze e]
    simp [Expr.undeclared, Expr.placesAll]

end

end WatchContext

/-! ## All sources -/

/-- What the analysis of the source of a binding reports. -/
def Binding.sourceProblems (resolver : Resolver) (binding : Binding) : List Problem :=
  match binding.source with
  | some source => (WatchContext.analyze ⟨resolver, binding.slot⟩ source {}).2.problems
  | none => []

/-- What is reported about a source are the places at which it reads a name that nothing
declares. -/
theorem Binding.sourceProblems_eq {resolver : Resolver} {binding : Binding} {source : Expr}
    (h : binding.source = some source) :
    binding.sourceProblems resolver = (source.undeclared resolver).map Expr.undeclaredProblem := by
  rw [sourceProblems, h]
  exact WatchContext.problems_analyze _ source {}

theorem Binding.kind_of_mem_sourceProblems {resolver : Resolver} {binding : Binding}
    {problem : Problem} (h : problem ∈ binding.sourceProblems resolver) :
    problem.kind = .unresolvedReference := by
  cases hsource : binding.source with
  | some source =>
    rw [sourceProblems_eq hsource] at h
    obtain ⟨place, -, rfl⟩ := List.mem_map.mp h
    rfl
  | none => simp [sourceProblems, hsource] at h

namespace Database

variable {resolver : Resolver} {bindings : List Binding}

/-- What is reported about the sources of bindings is reported binding by binding. -/
theorem problems_ofBindings :
    (ofBindings resolver bindings).2 = bindings.flatMap (Binding.sourceProblems resolver) := by
  have hall (state : WatchAnalysis) :
      (bindings.foldl
        (fun state binding =>
          match binding.source with
          | some source => (WatchContext.analyze ⟨resolver, binding.slot⟩ source state).2
          | none => state)
        state).problems =
      state.problems ++ bindings.flatMap (Binding.sourceProblems resolver) := by
    induction bindings generalizing state with
    | nil => simp
    | cons binding bindings ih =>
      rw [List.foldl_cons, ih, List.flatMap_cons, ← List.append_assoc]
      congr 1
      cases hsource : binding.source with
      | some source =>
        rw [Binding.sourceProblems_eq hsource]
        exact WatchContext.problems_analyze _ source state
      | none =>
        rw [Binding.sourceProblems, hsource]
        exact (List.append_nil _).symm
  exact hall {}

/-- What is reported about the sources of bindings is about names that cannot be resolved. -/
theorem kind_of_mem_problems {problem : Problem}
    (h : problem ∈ (ofBindings resolver bindings).2) : problem.kind = .unresolvedReference := by
  rw [problems_ofBindings] at h
  obtain ⟨binding, -, hproblem⟩ := List.mem_flatMap.mp h
  exact binding.kind_of_mem_sourceProblems hproblem

end Database

end Bindery
