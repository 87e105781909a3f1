import Bindery.Proofs.Watch.Observation

/-!
# The steps of the analysis

All that the analysis can do when it comes to a name. Reading one finds a value that is known
without a watcher, or inserts one watcher, or reports the name, and it finds nothing exactly if it
reports. Calling one never reports anything, and the only watcher that it can insert is that of the
call.
-/

namespace Bindery

/-- The arguments of the call that a watcher observes, if it observes one. -/
def WatchedKind.args? : WatchedKind → Option (List Expr)
  | function args => some args
  | _ => none

namespace WatchContext

variable (context : WatchContext) {state : WatchAnalysis}

/-- The diagnostic about a name that nothing declares. -/
def undeclaredProblem (span : Span) (name : String) : Problem :=
  { kind := .unresolvedReference
    span
    message := "`" ++ name ++ "` cannot be resolved; changes to it will not update the binding" }

/-! ## Reads -/

/-- What reading a name can do. -/
inductive ReadStep (span : Span) (name : String) (state : WatchAnalysis) :
    Subject × WatchAnalysis → Prop
  | known {subject : Subject} : subject ≠ .unresolved → ReadStep span name state (subject, state)
  | watched {above : WatchPath} {watched : Watched} {type : Option String} :
    watched.kind.args? = none →
      ReadStep span name state (context.watch above watched type state)
  | reported : ReadStep span name state (report span name state)

section Reads

variable (span : Span) (name : String)

theorem readStep_watchBelow (above : Option WatchPath) {watched : Watched} (type : Option String)
    (h : watched.kind.args? = none) :
    context.ReadStep span name state (context.watchBelow above watched type state) := by
  cases above with
  | none => exact .known (by simp)
  | some above => exact .watched h

theorem readStep_documentMember (definition : Definition) :
    context.ReadStep span name state (context.documentMember definition state) := by
  unfold documentMember
  split <;> exact .watched rfl

theorem readStep_name : context.ReadStep span name state (context.name span name state) := by
  unfold WatchContext.name
  split
  · exact context.readStep_documentMember span name _
  · split
    · split
      · split <;> exact .known (by simp [Subject.detached])
      · exact .known (by simp)
    · exact .reported

/-- Behind something unknown, members are passed over. -/
theorem readStep_member {receiver : Subject} (h : receiver ≠ .unresolved) :
    context.ReadStep span name state (context.member span receiver name state) := by
  cases receiver with
  | unresolved => exact absurd rfl h
  | document =>
    simp only [member]
    split
    · exact context.readStep_documentMember span name _
    · exact .reported
  | classObject qualified =>
    simp only [member]
    split
    · exact .watched rfl
    · exact .reported
  | value above type =>
    simp only [member]
    split
    · exact context.readStep_watchBelow span name above _ rfl
    · split
      · exact context.readStep_watchBelow span name above _ rfl
      · split
        · split
          · exact .watched rfl
          · exact context.readStep_watchBelow span name above _ rfl
        · exact .reported

end Reads

/-! ## Calls -/

/-- What calling a method can do. -/
inductive CallStep (args : List Expr) (state : WatchAnalysis) : Subject × WatchAnalysis → Prop
  | known {subject : Subject} : CallStep args state (subject, state)
  | watched {above : WatchPath} {watched : Watched} {type : Option String} :
    watched.kind = .function args → CallStep args state (context.watch above watched type state)

theorem callStep_watchBelow {args : List Expr} (above : Option WatchPath) {watched : Watched}
    (type : Option String) (h : watched.kind = .function args) :
    context.CallStep args state (context.watchBelow above watched type state) := by
  cases above with
  | none => exact .known
  | some above => exact .watched h

variable (name : String) (args : List Expr)

theorem callStep_documentCall (definition : Definition) :
    context.CallStep args state (context.documentCall definition args state) := by
  unfold documentCall
  split
  · exact .known
  · exact .watched rfl

theorem callStep_nameCall : context.CallStep args state (context.nameCall name args state) := by
  unfold nameCall
  split
  · exact context.callStep_documentCall args _
  · split <;> exact .known

theorem callStep_memberCall (receiver : Subject) :
    context.CallStep args state (context.memberCall receiver name args state) := by
  cases receiver with
  | unresolved => exact .known
  | document =>
    simp only [memberCall]
    split
    · exact context.callStep_documentCall args _
    · exact .known
  | classObject qualified =>
    simp only [memberCall]
    split <;> exact .known
  | value above type =>
    simp only [memberCall]
    split
    · exact context.callStep_watchBelow above _ rfl
    · split
      · split
        · exact .known
        · exact context.callStep_watchBelow above _ rfl
      · exact .known

/-! ## Reports -/

variable {span : Span} {name : String} {args : List Expr} {result : Subject × WatchAnalysis}

/-- A read reports its name exactly if it finds nothing. -/
theorem ReadStep.problems_eq {context : WatchContext}
    (h : context.ReadStep span name state result) :
    result.2.problems = state.problems ++
      if result.1 = .unresolved then [undeclaredProblem span name] else [] := by
  cases h with
  | known hne => simp [hne]
  | watched => simp [watch]
  | reported => simp [report, undeclaredProblem]

theorem CallStep.problems_eq {context : WatchContext}
    (h : context.CallStep args state result) : result.2.problems = state.problems := by
  cases h <;> rfl

end WatchContext

end Bindery
