import Bindery.Constructor.Closure

/-!
# What has been reported

Diagnostics are only ever added behind those that are there. Which ones a stage can add tells the
stages apart.
-/

namespace Bindery

/-- What has been reported in between is of some sort. -/
def ReportsOnly (P : Problem → Prop) (before after : List Problem) : Prop :=
  ∃ reported, after = before ++ reported ∧ ∀ problem ∈ reported, P problem

namespace ReportsOnly

variable {P Q : Problem → Prop}

theorem append {before reported : List Problem} (h : ∀ problem ∈ reported, P problem) :
    ReportsOnly P before (before ++ reported) :=
  ⟨reported, rfl, h⟩

theorem refl (before : List Problem) : ReportsOnly P before before :=
  ⟨[], (List.append_nil before).symm, by simp⟩

theorem trans {first second third : List Problem} (h : ReportsOnly P first second)
    (h' : ReportsOnly P second third) : ReportsOnly P first third := by
  obtain ⟨reported, rfl, hreported⟩ := h
  obtain ⟨more, rfl, hmore⟩ := h'
  refine ⟨reported ++ more, List.append_assoc .., fun problem hproblem => ?_⟩
  rcases List.mem_append.mp hproblem with hproblem | hproblem
  · exact hreported problem hproblem
  · exact hmore problem hproblem

theorem mono {before after : List Problem} (h : ReportsOnly P before after)
    (hPQ : ∀ problem, P problem → Q problem) : ReportsOnly Q before after := by
  obtain ⟨reported, heq, hreported⟩ := h
  exact ⟨reported, heq, fun problem hproblem => hPQ problem (hreported problem hproblem)⟩

end ReportsOnly

/-! ## Code generation -/

/-- The diagnostics from before code generation. -/
def Problem.IsOfAnalysis (problem : Problem) : Prop := problem.kind ≠ .internalCodegen

/-- The diagnostics about expressions without code. -/
def Problem.IsOfClosure (problem : Problem) : Prop :=
  ∃ (error : LoweringError) (expr : Expr), error.problem? expr = some problem

/-- The diagnostics about a binding that is paired with itself. -/
def Problem.IsOfSelfPair (problem : Problem) : Prop :=
  problem.kind = .internalCodegen ∧ ∃ slot : Nat,
    problem.message = "binding " ++ toString slot ++ " cannot be its own two-way counterpart"

theorem Problem.IsOfAnalysis.not_isOfSelfPair {problem : Problem} (h : problem.IsOfAnalysis) :
    ¬problem.IsOfSelfPair :=
  fun hself => h hself.1

/-- The message about an expression ends with its quoted text. -/
theorem Problem.IsOfClosure.not_isOfSelfPair {problem : Problem} (h : problem.IsOfClosure) :
    ¬problem.IsOfSelfPair := by
  rintro ⟨-, slot, hslot⟩
  obtain ⟨error, expr, h⟩ := h
  have hmessage : problem.message =
      error.message ++ " in binding expression `" ++ expr.text ++ "`" := by
    cases error with
    | unresolvedReference name => simp [LoweringError.problem?] at h
    | unresolvedCallTarget call | unsupportedCallee callee =>
      simp only [LoweringError.problem?, Option.some.injEq] at h
      rw [← h]
  have hlast := congrArg (·.toList.getLast?) (hmessage.symm.trans hslot)
  have hquote : "`".toList.getLast? = some '`' := by decide
  have hletter : " cannot be its own two-way counterpart".toList.getLast? = some 't' := by decide
  simp only [String.toList_append, List.getLast?_append, hquote, hletter, Option.some_or] at hlast
  exact absurd hlast (by decide)

end Bindery
