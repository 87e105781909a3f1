import Bindery.Proofs.Reporting

/-!
# Emitted closures

Emitting only ever adds to what has been emitted: a handle keeps naming the same method, and all
that is reported on the way is why some expression has no code.
-/

namespace Bindery

/-- A closure that is reported, if at all, as an expression without code. -/
def Closure.Explained (closure : Closure) : Prop :=
  ∀ problem, closure = .error (some problem) → problem.IsOfClosure

namespace Closure

theorem explained_getter (resolver : Resolver) (slot : Nat) (source : Expr) :
    (getter resolver slot source).Explained := by
  intro problem h
  simp only [getter] at h
  split at h
  · next error _ => exact ⟨error, source, Except.error.inj h⟩
  · simp at h

theorem explained_argumentCode (resolver : Resolver) {args : List Expr} {problem : Problem}
    (h : argumentCode resolver args = .error (some problem)) : problem.IsOfClosure := by
  induction args with
  | nil => simp [argumentCode] at h
  | cons arg args ih =>
    simp only [argumentCode] at h
    split at h
    · next error _ => exact ⟨error, arg, Except.error.inj h⟩
    · cases hargs : argumentCode resolver args with
      | error problem? =>
        rw [hargs] at h
        exact ih (hargs.trans h)
      | ok code => simp [hargs, Except.map] at h

theorem explained_parameters (resolver : Resolver) (name : String) (args : List Expr) :
    (parameters resolver name args).Explained := by
  intro problem h
  unfold parameters at h
  cases hargs : argumentCode resolver args with
  | error problem? =>
    rw [hargs] at h
    obtain rfl := Except.error.inj h
    exact explained_argumentCode resolver hargs
  | ok code => simp [hargs, Except.map] at h

end Closure

/-- A handle names an emitted method. -/
def Emission.Names (out : Emission) (handle : MethodHandle) (method : Method) : Prop :=
  out.methods.get? handle = some method

/-- A later state of an emission. -/
structure Emission.Follows (out out' : Emission) : Prop where
  /-- What has been emitted keeps its handle. -/
  names : ∀ {handle method}, out.Names handle method → out'.Names handle method
  /-- What has been reported since is about expressions without code. -/
  reported : ReportsOnly Problem.IsOfClosure out.problems out'.problems

namespace Emission

theorem Follows.refl (out : Emission) : out.Follows out := ⟨id, .refl _⟩

theorem Follows.trans {out out' out'' : Emission} (h : out.Follows out')
    (h' : out'.Follows out'') : out.Follows out'' :=
  ⟨h'.names ∘ h.names, h.reported.trans h'.reported⟩

/-- The handle of an emitted method names it. -/
theorem names_emit (method : Method) (out : Emission) :
    (out.emit method).2.Names (out.emit method).1 method := by
  rw [Names, emit, MethodTable.get?_emit, if_pos rfl]

theorem follows_emit (method : Method) (out : Emission) : out.Follows (out.emit method).2 := by
  refine ⟨fun {handle} other h => ?_, .refl _⟩
  have hne : handle ≠ (out.methods.emit method).1 := by
    rintro rfl
    simp [Names, MethodTable.emit, MethodTable.get?, MethodTable.size] at h
  rw [Names, emit, MethodTable.get?_emit, if_neg hne]
  exact h

theorem follows_emitClosure {closure : Closure} (hexplained : closure.Explained)
    (out : Emission) : out.Follows (out.emitClosure closure).2 := by
  unfold emitClosure
  cases closure with
  | ok method => exact follows_emit method out
  | error problem? =>
    refine ⟨id, .append fun problem hproblem => ?_⟩
    rw [Option.mem_toList] at hproblem
    exact hexplained problem (congrArg Except.error hproblem)

theorem follows_emitGetter (resolver : Resolver) (binding : Binding) (out : Emission) :
    out.Follows (out.emitGetter resolver binding).2 := by
  unfold emitGetter
  split
  · exact follows_emitClosure (Closure.explained_getter resolver _ _) out
  · exact .refl out

theorem follows_emitSetter (binding : Binding) (out : Emission) :
    out.Follows (out.emitSetter binding).2 := by
  unfold emitSetter
  split
  · exact follows_emit _ out
  · exact .refl out

end Emission

end Bindery
