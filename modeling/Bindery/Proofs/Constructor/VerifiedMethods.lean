import Bindery.Proofs.Constructor.Methods
import Bindery.Proofs.Machine.Lowering
import Bindery.Proofs.Machine.Verification
import Mathlib.Data.Finset.Range

/-!
# Closures pass verification

Complete code of an expression leaves exactly one value, on whatever is there already. So the bodies
of all closures run up to their return, which finds the value of a getter and nothing in a setter.
-/

namespace Bindery

/-! ## Expressions -/

section Expressions

variable {locals : Finset Nat} {resolver : Resolver}

/-- The code of a part follows, if both parts are complete. -/
theorem Verifies.andThen {first second : Lowered} (h : (first.andThen second).error? = none)
    {n m k : Nat} (hfirst : first.error? = none → Verifies locals first.code n m locals)
    (hsecond : second.error? = none → Verifies locals second.code m k locals) :
    Verifies locals (first.andThen second).code n k locals := by
  obtain ⟨hf, hs⟩ := Lowered.andThen_error?_eq_none_iff.mp h
  rw [Lowered.andThen_code hf]
  exact (hfirst hf).trans (hsecond hs)

theorem verifies_literal (locals : Finset Nat) (value : Literal) :
    Verifies locals [value.instruction] 0 1 locals := by
  rcases value with _ | ⟨_ | _⟩ | _ | _ | _ <;> intro height <;> rfl

theorem verifies_operator (locals : Finset Nat) (op : BinaryOp) :
    Verifies locals [op.instruction] 2 1 locals := by
  cases op <;> exact .instruction locals rfl nofun nofun

namespace Resolver

variable (resolver) in
theorem verifies_memberHolder (h0 : 0 ∈ locals) (definition : Definition) :
    Verifies locals [resolver.memberHolder definition] 0 1 locals := by
  unfold memberHolder
  split
  · exact .instruction locals rfl nofun nofun
  · exact .getLocal h0

theorem verifies_lowerName (h0 : 0 ∈ locals) {name : String}
    (h : (resolver.lowerName name).error? = none) :
    Verifies locals (resolver.lowerName name).code 0 1 locals := by
  unfold lowerName at h ⊢
  split
  · next definition _ =>
    have hread : Verifies locals [.getProperty (.inPublic name)] 1 1 locals :=
      .instruction locals rfl nofun nofun
    exact (resolver.verifies_memberHolder h0 definition).trans hread
  · split
    · split <;> exact .instruction locals rfl nofun nofun
    · next hmember _ hglobal => simp [hmember, hglobal, Lowered.failed] at h

theorem verifies_lowerReceiver (h0 : 0 ∈ locals) {name call : String}
    (h : (resolver.lowerReceiver name call).error? = none) :
    Verifies locals (resolver.lowerReceiver name call).code 0 1 locals := by
  unfold lowerReceiver at h ⊢
  split
  · exact resolver.verifies_memberHolder h0 _
  · split
    · exact .instruction locals rfl nofun nofun
    · next hmember _ hglobal => simp [hmember, hglobal, Lowered.failed] at h

end Resolver

namespace Expr

/-- A call takes its receiver and as many arguments as have been left. -/
theorem verifies_lowerCall {receiver args : Lowered} {argCount : Nat} {name : String}
    (hreceiver : receiver.error? = none → Verifies locals receiver.code 0 1 locals)
    (hargs : args.error? = none → Verifies locals args.code 0 argCount locals)
    (h : ((receiver.andThen args).andThen
      (.done [.callProperty (.inPublic name) argCount])).error? = none) :
    Verifies locals ((receiver.andThen args).andThen
      (.done [.callProperty (.inPublic name) argCount])).code 0 1 locals := by
  refine Verifies.andThen h (fun hboth => ?_) fun _ => .instruction locals rfl nofun nofun
  rw [Instruction.takes, Nat.add_comm]
  exact Verifies.andThen hboth hreceiver fun ha => (hargs ha).frame 1

mutual

/-- Complete code of an expression leaves one value. -/
theorem verifies_lower (h0 : 0 ∈ locals) : (e : Expr) → (e.lower resolver).error? = none →
    Verifies locals (e.lower resolver).code 0 1 locals
  | .self _, _ => by
    rw [lower]
    exact .getLocal h0
  | .identifier name _, h => by
    rw [lower] at h ⊢
    exact Resolver.verifies_lowerName h0 h
  | .member object name _, h => by
    rcases object.eq_self_or_not with ⟨_, rfl⟩ | hself
    · rw [lower] at h ⊢
      exact Resolver.verifies_lowerName h0 h
    · rw [lower_member hself] at h ⊢
      exact Verifies.andThen h (verifies_lower h0 object) fun _ =>
        .instruction locals rfl nofun nofun
  | .index object i _, h => by
    rw [lower] at h ⊢
    exact Verifies.andThen h
      (fun hboth => Verifies.andThen hboth (verifies_lower h0 object)
        fun hi => (verifies_lower h0 i hi).frame 1)
      fun _ => .instruction locals rfl nofun nofun
  | .call (.identifier name _) args _, h => by
    rw [lower] at h ⊢
    exact verifies_lowerCall (Resolver.verifies_lowerReceiver h0) (verifies_lowerAll h0 args) h
  | .call (.member object name _) args _, h => by
    rcases object.eq_self_or_not with ⟨_, rfl⟩ | hself
    · rw [lower] at h ⊢
      exact verifies_lowerCall (Resolver.verifies_lowerReceiver h0) (verifies_lowerAll h0 args) h
    · rw [lower_call_member hself] at h ⊢
      exact verifies_lowerCall (verifies_lower h0 object) (verifies_lowerAll h0 args) h
  | .call (.self _) _ _, h | .call (.index ..) _ _, h | .call (.call ..) _ _, h
  | .call (.literal ..) _ _, h | .call (.binary ..) _ _, h | .call (.concat ..) _ _, h => by
    simp [lower, Lowered.failed] at h
  | .literal value _, _ => by
    rw [lower]
    exact verifies_literal locals value
  | .binary op left right _, h => by
    rw [lower] at h ⊢
    exact Verifies.andThen h
      (fun hboth => Verifies.andThen hboth (verifies_lower h0 left)
        fun hr => (verifies_lower h0 right hr).frame 1)
      fun _ => verifies_operator locals op
  | .concat parts _, h => by
    rw [lower] at h ⊢
    exact Verifies.andThen h (fun _ => verifies_literal locals (.string ""))
      (verifies_lowerParts h0 parts)

/-- Complete codes of several expressions leave a value for each. -/
theorem verifies_lowerAll (h0 : 0 ∈ locals) : (es : List Expr) →
    (lowerAll resolver es).error? = none →
    Verifies locals (lowerAll resolver es).code 0 es.length locals
  | [], _ => by
    rw [lowerAll]
    exact .nil locals 0
  | e :: es, h => by
    rw [lowerAll] at h ⊢
    rw [List.length_cons, Nat.add_comm]
    exact Verifies.andThen h (verifies_lower h0 e) fun hes => (verifies_lowerAll h0 es hes).frame 1

/-- Complete code of the parts of a text replaces the text on the stack. -/
theorem verifies_lowerParts (h0 : 0 ∈ locals) : (es : List Expr) →
    (lowerParts resolver es).error? = none →
    Verifies locals (lowerParts resolver es).code 1 1 locals
  | [], _ => by
    rw [lowerParts]
    exact .nil locals 1
  | e :: es, h => by
    rw [lowerParts] at h ⊢
    exact Verifies.andThen h
      (fun hadd => Verifies.andThen hadd (fun he => (verifies_lower h0 e he).frame 1)
        fun _ => verifies_operator locals .plus)
      (verifies_lowerParts h0 es)

end

end Expr

end Expressions

/-! ## Closures -/

/-- A method passes verification: its body runs up to its last instruction, which is its only return
and finds so many values on the stack. No local variable is used but 0 and those of the
parameters. -/
structure Method.Verified (method : Method) (last : Instruction) (height : Nat) : Prop where
  exists_body : ∃ body, method.code = body ++ [last] ∧
    Shape.after? ⟨0, Finset.range (method.paramCount + 1)⟩ body =
      some ⟨height, Finset.range (method.paramCount + 1)⟩
  returns_once : method.code.countP Instruction.isReturn = 1
  reads : ∀ slot, .getLocal slot ∈ method.code → slot ≤ method.paramCount

/-- A body that passes and a return behind it. -/
theorem Method.verified_of_verifies {method : Method} {body : List Instruction}
    {last : Instruction} {height : Nat} (hcode : method.code = body ++ [last])
    (hlast : last.isReturn)
    (h : Verifies (Finset.range (method.paramCount + 1)) body 0 height
      (Finset.range (method.paramCount + 1))) : method.Verified last height := by
  have hbody := h 0
  rw [Nat.zero_add, Nat.zero_add] at hbody
  refine ⟨⟨body, hcode, hbody⟩, ?_, fun slot hslot => ?_⟩
  · have hnone : body.countP Instruction.isReturn = 0 := by
      rw [List.countP_eq_zero]
      intro instruction hmem
      simp [Shape.isReturn_eq_false_of_mem hbody hmem]
    rw [hcode, List.countP_append, hnone, List.countP_singleton, if_pos hlast]
  · rw [hcode, List.mem_append, List.mem_singleton] at hslot
    rcases hslot with hslot | rfl
    · obtain ⟨before, rest, rfl⟩ := List.append_of_mem hslot
      rcases Shape.mem_locals_or_mem_of_getLocal hbody with hmem | hmem
      · exact Nat.lt_succ_iff.mp (Finset.mem_range.mp hmem)
      · have hset := (Shape.mem_locals_after? hbody).mpr (.inr (List.mem_append_left _ hmem))
        exact Nat.lt_succ_iff.mp (Finset.mem_range.mp hset)
    · simp [Instruction.isReturn] at hlast

section Closures

variable {locals : Finset Nat} {resolver : Resolver} {method : Method}

theorem verifies_entry (h0 : 0 ∈ locals) : Verifies locals Method.entry 0 0 locals := by
  intro height
  simp [Method.entry, Shape.step?, Instruction.isReturn, Instruction.takes, Instruction.leaves, h0]

theorem verified_propertyGetter : Method.propertyGetter.Verified .returnValue 1 := by
  have hcode : Method.propertyGetter.code =
      Method.entry ++ [.getLocal 0, .getLocal 1, .getProperty RuntimeName.arrayIndex] ++
        [.returnValue] := rfl
  refine Method.verified_of_verifies hcode rfl fun height => ?_
  simp [Method.entry, Method.propertyGetter, RuntimeName.arrayIndex, Shape.step?,
    Instruction.isReturn, Instruction.takes, Instruction.leaves, Name.operands]

namespace Closure

theorem verified_getter {slot : Nat} {source : Expr}
    (h : getter resolver slot source = .ok method) : method.Verified .returnValue 1 := by
  obtain ⟨herror, rfl⟩ := getter_eq_ok h
  have h0 : 0 ∈ Finset.range (0 + 1) := by simp
  exact Method.verified_of_verifies rfl rfl
    ((verifies_entry h0).trans (Expr.verifies_lower h0 source herror))

theorem verifies_argumentCode (h0 : 0 ∈ locals) {args : List Expr} {code : List Instruction}
    (h : argumentCode resolver args = .ok code) : Verifies locals code 0 args.length locals := by
  induction args generalizing code with
  | nil =>
    obtain rfl := Except.ok.inj h
    exact .nil locals 0
  | cons arg args ih =>
    obtain ⟨herror, rest, hrest, rfl⟩ := argumentCode_cons_eq_ok h
    rw [List.length_cons, Nat.add_comm]
    exact (Expr.verifies_lower h0 arg herror).append (ih hrest)

theorem verified_parameters {name : String} {args : List Expr}
    (h : parameters resolver name args = .ok method) : method.Verified .returnValue 1 := by
  obtain ⟨code, hcode, rfl⟩ := parameters_eq_ok h
  have h0 : 0 ∈ Finset.range (0 + 1) := by simp
  have hargs := (verifies_entry h0).trans (verifies_argumentCode h0 hcode)
  have harray : Verifies (Finset.range (0 + 1)) [.newArray args.length] args.length 1
      (Finset.range (0 + 1)) := .instruction _ rfl nofun nofun
  exact Method.verified_of_verifies (by simp) rfl (hargs.trans harray)

end Closure

namespace Destination

theorem verifies_readCode (locals : Finset Nat) (segment : Segment) :
    Verifies locals (readCode segment) 1 1 locals := by
  intro height
  cases hindex : segment.index <;>
    simp [readCode, hindex, elementName, Shape.step?, Instruction.isReturn, Instruction.takes,
      Instruction.leaves, Name.operands]

theorem verifies_storeCode (h1 : 1 ∈ locals) (toText : Bool) (segment : Segment) :
    Verifies locals (storeCode toText segment) 1 0 locals := by
  intro height
  cases hindex : segment.index <;> cases toText <;>
    simp [storeCode, hindex, elementName, Shape.step?, Instruction.isReturn, Instruction.takes,
      Instruction.leaves, Name.operands, h1]

/-- The object at the start of a chain is taken and the argument stored, if there is any segment. -/
theorem verifies_segmentsCode (h1 : 1 ∈ locals) (toText : Bool) {segments : List Segment}
    (hne : segments ≠ []) : Verifies locals (segmentsCode toText segments) 1 0 locals := by
  induction segments with
  | nil => exact absurd rfl hne
  | cons segment rest ih =>
    cases rest with
    | nil => exact verifies_storeCode h1 toText segment
    | cons next rest =>
      exact (verifies_readCode locals segment).trans (ih (List.cons_ne_nil next rest))

theorem verified_setter {destination : Destination} (hne : destination.segments ≠ [])
    (slot : Nat) : (destination.setter slot).Verified .returnVoid 0 := by
  have h0 : 0 ∈ Finset.range 2 := by simp
  have h1 : 1 ∈ Finset.range 2 := by simp
  have hroot : Verifies (Finset.range 2) [rootCode destination.root] 0 1 (Finset.range 2) := by
    cases destination.root with
    | document => exact .getLocal h0
    | classObject qualified => exact .instruction _ rfl nofun nofun
  exact Method.verified_of_verifies rfl rfl
    (((verifies_entry h0).trans hroot).trans
      (verifies_segmentsCode h1 destination.toText hne))

end Destination

end Closures

end Bindery
