import Bindery.Proofs.Machine.Basic
import Mathlib.Data.Finset.Insert

/-!
# Verification of code

Before code is run, the machine verifies it: it follows the number of values on the operand stack
and the local variables that have been set, and accepts code only if every instruction finds its
operands and every local variable that is read has been set. Code that passes is never stuck,
whatever the operations do.
-/

namespace Bindery

/-! ## Stack effects -/

/-- The number of values that a name is computed from. -/
def Name.operands : Name → Nat
  | runtime => 1
  | inPublic _ | inPackage .. => 0

namespace Instruction

/-- The number of values that an instruction takes from the stack. -/
def takes : Instruction → Nat
  | pushNull | pushTrue | pushFalse | pushString _ | pushInt _ | pushDouble _ => 0
  | getLocal _ | getLex _ | findPropStrict _ | newFunction _ | returnVoid => 0
  | dup | setLocal _ | pushScope | convertString | returnValue => 1
  | swap | add | subtract | multiply | divide => 2
  | getProperty name => 1 + name.operands
  | setProperty name => 2 + name.operands
  | newArray count => count
  | newObject count => 2 * count
  | callProperty _ argCount | callPropVoid _ argCount | constructProp _ argCount => argCount + 1

/-- The number of values that an instruction leaves on the stack. -/
def leaves : Instruction → Nat
  | setLocal _ | pushScope | setProperty _ | callPropVoid .. | returnValue | returnVoid => 0
  | dup | swap => 2
  | _ => 1

/-- Whether an instruction ends a method. -/
def isReturn : Instruction → Bool
  | returnValue | returnVoid => true
  | _ => false

end Instruction

/-! ## Verification -/

/-- What is known before an instruction: how many values the stack holds, and which local variables
have been set. -/
structure Shape where
  height : Nat
  locals : Finset Nat
deriving DecidableEq

namespace Shape

/-- What is known after an instruction that passes. A return ends the code and leaves nothing to
know. -/
def step? (shape : Shape) (instruction : Instruction) : Option Shape :=
  if instruction.isReturn then none
  else if shape.height < instruction.takes then none
  else
    let height := shape.height - instruction.takes + instruction.leaves
    match instruction with
    | .getLocal slot => if slot ∈ shape.locals then some { shape with height } else none
    | .setLocal slot => some { height, locals := insert slot shape.locals }
    | _ => some { shape with height }

/-- What is known after some code that passes. -/
def after? (shape : Shape) (code : List Instruction) : Option Shape := code.foldlM step? shape

@[simp] theorem after?_nil (shape : Shape) : shape.after? [] = some shape := rfl

@[simp] theorem after?_cons (shape : Shape) (instruction : Instruction) (code : List Instruction) :
    shape.after? (instruction :: code) = (shape.step? instruction).bind (·.after? code) :=
  List.foldlM_cons

/-- Code passes piece by piece. -/
theorem after?_append (shape : Shape) (first second : List Instruction) :
    shape.after? (first ++ second) = (shape.after? first).bind (·.after? second) :=
  List.foldlM_append

variable {shape shape' : Shape} {instruction : Instruction} {code : List Instruction}

/-- An instruction that passes is no return, and it finds its operands. -/
theorem of_step?_eq_some (h : shape.step? instruction = some shape') :
    instruction.isReturn = false ∧ instruction.takes ≤ shape.height ∧
      shape'.height = shape.height - instruction.takes + instruction.leaves := by
  rw [step?] at h
  split at h
  · simp at h
  · next hreturn =>
    split at h
    · simp at h
    · next hheight =>
      refine ⟨by simpa using hreturn, by omega, ?_⟩
      dsimp only at h
      split at h
      · split at h
        · rw [← Option.some.inj h]
        · simp at h
      · rw [← Option.some.inj h]
      · rw [← Option.some.inj h]

/-- The local variables that have been set after an instruction. -/
theorem mem_locals_step? (h : shape.step? instruction = some shape') {slot : Nat} :
    slot ∈ shape'.locals ↔ slot ∈ shape.locals ∨ instruction = .setLocal slot := by
  rw [step?] at h
  split at h
  · simp at h
  · split at h
    · simp at h
    · dsimp only at h
      split at h
      · split at h
        · simp [← Option.some.inj h]
        · simp at h
      · simp [← Option.some.inj h, or_comm, eq_comm]
      · next hset =>
        have hne : instruction ≠ .setLocal slot := fun heq => hset slot heq
        simp [← Option.some.inj h, hne]

/-- A local variable that is read has been set. -/
theorem mem_locals_of_getLocal {slot : Nat} (h : shape.step? (.getLocal slot) = some shape') :
    slot ∈ shape.locals := by
  by_contra hmem
  simp [step?, Instruction.isReturn, Instruction.takes, hmem] at h

/-- The local variables that have been set after some code: those of before, and those that the
code sets. -/
theorem mem_locals_after? (h : shape.after? code = some shape') {slot : Nat} :
    slot ∈ shape'.locals ↔ slot ∈ shape.locals ∨ .setLocal slot ∈ code := by
  induction code generalizing shape with
  | nil => simp [← Option.some.inj h]
  | cons instruction code ih =>
    rw [after?_cons] at h
    obtain ⟨next, hstep, hrest⟩ := Option.bind_eq_some_iff.mp h
    rw [ih hrest, mem_locals_step? hstep, List.mem_cons, or_assoc, eq_comm (a := instruction)]

/-- Wherever code that passes reads a local variable, this has been set in front of it. -/
theorem mem_locals_or_mem_of_getLocal {before rest : List Instruction} {slot : Nat}
    (h : shape.after? (before ++ .getLocal slot :: rest) = some shape') :
    slot ∈ shape.locals ∨ .setLocal slot ∈ before := by
  rw [after?_append] at h
  obtain ⟨middle, hbefore, hrest⟩ := Option.bind_eq_some_iff.mp h
  rw [after?_cons] at hrest
  obtain ⟨next, hstep, -⟩ := Option.bind_eq_some_iff.mp hrest
  exact (mem_locals_after? hbefore).mp (mem_locals_of_getLocal hstep)

/-- No instruction in code that passes is a return. -/
theorem isReturn_eq_false_of_mem (h : shape.after? code = some shape')
    (hmem : instruction ∈ code) : instruction.isReturn = false := by
  obtain ⟨before, rest, rfl⟩ := List.append_of_mem hmem
  rw [after?_append] at h
  obtain ⟨middle, -, hrest⟩ := Option.bind_eq_some_iff.mp h
  rw [after?_cons] at hrest
  obtain ⟨next, hstep, -⟩ := Option.bind_eq_some_iff.mp hrest
  exact (of_step?_eq_some hstep).1

end Shape

/-! ## Code that passes on every stack -/

/-- Code that passes wherever some local variables have been set and so many values lie on the
stack, takes these and leaves others. What lies below is not touched. -/
def Verifies (locals : Finset Nat) (code : List Instruction) (taken left : Nat)
    (locals' : Finset Nat) : Prop :=
  ∀ height, Shape.after? ⟨height + taken, locals⟩ code = some ⟨height + left, locals'⟩

namespace Verifies

variable {locals locals' locals'' : Finset Nat} {code code' : List Instruction} {n m k : Nat}

theorem nil (locals : Finset Nat) (n : Nat) : Verifies locals [] n n locals := fun _ => rfl

/-- Code passes piece by piece. -/
theorem trans (h : Verifies locals code n m locals') (h' : Verifies locals' code' m k locals'') :
    Verifies locals (code ++ code') n k locals'' := by
  intro height
  rw [Shape.after?_append, h height, Option.bind_some, h' height]

/-- Whatever lies below the operands stays there. -/
theorem frame (h : Verifies locals code n m locals') (k : Nat) :
    Verifies locals code (k + n) (k + m) locals' := by
  intro height
  rw [← Nat.add_assoc, h (height + k), Nat.add_assoc]

/-- Code that leaves some values, and then code that leaves more. -/
theorem append (h : Verifies locals code 0 n locals') (h' : Verifies locals' code' 0 m locals'') :
    Verifies locals (code ++ code') 0 (n + m) locals'' :=
  h.trans (h'.frame n)

theorem getLocal {slot : Nat} (h : slot ∈ locals) :
    Verifies locals [.getLocal slot] 0 1 locals := by
  intro height
  simp [Shape.step?, Instruction.isReturn, Instruction.takes, Instruction.leaves, h]

theorem setLocal (locals : Finset Nat) (slot : Nat) :
    Verifies locals [.setLocal slot] 1 0 (insert slot locals) := by
  intro height
  simp [Shape.step?, Instruction.isReturn, Instruction.takes, Instruction.leaves]

/-- An instruction that has nothing to do with local variables and is no return. -/
theorem instruction (locals : Finset Nat) {i : Instruction} (hreturn : i.isReturn = false)
    (hget : ∀ slot, i ≠ .getLocal slot) (hset : ∀ slot, i ≠ .setLocal slot) :
    Verifies locals [i] i.takes i.leaves locals := by
  intro height
  rw [Shape.after?_cons, Shape.step?, if_neg (by simp [hreturn]), if_neg (by simp)]
  cases i <;> simp_all

/-- Code that comes in pieces, each of which leaves as many values. -/
theorem flatMap {α : Type} {code : α → List Instruction} {l : List α}
    (h : ∀ x ∈ l, Verifies locals (code x) 0 n locals) :
    Verifies locals (l.flatMap code) 0 (l.length * n) locals := by
  induction l with
  | nil => simpa using nil locals 0
  | cons x l ih =>
    rw [List.flatMap_cons, List.length_cons, Nat.succ_mul, Nat.add_comm]
    exact (h x List.mem_cons_self).append (ih fun y hy => h y (List.mem_cons_of_mem x hy))

end Verifies

/-! ## Verified code is never stuck -/

/-- A frame has a shape: as many values lie on its stack, and these local variables have been
set. -/
structure Frame.Fits {V : Type} (frame : Frame V) (shape : Shape) : Prop where
  length_stack : frame.stack.length = shape.height
  isSome_locals : ∀ slot ∈ shape.locals, (frame.locals slot).isSome

/-- An instruction that sets no local variable, seen from the stack. -/
theorem Frame.Fits.step {V : Type} {frame : Frame V} {shape shape' : Shape} (h : frame.Fits shape)
    {i : Instruction} (hstep : shape.step? i = some shape') (hset : ∀ slot, i ≠ .setLocal slot)
    {stack : List V} (hlength : stack.length + i.takes = frame.stack.length + i.leaves) :
    Frame.Fits ⟨stack, frame.locals⟩ shape' := by
  obtain ⟨-, htakes, hheight⟩ := Shape.of_step?_eq_some hstep
  refine ⟨?_, fun slot hslot => ?_⟩
  · rw [h.length_stack] at hlength
    show stack.length = shape'.height
    omega
  · rcases (Shape.mem_locals_step? hstep).mp hslot with hslot | hi
    · exact h.isSome_locals slot hslot
    · exact absurd hi (hset slot)

theorem Frame.Fits.setLocal {V : Type} {v : V} {rest : List V} {locals : Nat → Option V}
    {shape shape' : Shape} (h : Frame.Fits ⟨v :: rest, locals⟩ shape) {slot : Nat}
    (hstep : shape.step? (.setLocal slot) = some shape') :
    (Frame.setLocal ⟨rest, locals⟩ slot v).Fits shape' := by
  obtain ⟨-, -, hheight⟩ := Shape.of_step?_eq_some hstep
  refine ⟨?_, fun other hother => ?_⟩
  · rw [hheight, ← h.length_stack]
    rfl
  · by_cases heq : other = slot
    · simp [Frame.setLocal, heq]
    · rcases (Shape.mem_locals_step? hstep).mp hother with hmem | hset
      · simpa [Frame.setLocal, heq] using h.isSome_locals other hmem
      · simp [Ne.symm heq] at hset

/-- Instructions take as many values as there are at least. -/
theorem Frame.exists_take? {V : Type} {count : Nat} {stack : List V} (h : count ≤ stack.length) :
    ∃ items rest, Frame.take? count stack = some (items, rest) ∧
      rest.length + count = stack.length := by
  refine ⟨_, _, if_pos h, ?_⟩
  rw [List.length_drop]
  omega

/-- And one more below them. -/
theorem Frame.exists_take?_cons {V : Type} {count : Nat} {stack : List V}
    (h : count + 1 ≤ stack.length) :
    ∃ items object rest, Frame.take? count stack = some (items, object :: rest) ∧
      rest.length + (count + 1) = stack.length := by
  obtain ⟨items, below, htake, hlength⟩ := exists_take? (Nat.le_of_succ_le h)
  obtain ⟨object, rest, rfl⟩ := List.exists_cons_of_length_pos (by omega : 0 < below.length)
  rw [List.length_cons] at hlength
  exact ⟨items, object, rest, htake, by omega⟩

section Soundness

variable {m : Type → Type} [Monad m] {V : Type}

/-- An action that may depend on what being stuck does is never stuck, and ends in a frame of a
shape. -/
def NeverStuck (shape : Shape) (action : m (Frame V) → m (Frame V)) : Prop :=
  ∃ result : m { frame : Frame V // frame.Fits shape },
    ∀ stuck, action stuck = Subtype.val <$> result

variable [LawfulMonad m] {shape shape' : Shape}

theorem neverStuck_pure {frame : Frame V} (h : frame.Fits shape) :
    NeverStuck shape fun _ => (pure frame : m (Frame V)) :=
  ⟨pure ⟨frame, h⟩, fun _ => by simp⟩

theorem neverStuck_bind {α : Type} {operation : m α} {f : α → Frame V}
    (h : ∀ value, (f value).Fits shape) :
    NeverStuck shape fun _ => (operation >>= fun value => pure (f value) : m (Frame V)) :=
  ⟨operation >>= fun value => pure ⟨f value, h value⟩, fun _ => by simp⟩

theorem NeverStuck.andThen {action : m (Frame V) → m (Frame V)}
    {next : m (Frame V) → Frame V → m (Frame V)} (h : NeverStuck shape action)
    (hnext : ∀ frame : Frame V, frame.Fits shape →
      NeverStuck shape' fun stuck => next stuck frame) :
    NeverStuck shape' fun stuck => action stuck >>= next stuck := by
  obtain ⟨result, hresult⟩ := h
  choose further hfurther using fun middle : { frame : Frame V // frame.Fits shape } =>
    hnext middle.1 middle.2
  refine ⟨result >>= further, fun stuck => ?_⟩
  dsimp only
  rw [hresult stuck, map_bind, bind_map_left]
  exact bind_congr fun middle => hfurther middle stuck

namespace Machine

/-- An instruction that passes finds all that it needs. -/
theorem neverStuck_step (machine : Machine m V) {frame : Frame V} (hfits : frame.Fits shape)
    {i : Instruction} (h : shape.step? i = some shape') :
    NeverStuck shape' fun stuck => ({ machine with stuck } : Machine m V).step frame i := by
  obtain ⟨hreturn, htakes, -⟩ := Shape.of_step?_eq_some h
  rw [← hfits.length_stack] at htakes
  have hfit {stack : List V} (hset : ∀ slot, i ≠ .setLocal slot)
      (hlength : stack.length + i.takes = frame.stack.length + i.leaves) :
      Frame.Fits ⟨stack, frame.locals⟩ shape' := hfits.step h hset hlength
  obtain ⟨stack, locals⟩ := frame
  cases i with
  | pushNull | pushTrue | pushFalse | pushString | pushInt | pushDouble =>
    dsimp only [step, Frame.push]
    exact neverStuck_pure (hfit nofun rfl)
  | getLex | findPropStrict | newFunction =>
    dsimp only [step, Frame.push]
    exact neverStuck_bind fun v => hfit nofun rfl
  | dup =>
    obtain ⟨v, rest, rfl⟩ := List.exists_cons_of_length_pos htakes
    dsimp only [step, Frame.push]
    exact neverStuck_pure (hfit nofun rfl)
  | swap =>
    obtain _ | ⟨v, _ | ⟨w, rest⟩⟩ := stack <;> simp [Instruction.takes] at htakes
    dsimp only [step]
    exact neverStuck_pure (hfit nofun rfl)
  | getLocal slot =>
    have hslot := hfits.isSome_locals slot (Shape.mem_locals_of_getLocal h)
    obtain ⟨v, hv⟩ := Option.isSome_iff_exists.mp hslot
    dsimp only at hv
    dsimp only [step, Frame.push]
    rw [hv]
    exact neverStuck_pure (hfit nofun rfl)
  | setLocal slot =>
    obtain ⟨v, rest, rfl⟩ := List.exists_cons_of_length_pos htakes
    dsimp only [step]
    refine neverStuck_pure (hfits.setLocal h)
  | pushScope | convertString =>
    obtain ⟨v, rest, rfl⟩ := List.exists_cons_of_length_pos htakes
    dsimp only [step]
    exact neverStuck_bind fun _ => hfit nofun rfl
  | getProperty name =>
    cases name with
    | inPublic | inPackage =>
      obtain ⟨v, rest, rfl⟩ := List.exists_cons_of_length_pos htakes
      dsimp only [step]
      exact neverStuck_bind fun _ => hfit nofun rfl
    | runtime =>
      obtain _ | ⟨v, _ | ⟨w, rest⟩⟩ := stack <;>
        simp [Instruction.takes, Name.operands] at htakes
      dsimp only [step]
      exact neverStuck_bind fun _ => hfit nofun rfl
  | setProperty name =>
    cases name with
    | inPublic | inPackage =>
      obtain _ | ⟨v, _ | ⟨w, rest⟩⟩ := stack <;>
        simp [Instruction.takes, Name.operands] at htakes
      dsimp only [step]
      exact neverStuck_bind fun _ => hfit nofun rfl
    | runtime =>
      obtain _ | ⟨v, _ | ⟨w, _ | ⟨u, rest⟩⟩⟩ := stack <;>
        simp [Instruction.takes, Name.operands] at htakes
      dsimp only [step]
      exact neverStuck_bind fun _ => hfit nofun rfl
  | add | subtract | multiply | divide =>
    obtain _ | ⟨v, _ | ⟨w, rest⟩⟩ := stack <;> simp [Instruction.takes] at htakes
    dsimp only [step, step.binary]
    exact neverStuck_bind fun _ => hfit nofun rfl
  | newArray | newObject =>
    obtain ⟨items, rest, htake, hrest⟩ := Frame.exists_take? htakes
    dsimp only [Instruction.takes] at htake
    dsimp only [step]
    rw [htake]
    refine neverStuck_bind fun _ => hfit nofun ?_
    rw [List.length_cons, Nat.add_right_comm, hrest]
    rfl
  | callPropVoid =>
    obtain ⟨items, object, rest, htake, hrest⟩ := Frame.exists_take?_cons htakes
    dsimp only [step]
    rw [htake]
    exact neverStuck_bind fun _ => hfit nofun hrest
  | callProperty | constructProp =>
    obtain ⟨items, object, rest, htake, hrest⟩ := Frame.exists_take?_cons htakes
    dsimp only [step]
    rw [htake]
    refine neverStuck_bind fun _ => hfit nofun ?_
    rw [List.length_cons, Nat.add_right_comm]
    exact congrArg (· + 1) hrest
  | returnValue | returnVoid => simp [Instruction.isReturn] at hreturn

/-- **Verified code is never stuck.** Whatever the operations of the machine do, code that passes
finds an operand wherever it takes one and a value in every local variable that it reads, and leaves
a stack of the height that has been computed. -/
theorem neverStuck_run (machine : Machine m V) {frame : Frame V} (hfits : frame.Fits shape)
    {code : List Instruction} (h : shape.after? code = some shape') :
    NeverStuck shape' fun stuck => ({ machine with stuck } : Machine m V).run code frame := by
  induction code generalizing frame shape with
  | nil =>
    obtain rfl := Option.some.inj h
    exact neverStuck_pure hfits
  | cons i code ih =>
    rw [Shape.after?_cons] at h
    obtain ⟨next, hstep, hrest⟩ := Option.bind_eq_some_iff.mp h
    exact (neverStuck_step machine hfits hstep).andThen fun middle hmiddle => ih hmiddle hrest

end Machine

end Soundness

end Bindery
