import Bindery.Code.Instruction
import Bindery.Expr.Basic

/-!
# The stack machine

Running code needs to know what the operations do that instructions stand for: reading a property,
calling a method, adding two values. This file fixes only how instructions move values between the
operand stack, the local variables and the operations. The operations themselves are a parameter
and may have any effect, so that what is proved of all machines also fixes the order of effects.
-/

namespace Bindery

/-- What an instruction works on: the operand stack, its top first, and the local variables that
have been set. -/
structure Frame (V : Type) where
  stack : List V
  locals : Nat → Option V

/-- The operations of a machine on values of type `V`, with effects in `m`. -/
structure Machine (m : Type → Type) (V : Type) where
  /-- What happens when an instruction finds no operand or no local variable. -/
  stuck : m (Frame V)
  /-- The value of a constant. -/
  constant : Literal → V
  /-- What a name stands for in the scope of the code. -/
  lookUp : Name → m V
  /-- The object of the scope in which a name is found. -/
  findOwner : Name → m V
  /-- Puts an object in front of the scope. -/
  enterScope : V → m Unit
  /-- A property by its name. -/
  read : V → Name → m V
  /-- A property whose name is computed. -/
  readAt : V → V → m V
  /-- Assigns a property by its name. -/
  write : V → Name → V → m Unit
  /-- Assigns a property whose name is computed. -/
  writeAt : V → V → V → m Unit
  /-- The result of a method. -/
  call : V → Name → List V → m V
  /-- A new object of a class that is found in a given object. -/
  construct : V → Name → List V → m V
  /-- A new array. -/
  newArray : List V → m V
  /-- A new object with the given properties. -/
  newObject : List (V × V) → m V
  /-- A closure of an emitted method. -/
  newFunction : MethodHandle → m V
  /-- A value as a string. -/
  toText : V → m V
  /-- The result of an operator. -/
  arithmetic : BinaryOp → V → V → m V

namespace Frame

variable {V : Type}

/-- Leaves a value on the stack. -/
def push (frame : Frame V) (v : V) : Frame V := { frame with stack := v :: frame.stack }

/-- Leaves several values on the stack, the last one on top. -/
def pushAll (frame : Frame V) (vs : List V) : Frame V :=
  { frame with stack := vs.reverse ++ frame.stack }

/-- Sets a local variable. -/
def setLocal (frame : Frame V) (slot : Nat) (v : V) : Frame V :=
  { frame with locals := fun other => if other = slot then some v else frame.locals other }

/-- Takes so many values from the stack, in the order in which they were left there. -/
def take? (count : Nat) (stack : List V) : Option (List V × List V) :=
  if count ≤ stack.length then some ((stack.take count).reverse, stack.drop count) else none

/-- The values in pairs, as the properties of an object lie on the stack. -/
def inPairs : List V → List (V × V)
  | name :: value :: rest => (name, value) :: inPairs rest
  | _ => []

@[simp] theorem pushAll_stack (frame : Frame V) (vs : List V) :
    (frame.pushAll vs).stack = vs.reverse ++ frame.stack := rfl

@[simp] theorem pushAll_locals (frame : Frame V) (vs : List V) :
    (frame.pushAll vs).locals = frame.locals := rfl

@[simp] theorem pushAll_nil (frame : Frame V) : frame.pushAll [] = frame := rfl

/-- Leaving one value and then the others leaves all of them. -/
theorem pushAll_cons (frame : Frame V) (v : V) (vs : List V) :
    (frame.push v).pushAll vs = frame.pushAll (v :: vs) := by
  simp [pushAll, push]

/-- Values that were left one after the other are taken back in the same order. -/
theorem take?_reverse_append (vs rest : List V) :
    take? vs.length (vs.reverse ++ rest) = some (vs, rest) := by
  have hlength : vs.length = vs.reverse.length := by simp
  unfold take?
  rw [if_pos (by simp), hlength, List.take_left, List.drop_left, List.reverse_reverse]

end Frame

namespace Machine

variable {m : Type → Type} [Monad m] {V : Type}

/-- Runs one instruction. A return ends the method and leaves no frame. -/
def step (machine : Machine m V) (frame : Frame V) : Instruction → m (Frame V)
  | .pushNull => pure (frame.push (machine.constant .null))
  | .pushTrue => pure (frame.push (machine.constant (.bool true)))
  | .pushFalse => pure (frame.push (machine.constant (.bool false)))
  | .pushString value => pure (frame.push (machine.constant (.string value)))
  | .pushInt value => pure (frame.push (machine.constant (.int value)))
  | .pushDouble value => pure (frame.push (machine.constant (.number value)))
  | .dup =>
    match frame.stack with
    | v :: _ => pure (frame.push v)
    | _ => machine.stuck
  | .swap =>
    match frame.stack with
    | v :: w :: rest => pure { frame with stack := w :: v :: rest }
    | _ => machine.stuck
  | .getLocal slot =>
    match frame.locals slot with
    | some v => pure (frame.push v)
    | none => machine.stuck
  | .setLocal slot =>
    match frame.stack with
    | v :: rest => pure ({ frame with stack := rest }.setLocal slot v)
    | _ => machine.stuck
  | .pushScope =>
    match frame.stack with
    | v :: rest => do
      machine.enterScope v
      pure { frame with stack := rest }
    | _ => machine.stuck
  | .getProperty .runtime =>
    match frame.stack with
    | index :: object :: rest => do
      let v ← machine.readAt object index
      pure { frame with stack := v :: rest }
    | _ => machine.stuck
  | .getProperty name =>
    match frame.stack with
    | object :: rest => do
      let v ← machine.read object name
      pure { frame with stack := v :: rest }
    | _ => machine.stuck
  | .setProperty .runtime =>
    match frame.stack with
    | value :: index :: object :: rest => do
      machine.writeAt object index value
      pure { frame with stack := rest }
    | _ => machine.stuck
  | .setProperty name =>
    match frame.stack with
    | value :: object :: rest => do
      machine.write object name value
      pure { frame with stack := rest }
    | _ => machine.stuck
  | .getLex name => do
    let v ← machine.lookUp name
    pure (frame.push v)
  | .findPropStrict name => do
    let v ← machine.findOwner name
    pure (frame.push v)
  | .newArray count =>
    match Frame.take? count frame.stack with
    | some (items, rest) => do
      let v ← machine.newArray items
      pure { frame with stack := v :: rest }
    | none => machine.stuck
  | .newObject count =>
    match Frame.take? (2 * count) frame.stack with
    | some (entries, rest) => do
      let v ← machine.newObject (Frame.inPairs entries)
      pure { frame with stack := v :: rest }
    | none => machine.stuck
  | .newFunction method => do
    let v ← machine.newFunction method
    pure (frame.push v)
  | .callProperty name argCount =>
    match Frame.take? argCount frame.stack with
    | some (args, object :: rest) => do
      let v ← machine.call object name args
      pure { frame with stack := v :: rest }
    | _ => machine.stuck
  | .callPropVoid name argCount =>
    match Frame.take? argCount frame.stack with
    | some (args, object :: rest) => do
      let _ ← machine.call object name args
      pure { frame with stack := rest }
    | _ => machine.stuck
  | .constructProp name argCount =>
    match Frame.take? argCount frame.stack with
    | some (args, object :: rest) => do
      let v ← machine.construct object name args
      pure { frame with stack := v :: rest }
    | _ => machine.stuck
  | .convertString =>
    match frame.stack with
    | v :: rest => do
      let text ← machine.toText v
      pure { frame with stack := text :: rest }
    | _ => machine.stuck
  | .add => binary .plus
  | .subtract => binary .minus
  | .multiply => binary .times
  | .divide => binary .divide
  | .returnValue | .returnVoid => machine.stuck
where
  /-- Replaces the two values on top of the stack by the result of an operator. -/
  binary (op : BinaryOp) : m (Frame V) :=
    match frame.stack with
    | right :: left :: rest => do
      let v ← machine.arithmetic op left right
      pure { frame with stack := v :: rest }
    | _ => machine.stuck

/-- Runs instructions one after the other. -/
def run (machine : Machine m V) : List Instruction → Frame V → m (Frame V)
  | [], frame => pure frame
  | instruction :: rest, frame => machine.step frame instruction >>= machine.run rest

@[simp] theorem run_nil (machine : Machine m V) (frame : Frame V) :
    machine.run [] frame = pure frame := rfl

theorem run_cons (machine : Machine m V) (instruction : Instruction) (rest : List Instruction)
    (frame : Frame V) :
    machine.run (instruction :: rest) frame = machine.step frame instruction >>= machine.run rest :=
  rfl

variable [LawfulMonad m]

@[simp] theorem run_singleton (machine : Machine m V) (instruction : Instruction)
    (frame : Frame V) : machine.run [instruction] frame = machine.step frame instruction := by
  rw [run_cons]
  exact bind_pure _

/-- Code runs piece by piece. -/
theorem run_append (machine : Machine m V) (first second : List Instruction) (frame : Frame V) :
    machine.run (first ++ second) frame = machine.run first frame >>= machine.run second := by
  induction first generalizing frame with
  | nil => simp
  | cons instruction first ih =>
    rw [List.cons_append, run_cons, run_cons, bind_assoc]
    exact bind_congr ih

end Machine

end Bindery
