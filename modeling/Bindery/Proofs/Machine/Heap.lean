import Bindery.Code.Method
import Bindery.Expr.Text
import Bindery.Proofs.Machine.Basic

/-!
# Heaps

Generated closures read properties of objects, call methods and at most store one value. A heap
says what they find: which property of an object a name or an element number denotes, and which
value it holds. What code does on a heap is the list of its accesses.
-/

namespace Bindery

/-- Objects and their properties, before anything is stored. Several names may denote the same
property of an object. -/
structure Heap (V P : Type) where
  /-- The value of a constant. -/
  constant : Literal → V
  /-- What a name stands for in the scope of the code. -/
  lookUp : Name → V
  /-- The object of the scope in which a name is found. -/
  findOwner : Name → V
  /-- The property that a name denotes. -/
  property : V → Name → P
  /-- The property that a computed name denotes. -/
  element : V → V → P
  /-- The value of a property of an object. -/
  held : V → P → V
  /-- The result of a method. -/
  result : V → Name → List V → V
  /-- A value as a string. -/
  toText : V → V
  /-- The result of an operator. -/
  arithmetic : BinaryOp → V → V → V

/-- What code does to an object. -/
inductive Access (V P : Type) where
  | read (object : V) (property : P)
  | store (object : V) (property : P) (value : V)
  | call (object : V) (name : Name) (args : List V)
deriving DecidableEq

namespace Heap

variable {V P : Type}

/-- Adds an access to those before. -/
def note (access : Access V P) : StateT (List (Access V P)) Option Unit := fun accesses =>
  some ((), accesses ++ [access])

/-- The machine that runs closures on a heap. It allocates no objects. -/
def machine (heap : Heap V P) : Machine (StateT (List (Access V P)) Option) V where
  stuck := failure
  constant := heap.constant
  lookUp name := pure (heap.lookUp name)
  findOwner name := pure (heap.findOwner name)
  enterScope _ := pure ()
  read object name := do
    let property := heap.property object name
    note (.read object property)
    pure (heap.held object property)
  readAt object index := do
    let property := heap.element object index
    note (.read object property)
    pure (heap.held object property)
  write object name value := note (.store object (heap.property object name) value)
  writeAt object index value := note (.store object (heap.element object index) value)
  call object name args := do
    note (.call object name args)
    pure (heap.result object name args)
  construct _ _ _ := failure
  newArray _ := failure
  newObject _ := failure
  newFunction _ := failure
  toText value := pure (heap.toText value)
  arithmetic op left right := pure (heap.arithmetic op left right)

/-- Runs code with values in the local variables from 0 on. The results are the values on the stack
and the accesses. -/
def run (heap : Heap V P) (code : List Instruction) (locals : List V) :
    Option (List V × List (Access V P)) :=
  (heap.machine.run code ⟨[], fun slot => locals[slot]?⟩ []).map
    fun (frame, accesses) => (frame.stack, accesses)

/-- An element number and its decimal text denote the same property. -/
def NumbersElements (heap : Heap V P) : Prop :=
  ∀ (object : V) (i : Nat), i < 0x80000000 →
    heap.element object (heap.constant (.int (.ofNat i))) =
      heap.property object (.inPublic (toString i))

end Heap

/-- The code of a method in front of the return with which it ends. -/
def Method.body (method : Method) : List Instruction := method.code.dropLast

/-! ## Rules for code on a heap -/

namespace Heap

variable {V P : Type} {heap : Heap V P} {locals : Nat → Option V}

/-- Code takes one stack to another, with certain accesses on the way. -/
def Performs (heap : Heap V P) (locals : Nat → Option V) (code : List Instruction)
    (stack stack' : List V) (accesses : List (Access V P)) : Prop :=
  ∀ before, heap.machine.run code ⟨stack, locals⟩ before =
    some (⟨stack', locals⟩, before ++ accesses)

theorem run_eq_some {code : List Instruction} {values stack : List V}
    {accesses : List (Access V P)}
    (h : heap.Performs (fun slot => values[slot]?) code [] stack accesses) :
    heap.run code values = some (stack, accesses) := by
  rw [run, h]
  rfl

namespace Performs

theorem nil (stack : List V) : heap.Performs locals [] stack stack [] := by
  intro before
  rw [List.append_nil]
  rfl

theorem append {first second : List Instruction} {stack stack' stack'' : List V}
    {accesses more : List (Access V P)} (h : heap.Performs locals first stack stack' accesses)
    (h' : heap.Performs locals second stack' stack'' more) :
    heap.Performs locals (first ++ second) stack stack'' (accesses ++ more) := by
  intro before
  rw [Machine.run_append]
  show (StateT.bind _ _) before = _
  rw [StateT.bind, h before, ← List.append_assoc]
  exact h' (before ++ accesses)

theorem getLocal {slot : Nat} {value : V} (h : locals slot = some value) (stack : List V) :
    heap.Performs locals [.getLocal slot] stack (value :: stack) [] := by
  intro before
  rw [Machine.run_singleton, List.append_nil]
  simp only [Machine.step, h]
  rfl

theorem getLex (name : Name) (stack : List V) :
    heap.Performs locals [.getLex name] stack (heap.lookUp name :: stack) [] := by
  intro before
  rw [Machine.run_singleton, List.append_nil]
  rfl

theorem pushInt (i : Int32) (stack : List V) :
    heap.Performs locals [.pushInt i] stack (heap.constant (.int i) :: stack) [] := by
  intro before
  rw [Machine.run_singleton, List.append_nil]
  rfl

theorem pushScope (value : V) (stack : List V) :
    heap.Performs locals [.pushScope] (value :: stack) stack [] := by
  intro before
  rw [Machine.run_singleton, List.append_nil]
  rfl

theorem convertString (value : V) (stack : List V) :
    heap.Performs locals [.convertString] (value :: stack) (heap.toText value :: stack) [] := by
  intro before
  rw [Machine.run_singleton, List.append_nil]
  rfl

theorem getProperty (object : V) (name : String) (stack : List V) :
    heap.Performs locals [.getProperty (.inPublic name)] (object :: stack)
      (heap.held object (heap.property object (.inPublic name)) :: stack)
      [.read object (heap.property object (.inPublic name))] := by
  intro before
  rw [Machine.run_singleton]
  rfl

theorem getElement (object index : V) (stack : List V) :
    heap.Performs locals [.getProperty .runtime] (index :: object :: stack)
      (heap.held object (heap.element object index) :: stack)
      [.read object (heap.element object index)] := by
  intro before
  rw [Machine.run_singleton]
  rfl

theorem setProperty (object value : V) (name : String) (stack : List V) :
    heap.Performs locals [.setProperty (.inPublic name)] (value :: object :: stack) stack
      [.store object (heap.property object (.inPublic name)) value] := by
  intro before
  rw [Machine.run_singleton]
  rfl

/-- Names are looked up in the document once a closure has been entered. -/
theorem entry {document : V} (h : locals 0 = some document) (stack : List V) :
    heap.Performs locals [.getLocal 0, .pushScope] stack stack [] :=
  (getLocal h stack).append (pushScope document stack)

end Performs

end Heap

/-! ## A heap of texts -/

namespace Heap

/-- A heap on which every value is the text that leads to it, and every property its name. -/
def texts : Heap String String where
  constant := Literal.text
  lookUp := Name.text
  findOwner name := "scope of " ++ name.text
  property _ name := name.text
  element _ index := index
  held object property := object ++ "." ++ property
  result object name args :=
    object ++ "." ++ name.text ++ "(" ++ String.intercalate ", " args ++ ")"
  toText value := "string of " ++ value
  arithmetic op left right := left ++ " " ++ op.text ++ " " ++ right

theorem numbersElements_texts : texts.NumbersElements := by
  intro object i hi
  show toString (Int32.ofNat i).toInt = toString i
  rw [Int32.toInt_ofNat_of_lt hi]
  rfl

end Heap

end Bindery
