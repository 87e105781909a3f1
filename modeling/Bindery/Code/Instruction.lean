import Bindery.Code.Name

/-!
# Instructions

The instructions of the stack machine for which code is generated. Each one is listed with what it
takes from the stack, the top being the rightmost value, and what it leaves there.
-/

namespace Bindery

/-- A method body, by the order in which bodies were emitted. -/
abbrev MethodHandle := Nat

/-- One step of the stack machine. -/
inductive Instruction where
  /-- Leaves null. -/
  | pushNull
  /-- Leaves true. -/
  | pushTrue
  /-- Leaves false. -/
  | pushFalse
  /-- Leaves a string. -/
  | pushString (value : String)
  /-- Leaves an integer. -/
  | pushInt (value : Int32)
  /-- Leaves a number. -/
  | pushDouble (value : Float)
  /-- Takes a value and leaves it twice. -/
  | dup
  /-- Takes two values and leaves them in the other order. -/
  | swap
  /-- Leaves the value of a local variable; local 0 holds the object whose method runs. -/
  | getLocal (slot : Nat)
  /-- Takes a value and keeps it in a local variable. -/
  | setLocal (slot : Nat)
  /-- Takes an object in which names are looked up from then on. -/
  | pushScope
  /-- Takes an object, and behind it the name if that is computed; leaves the property. -/
  | getProperty (name : Name)
  /-- Takes an object, the name if that is computed, and a value, which becomes the property. -/
  | setProperty (name : Name)
  /-- Leaves what a name stands for. -/
  | getLex (name : Name)
  /-- Leaves the object in which a name is found. -/
  | findPropStrict (name : Name)
  /-- Takes so many values and leaves an array of them. -/
  | newArray (count : Nat)
  /-- Takes so many pairs of a name and a value and leaves an object with these properties. -/
  | newObject (count : Nat)
  /-- Leaves a closure of a method. -/
  | newFunction (method : MethodHandle)
  /-- Takes an object and the arguments and leaves the result of its method. -/
  | callProperty (name : Name) (argCount : Nat)
  /-- Takes an object and the arguments and drops the result of its method. -/
  | callPropVoid (name : Name) (argCount : Nat)
  /-- Takes an object and the arguments and leaves a new object of a class found in it. -/
  | constructProp (name : Name) (argCount : Nat)
  /-- Takes a value and leaves it as a string. -/
  | convertString
  /-- Takes two values and leaves their sum, or their concatenation. -/
  | add
  /-- Takes two values and leaves their difference. -/
  | subtract
  /-- Takes two values and leaves their product. -/
  | multiply
  /-- Takes two values and leaves their quotient. -/
  | divide
  /-- Takes a value and returns it. -/
  | returnValue
  /-- Returns nothing. -/
  | returnVoid
deriving Repr, DecidableEq, Inhabited

namespace Instruction

/-- Leaves a small natural number such as the slot of an array: an integer, or a number where it
exceeds the integers. -/
def pushNat (n : Nat) : Instruction :=
  if n < 0x80000000 then pushInt (.ofNat n) else pushDouble (.ofNat n)

end Instruction

end Bindery
