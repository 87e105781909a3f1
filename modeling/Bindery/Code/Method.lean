import Bindery.Code.Instruction

/-!
# Methods

The bodies of generated closures, kept in the order in which they are emitted. A body is referred
to by its number, which stays valid as more bodies follow.
-/

namespace Bindery

/-- The body of a closure. Its arguments are in the local variables from 1 on. -/
structure Method where
  name : String
  paramCount : Nat
  code : List Instruction
deriving Repr, DecidableEq, Inhabited

/-- The methods emitted so far, in the order of their numbers. -/
structure MethodTable where
  methods : Array Method := #[]
deriving Repr, DecidableEq, Inhabited

namespace MethodTable

/-- The number of methods. -/
def size (table : MethodTable) : Nat := table.methods.size

/-- The method of a number. -/
def get? (table : MethodTable) (handle : MethodHandle) : Option Method := table.methods[handle]?

/-- Adds a method; its number is the number of methods before. -/
def emit (table : MethodTable) (method : Method) : MethodHandle × MethodTable :=
  (table.size, { methods := table.methods.push method })

/-- An emitted method is found under its number, and all others stay where they are. -/
theorem get?_emit (table : MethodTable) (method : Method) (handle : MethodHandle) :
    (table.emit method).2.get? handle =
      if handle = (table.emit method).1 then some method else table.get? handle := by
  simp only [emit, get?, size, Array.getElem?_push]
  rfl

end MethodTable

end Bindery
