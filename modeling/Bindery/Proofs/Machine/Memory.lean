import Bindery.Proofs.Machine.Basic

/-!
# A machine with a memory

The machine on which constructed code is run. Its memory consists of the cells that have been
allocated, the properties of the document and a journal of all assignments and calls. An operation
that makes no sense, such as the call of a method of null, ends the run without a result.

How the running system turns a number into the position of an array element is a parameter; small
positions are integers and do not depend on it.
-/

namespace Bindery

/-- What constructed code computes with. -/
inductive Datum where
  | null
  | bool (value : Bool)
  | string (value : String)
  | int (value : Int32)
  | number (value : Float)
  /-- The document in whose constructor the code runs. -/
  | document
  /-- The class of a name. -/
  | classObject (name : Name)
  /-- The object of the scope in which a name is found. -/
  | owner (name : Name)
  | closure (method : MethodHandle)
  /-- What has been allocated at an address. -/
  | object (address : Nat)
deriving DecidableEq

/-- What can be allocated. -/
inductive Cell where
  | array (items : List Datum)
  /-- An object of no class, by the names and values of its properties. -/
  | plain (entries : List (Datum × Datum))
  /-- An object of a class, by the arguments of its construction. -/
  | record (className : Name) (args : List Datum)

/-- What the journal keeps of an operation. -/
inductive Event where
  /-- A property of the document or of an object has been assigned. -/
  | assigned (object : Datum) (name : Name) (value : Datum)
  /-- An element of an array has been assigned. -/
  | stored (array : Nat) (slot : Nat) (value : Datum)
  /-- A method of an object has been called. -/
  | called (object : Datum) (name : Name) (args : List Datum)
deriving DecidableEq

/-- The memory of a run. An address is the position of its cell. -/
structure Memory where
  cells : List Cell
  /-- The properties of the document. -/
  property : Name → Option Datum
  journal : List Event

namespace Datum

/-- The value of a constant. -/
def ofLiteral : Literal → Datum
  | .null => null
  | .bool value => bool value
  | .string value => string value
  | .int value => int value
  | .number value => number value

/-- A text, or null. -/
def ofText? : Option String → Datum
  | some text => string text
  | none => null

/-- A closure of a method, or null. -/
def ofHandle? : Option MethodHandle → Datum
  | some handle => closure handle
  | none => null

/-- A position in an array. -/
def ofSlot (slot : Nat) : Datum :=
  if slot < 0x80000000 then int (.ofNat slot) else number (.ofNat slot)

/-- The position that a value stands for, as an integer or by the rule for numbers. -/
def slot? (numberSlot? : Float → Option Nat) : Datum → Option Nat
  | int value => if 0 ≤ value then some value.toInt.toNat else none
  | number value => numberSlot? value
  | _ => none

end Datum

namespace Memory

/-- Allocates a cell. -/
def add (memory : Memory) (cell : Cell) : Memory :=
  { memory with cells := memory.cells ++ [cell] }

/-- Writes something into the journal. -/
def note (memory : Memory) (events : List Event) : Memory :=
  { memory with journal := memory.journal ++ events }

/-- Assigns a property of the document. -/
def assign (memory : Memory) (name : Name) (value : Datum) : Memory :=
  { memory with
    property := fun other => if other = name then some value else memory.property other
    journal := memory.journal ++ [.assigned .document name value] }

/-- The elements of an array. -/
def array? (memory : Memory) (address : Nat) : Option (List Datum) :=
  match memory.cells[address]? with
  | some (.array items) => some items
  | _ => none

/-- Whether an object of a class is at an address. -/
def isRecord (memory : Memory) (address : Nat) : Bool :=
  match memory.cells[address]? with
  | some (.record ..) => true
  | _ => false

/-- A value is an object of a class. -/
def IsObject (memory : Memory) (value : Datum) : Prop :=
  ∃ address, value = .object address ∧ memory.isRecord address

/-- Assigns an element of an array that has these elements. -/
def store (memory : Memory) (address : Nat) (items : List Datum) (slot : Nat) (value : Datum) :
    Memory :=
  { memory with
    cells := memory.cells.set address (.array (items.set slot value))
    journal := memory.journal ++ [.stored address slot value] }

/-! ### What changes and what stays -/

@[simp] theorem cells_add (memory : Memory) (cell : Cell) :
    (memory.add cell).cells = memory.cells ++ [cell] := rfl

@[simp] theorem journal_add (memory : Memory) (cell : Cell) :
    (memory.add cell).journal = memory.journal := rfl

@[simp] theorem cells_note (memory : Memory) (events : List Event) :
    (memory.note events).cells = memory.cells := rfl

@[simp] theorem journal_note (memory : Memory) (events : List Event) :
    (memory.note events).journal = memory.journal ++ events := rfl

@[simp] theorem cells_assign (memory : Memory) (name : Name) (value : Datum) :
    (memory.assign name value).cells = memory.cells := rfl

@[simp] theorem journal_assign (memory : Memory) (name : Name) (value : Datum) :
    (memory.assign name value).journal =
      memory.journal ++ [.assigned .document name value] := rfl

@[simp] theorem property_assign (memory : Memory) (name other : Name) (value : Datum) :
    (memory.assign name value).property other =
      if other = name then some value else memory.property other := rfl

@[simp] theorem note_nil (memory : Memory) : memory.note [] = memory := by
  simp [note]

@[simp] theorem note_note (memory : Memory) (events more : List Event) :
    (memory.note events).note more = memory.note (events ++ more) := by
  simp [note]

theorem array?_eq_some_iff {memory : Memory} {address : Nat} {items : List Datum} :
    memory.array? address = some items ↔ memory.cells[address]? = some (.array items) := by
  unfold array?
  split
  · next heq => simp [heq]
  · next hne => simpa using hne items

/-- A cell is at an address. -/
def Holds (memory : Memory) (address : Nat) (cell : Cell) : Prop :=
  memory.cells[address]? = some cell

/-- A cell other than that of some array is at an address. -/
def HoldsBeside (memory : Memory) (array address : Nat) (cell : Cell) : Prop :=
  address ≠ array ∧ memory.Holds address cell

/-- A stored element replaces the one in its slot. -/
theorem array?_store {memory : Memory} {array slot : Nat} {items : List Datum} {value : Datum}
    (hitems : memory.array? array = some items) :
    (memory.store array items slot value).array? array = some (items.set slot value) := by
  have hlt : array < memory.cells.length :=
    (List.getElem?_eq_some_iff.mp (array?_eq_some_iff.mp hitems)).1
  rw [array?_eq_some_iff]
  simp [store, hlt]

/-- All cells but that of the array stay as they are. -/
theorem holdsBeside_store {memory : Memory} {array slot address : Nat} {items : List Datum}
    {value : Datum} {cell : Cell} :
    (memory.store array items slot value).HoldsBeside array address cell ↔
      memory.HoldsBeside array address cell := by
  refine and_congr_right fun hne => ?_
  rw [Holds, Holds, store, List.getElem?_set_ne (Ne.symm hne)]

/-- Nothing but allocations has happened in between. -/
structure Grows (memory memory' : Memory) : Prop where
  cells : memory.cells <+: memory'.cells
  property_eq : memory'.property = memory.property
  journal_eq : memory'.journal = memory.journal

theorem Grows.refl (memory : Memory) : memory.Grows memory := ⟨List.prefix_refl _, rfl, rfl⟩

theorem Grows.trans {memory memory' memory'' : Memory} (h : memory.Grows memory')
    (h' : memory'.Grows memory'') : memory.Grows memory'' :=
  ⟨h.cells.trans h'.cells, h'.property_eq.trans h.property_eq, h'.journal_eq.trans h.journal_eq⟩

theorem grows_add (memory : Memory) (cell : Cell) : memory.Grows (memory.add cell) :=
  ⟨List.prefix_append _ _, rfl, rfl⟩

theorem Grows.holds {memory memory' : Memory} (h : memory.Grows memory') {address : Nat}
    {cell : Cell} (hcell : memory.Holds address cell) : memory'.Holds address cell := by
  obtain ⟨more, hmore⟩ := h.cells
  have hlt : address < memory.cells.length := (List.getElem?_eq_some_iff.mp hcell).1
  rw [Holds, ← hmore, List.getElem?_append_left hlt]
  exact hcell

theorem holds_add (memory : Memory) (cell : Cell) :
    (memory.add cell).Holds memory.cells.length cell := by
  simp [Holds]

/-- A cell has been allocated since the memory had some size. -/
def HoldsSince (memory : Memory) (since : Nat) (address : Nat) (cell : Cell) : Prop :=
  since ≤ address ∧ memory.Holds address cell

/-- What an allocation adds is there from then on. -/
theorem Grows.holdsSince_add {memory memory' : Memory} {cell : Cell} {since : Nat}
    (h : (memory.add cell).Grows memory') (hle : since ≤ memory.cells.length) :
    memory'.HoldsSince since memory.cells.length cell :=
  ⟨hle, h.holds (holds_add memory cell)⟩

theorem Grows.holdsSince {memory memory' : Memory} (h : memory.Grows memory') {since address : Nat}
    {cell : Cell} (hcell : memory.HoldsSince since address cell) :
    memory'.HoldsSince since address cell :=
  ⟨hcell.1, h.holds hcell.2⟩

theorem Grows.length_le {memory memory' : Memory} (h : memory.Grows memory') :
    memory.cells.length ≤ memory'.cells.length :=
  h.cells.length_le

/-- A value is an object if its address holds one. -/
theorem isObject_of_holds {memory : Memory} {address : Nat} {name : Name} {args : List Datum}
    (h : memory.Holds address (.record name args)) : memory.IsObject (.object address) := by
  rw [Holds] at h
  exact ⟨address, rfl, by rw [isRecord, h]⟩

theorem Grows.array? {memory memory' : Memory} (h : memory.Grows memory') {address : Nat}
    {items : List Datum} (hitems : memory.array? address = some items) :
    memory'.array? address = some items :=
  array?_eq_some_iff.mpr (h.holds (array?_eq_some_iff.mp hitems))

/-- The memory once the document keeps a new array. -/
def keepArray (memory : Memory) (name : Name) (items : List Datum) : Memory :=
  (memory.add (.array items)).assign name (.object memory.cells.length)

theorem array?_keepArray (memory : Memory) (name : Name) (items : List Datum) :
    (memory.keepArray name items).array? memory.cells.length = some items :=
  array?_eq_some_iff.mpr (holds_add memory (.array items))

theorem holds_keepArray {memory : Memory} {address : Nat} {cell : Cell}
    (h : memory.Holds address cell) (name : Name) (items : List Datum) :
    (memory.keepArray name items).Holds address cell :=
  (grows_add memory (.array items)).holds h

end Memory

namespace Machine

/-- Allocates a cell and leaves its address. -/
def allocate (cell : Cell) : StateT Memory Option Datum := fun memory =>
  some (.object memory.cells.length, memory.add cell)

/-- Writes an operation on an object of a class into the journal. -/
def onRecord (address : Nat) (event : Event) : StateT Memory Option Unit := fun memory =>
  if memory.isRecord address then some ((), memory.note [event]) else none

/-- The machine that builds the bindings and watchers of a document. -/
def building (numberSlot? : Float → Option Nat) : Machine (StateT Memory Option) Datum where
  stuck := failure
  constant := .ofLiteral
  lookUp name := pure (.classObject name)
  findOwner name := pure (.owner name)
  enterScope _ := pure ()
  read object name := fun memory =>
    match object with
    | .document => (memory.property name).map (·, memory)
    | _ => none
  readAt object index := fun memory =>
    match object, index.slot? numberSlot? with
    | .object address, some slot => ((memory.array? address).bind (·[slot]?)).map (·, memory)
    | _, _ => none
  write object name value := fun memory =>
    match object with
    | .document => some ((), memory.assign name value)
    | .object address => onRecord address (.assigned object name value) memory
    | _ => none
  writeAt object index value := fun memory =>
    match object, index.slot? numberSlot? with
    | .object address, some slot =>
      match memory.array? address with
      | some items =>
        if slot < items.length then some ((), memory.store address items slot value) else none
      | none => none
    | _, _ => none
  call object name args := fun memory =>
    match object with
    | .object address =>
      (onRecord address (.called object name args) memory).map fun (_, memory) => (.null, memory)
    | _ => none
  construct object name args :=
    if object = .owner name then allocate (.record name args) else failure
  newArray items := allocate (.array items)
  newObject entries := allocate (.plain entries)
  newFunction method := pure (.closure method)
  toText _ := failure
  arithmetic _ _ _ := failure

end Machine

end Bindery
