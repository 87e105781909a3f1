import Bindery.Code.Lowering
import Bindery.Proofs.Machine.Memory

/-!
# Code that leaves values

The rules by which the effect of a piece of code follows from that of its parts: what it leaves on
the stack, and what becomes of the memory. The rest of the stack and the local variables stay as
they are.
-/

namespace Bindery

/-- Local variables with one of them set. -/
def withLocal (locals : Nat → Option Datum) (slot : Nat) (value : Datum) (other : Nat) :
    Option Datum :=
  if other = slot then some value else locals other

section Runs

variable (numberSlot? : Float → Option Nat)

/-- Code runs to its end, from one frame and memory to another. -/
def Runs (code : List Instruction) (frame : Frame Datum) (memory : Memory) (frame' : Frame Datum)
    (memory' : Memory) : Prop :=
  (Machine.building numberSlot?).run code frame memory = some (frame', memory')

/-- Code leaves some values, whatever the stack holds. -/
def Yields (locals : Nat → Option Datum) (memory : Memory) (code : List Instruction)
    (values : List Datum) (memory' : Memory) : Prop :=
  ∀ stack, Runs numberSlot? code ⟨stack, locals⟩ memory ⟨values.reverse ++ stack, locals⟩ memory'

end Runs

variable {numberSlot? : Float → Option Nat} {locals : Nat → Option Datum}

theorem Runs.append {first second : List Instruction} {frame frame' frame'' : Frame Datum}
    {memory memory' memory'' : Memory} (h : Runs numberSlot? first frame memory frame' memory')
    (h' : Runs numberSlot? second frame' memory' frame'' memory'') :
    Runs numberSlot? (first ++ second) frame memory frame'' memory'' := by
  unfold Runs at h h' ⊢
  rw [Machine.run_append]
  show (StateT.bind _ _) memory = _
  rw [StateT.bind, h]
  exact h'

theorem Runs.nil (frame : Frame Datum) (memory : Memory) :
    Runs numberSlot? [] frame memory frame memory := rfl

theorem Runs.cons {instruction : Instruction} {rest : List Instruction}
    {frame frame' frame'' : Frame Datum} {memory memory' memory'' : Memory}
    (h : (Machine.building numberSlot?).step frame instruction memory = some (frame', memory'))
    (h' : Runs numberSlot? rest frame' memory' frame'' memory'') :
    Runs numberSlot? (instruction :: rest) frame memory frame'' memory'' := by
  have hfirst : Runs numberSlot? [instruction] frame memory frame' memory' := by
    rw [Runs, Machine.run_singleton, h]
  exact hfirst.append h'

namespace Yields

theorem nil (memory : Memory) : Yields numberSlot? locals memory [] [] memory :=
  fun stack => Runs.nil ⟨stack, locals⟩ memory

theorem append {first second : List Instruction} {values others : List Datum}
    {memory memory' memory'' : Memory}
    (h : Yields numberSlot? locals memory first values memory')
    (h' : Yields numberSlot? locals memory' second others memory'') :
    Yields numberSlot? locals memory (first ++ second) (values ++ others) memory'' := by
  intro stack
  rw [List.reverse_append, List.append_assoc]
  exact (h stack).append (h' (values.reverse ++ stack))

/-! ### Values without effects -/

theorem getLocal {slot : Nat} {value : Datum} (h : locals slot = some value) (memory : Memory) :
    Yields numberSlot? locals memory [.getLocal slot] [value] memory := by
  intro stack
  rw [Runs, Machine.run_singleton]
  simp only [Machine.step, h]
  rfl

theorem constant (value : Literal) (memory : Memory) :
    Yields numberSlot? locals memory [value.instruction] [.ofLiteral value] memory := by
  intro stack
  rcases value with _ | ⟨_ | _⟩ | _ | _ | _ <;> rfl

theorem pushNat (slot : Nat) (memory : Memory) :
    Yields numberSlot? locals memory [.pushNat slot] [.ofSlot slot] memory := by
  unfold Instruction.pushNat Datum.ofSlot
  split
  · exact constant (.int (.ofNat slot)) memory
  · exact constant (.number (.ofNat slot)) memory

theorem newFunction (method : MethodHandle) (memory : Memory) :
    Yields numberSlot? locals memory [.newFunction method] [.closure method] memory :=
  fun _ => rfl

theorem getLex (name : Name) (memory : Memory) :
    Yields numberSlot? locals memory [.getLex name] [.classObject name] memory :=
  fun _ => rfl

theorem findPropStrict (name : Name) (memory : Memory) :
    Yields numberSlot? locals memory [.findPropStrict name] [.owner name] memory :=
  fun _ => rfl

/-- A value that is kept in a local variable. -/
theorem setLocal {code : List Instruction} {value : Datum} {memory memory' : Memory}
    (h : Yields numberSlot? locals memory code [value] memory') (slot : Nat) (stack : List Datum) :
    Runs numberSlot? (code ++ [.setLocal slot]) ⟨stack, locals⟩ memory
      ⟨stack, withLocal locals slot value⟩ memory' := by
  refine (h stack).append ?_
  rw [Runs, Machine.run_singleton]
  rfl

/-! ### Allocations -/

theorem newArray {code : List Instruction} {values : List Datum} {memory memory' : Memory}
    (h : Yields numberSlot? locals memory code values memory') {count : Nat}
    (hcount : values.length = count) :
    Yields numberSlot? locals memory (code ++ [.newArray count])
      [.object memory'.cells.length] (memory'.add (.array values)) := by
  intro stack
  refine (h stack).append ?_
  rw [Runs, Machine.run_singleton]
  simp only [Machine.step, ← hcount, Frame.take?_reverse_append]
  rfl

theorem newObject {code : List Instruction} {values : List Datum} {memory memory' : Memory}
    (h : Yields numberSlot? locals memory code values memory') {count : Nat}
    (hcount : values.length = 2 * count) :
    Yields numberSlot? locals memory (code ++ [.newObject count])
      [.object memory'.cells.length] (memory'.add (.plain (Frame.inPairs values))) := by
  intro stack
  refine (h stack).append ?_
  rw [Runs, Machine.run_singleton]
  simp only [Machine.step, ← hcount, Frame.take?_reverse_append]
  rfl

theorem constructProp {code : List Instruction} {name : Name} {values : List Datum}
    {memory memory' : Memory}
    (h : Yields numberSlot? locals memory code (.owner name :: values) memory') {count : Nat}
    (hcount : values.length = count) :
    Yields numberSlot? locals memory (code ++ [.constructProp name count])
      [.object memory'.cells.length] (memory'.add (.record name values)) := by
  intro stack
  refine (h stack).append ?_
  rw [Runs, Machine.run_singleton, List.reverse_cons, List.append_assoc]
  simp only [Machine.step, ← hcount, List.singleton_append, Frame.take?_reverse_append,
    Machine.building, if_true]
  rfl

/-! ### Reads -/

theorem read {code : List Instruction} {memory memory' : Memory}
    (h : Yields numberSlot? locals memory code [.document] memory') {name : String} {value : Datum}
    (hvalue : memory'.property (.inPublic name) = some value) :
    Yields numberSlot? locals memory (code ++ [.getProperty (.inPublic name)]) [value] memory' := by
  intro stack
  refine (h stack).append ?_
  rw [Runs, Machine.run_singleton]
  simp only [Machine.step, List.reverse_singleton, List.singleton_append, Machine.building]
  show (StateT.bind _ _) memory' = _
  rw [StateT.bind, hvalue]
  rfl

theorem readAt {code : List Instruction} {address slot : Nat} {memory memory' : Memory}
    (h : Yields numberSlot? locals memory code [.object address, .ofSlot slot] memory')
    (hslot : (Datum.ofSlot slot).slot? numberSlot? = some slot) {items : List Datum}
    (hitems : memory'.array? address = some items) {value : Datum}
    (hvalue : items[slot]? = some value) :
    Yields numberSlot? locals memory (code ++ [.getProperty .runtime]) [value] memory' := by
  intro stack
  refine (h stack).append ?_
  rw [Runs, Machine.run_singleton]
  simp only [Machine.step, List.reverse_cons, List.reverse_nil, List.nil_append, List.cons_append,
    Machine.building, hslot]
  show (StateT.bind _ _) memory' = _
  rw [StateT.bind, hitems, Option.bind_some, hvalue]
  rfl

/-! ### Effects -/

theorem write {code : List Instruction} {object value : Datum} {memory memory' : Memory}
    (h : Yields numberSlot? locals memory code [object, value] memory')
    (hobject : memory'.IsObject object) (name : String) :
    Yields numberSlot? locals memory (code ++ [.setProperty (.inPublic name)]) []
      (memory'.note [.assigned object (.inPublic name) value]) := by
  intro stack
  obtain ⟨address, rfl, hrecord⟩ := hobject
  refine (h stack).append ?_
  rw [Runs, Machine.run_singleton]
  simp only [Machine.step, List.reverse_cons, List.reverse_nil, List.nil_append, List.cons_append,
    Machine.building]
  show (StateT.bind _ _) memory' = _
  rw [StateT.bind, Machine.onRecord, if_pos hrecord]
  rfl

theorem writeAt {code : List Instruction} {address slot : Nat} {value : Datum}
    {memory memory' : Memory}
    (h : Yields numberSlot? locals memory code [.object address, .ofSlot slot, value] memory')
    (hslot : (Datum.ofSlot slot).slot? numberSlot? = some slot) {items : List Datum}
    (hitems : memory'.array? address = some items) (hlt : slot < items.length) :
    Yields numberSlot? locals memory (code ++ [.setProperty .runtime]) []
      (memory'.store address items slot value) := by
  intro stack
  refine (h stack).append ?_
  rw [Runs, Machine.run_singleton]
  simp only [Machine.step, List.reverse_cons, List.reverse_nil, List.nil_append, List.cons_append,
    Machine.building, hslot]
  show (StateT.bind _ _) memory' = _
  simp only [StateT.bind, hitems, if_pos hlt]
  rfl

theorem callPropVoid {code : List Instruction} {object : Datum} {args : List Datum}
    {memory memory' : Memory}
    (h : Yields numberSlot? locals memory code (object :: args) memory')
    (hobject : memory'.IsObject object) (name : Name) {count : Nat} (hcount : args.length = count) :
    Yields numberSlot? locals memory (code ++ [.callPropVoid name count]) []
      (memory'.note [.called object name args]) := by
  intro stack
  obtain ⟨address, rfl, hrecord⟩ := hobject
  refine (h stack).append ?_
  rw [Runs, Machine.run_singleton, List.reverse_cons, List.append_assoc]
  simp only [Machine.step, ← hcount, List.singleton_append, Frame.take?_reverse_append,
    Machine.building]
  show (StateT.bind _ _) memory' = _
  rw [StateT.bind, Machine.onRecord, if_pos hrecord]
  rfl

end Yields

/-! ## Positions -/

/-- The rule for numbers reads back the positions below a bound that are too large for integers. -/
def ReadsSlots (numberSlot? : Float → Option Nat) (count : Nat) : Prop :=
  ∀ slot, 0x80000000 ≤ slot → slot < count → numberSlot? (.ofNat slot) = some slot

/-- A position is read back from the value that stands for it. -/
theorem ReadsSlots.slot?_ofSlot {count : Nat} (h : ReadsSlots numberSlot? count) {slot : Nat}
    (hlt : slot < count) : (Datum.ofSlot slot).slot? numberSlot? = some slot := by
  unfold Datum.ofSlot
  split
  · next hsmall =>
    have htoInt : (Int32.ofNat slot).toInt = slot := Int32.toInt_ofNat_of_lt hsmall
    have hle : 0 ≤ Int32.ofNat slot := by
      rw [Int32.le_iff_toInt_le, htoInt]
      exact Int.natCast_nonneg slot
    rw [Datum.slot?, if_pos hle, htoInt, Int.toNat_natCast]
  · next hlarge => exact h slot (by omega) hlt

/-- Nothing is asked of the rule where all positions are integers. -/
theorem readsSlots_of_le {count : Nat} (h : count ≤ 0x80000000) : ReadsSlots numberSlot? count :=
  fun slot hlarge hlt => by omega

end Bindery
