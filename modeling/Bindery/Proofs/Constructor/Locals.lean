import Bindery.Proofs.Constructor.Run

/-!
# The local variables of constructed code

The first stage does not read the local variables that hold the two arrays, and the later stages do
not set them. So whenever one of them is read, it holds its array.
-/

namespace Bindery

variable {numberSlot? : Float → Option Nat}

/-! ## Local variables that are not set -/

/-- Whatever frame a computation ends with has a property. -/
def EndsWith (P : Frame Datum → Prop) (computation : StateT Memory Option (Frame Datum)) : Prop :=
  ∀ memory frame memory', computation memory = some (frame, memory') → P frame

namespace EndsWith

variable {P : Frame Datum → Prop}

theorem pure {frame : Frame Datum} (h : P frame) : EndsWith P (pure frame) := by
  intro memory frame' memory' heq
  rwa [← (Prod.mk.inj (Option.some.inj heq)).1]

theorem bind {α : Type} {op : StateT Memory Option α} {f : α → StateT Memory Option (Frame Datum)}
    (h : ∀ v, EndsWith P (f v)) : EndsWith P (op >>= f) := by
  intro memory frame memory' heq
  obtain ⟨⟨v, between⟩, -, hf⟩ := Option.bind_eq_some_iff.mp heq
  exact h v between frame memory' hf

theorem stuck : EndsWith P (Machine.building numberSlot?).stuck :=
  fun _ _ _ heq => Option.noConfusion rfl (heq_of_eq heq)

end EndsWith

/-- An instruction that does not set a local variable leaves it as it is. -/
theorem Machine.locals_step {instruction : Instruction} {slot : Nat}
    (hne : instruction ≠ .setLocal slot) (frame : Frame Datum) :
    EndsWith (·.locals slot = frame.locals slot)
      ((Machine.building numberSlot?).step frame instruction) := by
  unfold Machine.step Machine.step.binary
  repeat' split
  all_goals first
    | exact .stuck
    | exact .pure rfl
    | exact .bind fun _ => .pure rfl
    | exact .pure (if_neg fun heq => hne (by rw [heq]))

namespace Runs

/-- Code that runs to its end runs its first part to the end. -/
theorem of_append {first second : List Instruction} {frame frame'' : Frame Datum}
    {memory memory'' : Memory}
    (h : Runs numberSlot? (first ++ second) frame memory frame'' memory'') :
    ∃ frame' memory', Runs numberSlot? first frame memory frame' memory' ∧
      Runs numberSlot? second frame' memory' frame'' memory'' := by
  unfold Runs at h ⊢
  rw [Machine.run_append] at h
  obtain ⟨⟨frame', memory'⟩, hfirst, hsecond⟩ := Option.bind_eq_some_iff.mp h
  exact ⟨frame', memory', hfirst, hsecond⟩

/-- Code that does not set a local variable leaves it as it is. -/
theorem locals_eq {code : List Instruction} {slot : Nat} (hcode : .setLocal slot ∉ code)
    {frame frame' : Frame Datum} {memory memory' : Memory}
    (h : Runs numberSlot? code frame memory frame' memory') :
    frame'.locals slot = frame.locals slot := by
  induction code generalizing frame memory with
  | nil => rw [(Prod.mk.inj (Option.some.inj h)).1]
  | cons instruction rest ih =>
    obtain ⟨between, memory'', hfirst, hrest⟩ : ∃ between memory'',
        Runs numberSlot? [instruction] frame memory between memory'' ∧
          Runs numberSlot? rest between memory'' frame' memory' :=
      of_append h
    rw [Runs, Machine.run_singleton] at hfirst
    have hstep : between.locals slot = frame.locals slot :=
      Machine.locals_step (fun heq => hcode (heq ▸ List.mem_cons_self)) frame memory between
        memory'' hfirst
    rw [ih (fun hmem => hcode (List.mem_cons_of_mem _ hmem)) hrest, hstep]

end Runs

/-- Wherever code reads a local variable, it finds a certain value. -/
def ReadsAs (numberSlot? : Float → Option Nat) (code : List Instruction) (frame : Frame Datum)
    (memory : Memory) (slot : Nat) (value : Datum) : Prop :=
  ∀ first rest, code = first ++ .getLocal slot :: rest → ∃ frame' memory',
    Runs numberSlot? first frame memory frame' memory' ∧ frame'.locals slot = some value

/-- A local variable that is only read after it has been set, and is not set again, is read as what
it has been set to. -/
theorem readsAs_append {first second : List Instruction} {slot : Nat} {value : Datum}
    (hfirst : .getLocal slot ∉ first) (hsecond : .setLocal slot ∉ second)
    {frame frame' frame'' : Frame Datum} {memory memory' memory'' : Memory}
    (h : Runs numberSlot? first frame memory frame' memory')
    (h' : Runs numberSlot? second frame' memory' frame'' memory'')
    (hvalue : frame'.locals slot = some value) :
    ReadsAs numberSlot? (first ++ second) frame memory slot value := by
  intro before rest heq
  obtain ⟨between, rfl, hbetween⟩ : ∃ between, before = first ++ between ∧
      second = between ++ .getLocal slot :: rest := by
    rcases List.append_eq_append_iff.mp heq with h | ⟨after, rfl, hrest⟩
    · exact h
    · cases after with
      | nil => exact ⟨[], by simp, by simpa using hrest.symm⟩
      | cons instruction after =>
        obtain ⟨rfl, -⟩ := List.cons.inj hrest
        exact absurd (List.mem_append_right _ List.mem_cons_self) hfirst
  rw [hbetween] at h' hsecond
  obtain ⟨reached, memory''', hruns, -⟩ := h'.of_append
  refine ⟨reached, memory''', h.append hruns, ?_⟩
  rw [hruns.locals_eq fun hmem => hsecond (List.mem_append_left _ hmem), hvalue]

/-! ## Constructed code -/

@[simp] theorem Instruction.setLocal_ne_pushNat (slot count : Nat) :
    setLocal slot ≠ pushNat count := by
  unfold pushNat
  split <;> simp

@[simp] theorem Instruction.getLocal_ne_pushNat (slot count : Nat) :
    getLocal slot ≠ pushNat count := by
  unfold pushNat
  split <;> simp

namespace RuntimeObject

@[simp] theorem setLocal_ne_functionOrNull (slot : Nat) (handle : Option MethodHandle) :
    .setLocal slot ≠ functionOrNull handle := by
  cases handle <;> simp [functionOrNull]

@[simp] theorem getLocal_ne_functionOrNull (slot : Nat) (handle : Option MethodHandle) :
    .getLocal slot ≠ functionOrNull handle := by
  cases handle <;> simp [functionOrNull]

@[simp] theorem getLocal_ne_stringOrNull (slot : Nat) (text : Option String) :
    .getLocal slot ≠ stringOrNull text := by
  cases text <;> simp [stringOrNull]

/-- The construction of a watcher sets no local variable. -/
theorem setLocal_notMem_watcher (slot : Nat) (config : Config) (resolver : Resolver)
    (propertyGetter : Option MethodHandle) (isRoot : Bool) (watched : Watched) (slots : List Nat)
    (out : Emission) :
    .setLocal slot ∉ (watcher config resolver propertyGetter isRoot watched slots out).1 := by
  unfold watcher
  split <;> simp [propertyWatcher, functionWatcher, xmlWatcher, object, events, listeners, element]

theorem setLocal_notMem_execution (slot count : Nat) : .setLocal slot ∉ execution count := by
  simp [execution, element]

end RuntimeObject

namespace ConstructorContext

section First

variable (context : ConstructorContext) {slot : Nat} (hslot : slot ≠ 0)
include hslot

theorem getLocal_notMem_bindings (bindings : List Binding) (out : Emission) :
    .getLocal slot ∉ (context.bindings bindings out).1 := by
  induction bindings generalizing out with
  | nil => simp [ConstructorContext.bindings]
  | cons first rest ih =>
    simp [ConstructorContext.bindings, ih, RuntimeObject.binding, RuntimeObject.object, hslot]

theorem getLocal_notMem_links (pairs : List (Nat × Nat)) (out : Emission) :
    .getLocal slot ∉ (context.links pairs out).1 := by
  induction pairs generalizing out with
  | nil => simp [links]
  | cons pair pairs ih =>
    unfold links
    split
    · exact ih _
    · simp [ih, linkTo, ownBinding, hslot]

/-- The first stage reads no local variable but that of the document. -/
theorem getLocal_notMem_allocation (out : Emission) :
    .getLocal slot ∉ (context.allocation out).1 := by
  simp [allocation, getLocal_notMem_bindings context hslot, getLocal_notMem_links context hslot,
    keep, emptyWatchers, loadArrays, hslot]

end First

mutual

theorem setLocal_notMem_construction (slot : Nat) (context : ConstructorContext) (isRoot : Bool) :
    (chain : WatchChain) → (out : Emission) →
    .setLocal slot ∉ (context.construction isRoot chain out).1
  | .link _ _ _ children, out => by
    rw [construction]
    simp [RuntimeObject.setLocal_notMem_watcher,
      setLocal_notMem_constructionAll slot context false children]

theorem setLocal_notMem_constructionAll (slot : Nat) (context : ConstructorContext)
    (isRoot : Bool) : (chains : List WatchChain) → (out : Emission) →
    .setLocal slot ∉ (context.constructionAll isRoot chains out).1
  | [], out => by simp [constructionAll]
  | chain :: chains, out => by
    rw [constructionAll]
    simp [setLocal_notMem_construction slot context isRoot chain,
      setLocal_notMem_constructionAll slot context isRoot chains]

end

theorem setLocal_notMem_join {slot : Nat} (hslot : slot ≤ 2) (parent child : Nat)
    (form : WatchForm) : .setLocal slot ∉ join parent child form := by
  have hthree : slot ≠ 3 := by omega
  have hfour : slot ≠ 4 := by omega
  unfold join
  split <;> simp [ownWatcher, RuntimeObject.element, hthree, hfour]

mutual

theorem setLocal_notMem_wiring {slot : Nat} (hslot : slot ≤ 2) : (chain : WatchChain) →
    .setLocal slot ∉ wiring chain
  | .link root _ _ children => by
    rw [wiring]
    exact setLocal_notMem_wiringAll hslot root children

theorem setLocal_notMem_wiringAll {slot : Nat} (hslot : slot ≤ 2) (parent : Nat) :
    (chains : List WatchChain) → .setLocal slot ∉ wiringAll parent chains
  | [] => by simp [wiringAll]
  | chain :: chains => by
    rw [wiringAll]
    simp [setLocal_notMem_join hslot, setLocal_notMem_wiring hslot chain,
      setLocal_notMem_wiringAll hslot parent chains]

end

theorem setLocal_notMem_rootWiring {slot : Nat} (hslot : slot ≤ 2) (chain : WatchChain) :
    .setLocal slot ∉ rootWiring chain := by
  have hroot : .setLocal slot ≠ rootObject chain.watched := by
    unfold rootObject
    split <;> simp
  simp [rootWiring, ownWatcher, RuntimeObject.element, hroot, setLocal_notMem_wiring hslot]

/-- Between the first stage and the last, only local variables behind those of the arrays are
set. -/
theorem setLocal_notMem_middle (context : ConstructorContext) {slot : Nat} (hslot : slot ≤ 2)
    (out : Emission) : .setLocal slot ∉ context.middle out := by
  simp [middle, setLocal_notMem_constructionAll, setLocal_notMem_rootWiring hslot]

end ConstructorContext

end Bindery
