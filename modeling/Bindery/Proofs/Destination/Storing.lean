import Bindery.Constructor.Closure
import Bindery.Proofs.Destination.Chain
import Bindery.Proofs.Machine.Heap
import Bindery.Proofs.Machine.Lowering
import Bindery.Symbol.Table

/-!
# Storing where a chain is read

The setter of a destination and the code that reads the same chain are generated apart from each
other. On every heap both go through the same properties, and what the one reads last is what the
other stores. Chains that start at a static property of the document are the exception: they are
read from the class and stored in the document.
-/

namespace Bindery

/-! ## Reading -/

namespace Segment

/-- The code that reads the element of a segment. -/
def elementCode (segment : Segment) : List Instruction :=
  match segment.index with
  | some i => [.pushInt (.ofNat i), .getProperty .runtime]
  | none => []

/-- The code with which an expression reads one segment further. -/
def code (segment : Segment) : List Instruction :=
  .getProperty (.inPublic segment.name) :: segment.elementCode

/-- The names of the properties that a segment goes through, the decimal text for an element. -/
def steps (segment : Segment) : List String :=
  segment.name :: (segment.index.map toString).toList

end Segment

/-- The code of a chain of segments. -/
def Resolver.lowerChain (resolver : Resolver) : List Segment → Lowered
  | [] => .done []
  | first :: rest =>
    (resolver.lowerName first.name).andThen (.done (first.elementCode ++ rest.flatMap Segment.code))

/-- More segments add their code. -/
theorem Resolver.lowerChain_append {resolver : Resolver} {segments : List Segment}
    (h : segments ≠ []) (more : List Segment) :
    resolver.lowerChain (segments ++ more) =
      (resolver.lowerChain segments).andThen (.done (more.flatMap Segment.code)) := by
  cases segments with
  | nil => exact absurd rfl h
  | cons first rest =>
    rw [List.cons_append, lowerChain, lowerChain, Lowered.andThen_done_done, List.flatMap_append,
      List.append_assoc]

/-- The number of the last segment adds the code that reads its element. -/
theorem Resolver.lowerChain_element {resolver : Resolver} (segments : List Segment) (name : String)
    (i : Nat) :
    resolver.lowerChain (segments ++ [{ name := name, index := some i }]) =
      (resolver.lowerChain (segments ++ [{ name := name }])).andThen
        (.done [.pushInt (.ofNat i), .getProperty .runtime]) := by
  cases segments with
  | nil => simp [lowerChain, Segment.elementCode]
  | cons first rest =>
    rw [lowerChain_append (by simp), lowerChain_append (by simp), Lowered.andThen_done_done]
    simp [Segment.code, Segment.elementCode]

/-- The code of an expression that is a chain is the code of its segments. -/
theorem Expr.IsChain.lower_eq {resolver : Resolver} {e : Expr} {segments : List Segment}
    (h : e.IsChain segments) : e.lower resolver = resolver.lowerChain segments := by
  -- The chain grows at its end, as the code does; an element number is put behind a name that is
  -- the last one already.
  induction h with
  | name | own => simp [lower, Resolver.lowerChain, Segment.elementCode]
  | member name span hobject ih =>
    rw [lower_member hobject.ne_self, ih, Resolver.lowerChain_append hobject.ne_nil]
    rfl
  | @element object segments name i numberSpan span _ hi ih =>
    have hnumber : Int32.ofNat i.toInt.toNat = i := Int32.ofNat_toNatClampNeg i hi
    rw [lower, lower, ih, Resolver.lowerChain_element, hnumber, Lowered.andThen_done_done]
    rfl

/-- Whether a destination starts at a static property of the document. -/
def Destination.startsStatic (resolver : Resolver) (destination : Destination) : Bool :=
  match destination.root, destination.segments with
  | .document, first :: _ => (resolver.documentMember? first.name).any (·.isStatic)
  | _, _ => false

/-- Unless the chain starts at a static property of the document, its code starts where the setter
of the destination starts. -/
theorem Expr.lower_of_placement {resolver : Resolver} {toText : Bool} {e : Expr}
    {destination : Destination} (h : (e.placement resolver toText).1 = .resolved destination)
    (hstatic : destination.startsStatic resolver = false) :
    e.lower resolver = .done (Destination.rootCode destination.root ::
      destination.segments.flatMap Segment.code) := by
  obtain ⟨segments, hchain, hlocates, -, -⟩ := placement_eq_resolved_iff.mp h
  obtain ⟨root, rest, toText', span⟩ := destination
  rw [hchain.lower_eq]
  cases hlocates with
  | @document first definition rest hmember =>
    have hown : definition.isStatic = false := by
      simpa [Destination.startsStatic, hmember] using hstatic
    simp only [Resolver.lowerChain, Resolver.lowerName, hmember, Resolver.memberHolder, hown,
      Bool.false_eq_true, if_false, Lowered.done_andThen]
    rfl
  | @classObject first definition rest hmember hglobal hclass hindex _ =>
    simp only [Resolver.lowerChain, Resolver.lowerName, hmember, hglobal, hclass, if_true,
      Segment.elementCode, hindex, Lowered.done_andThen]
    rfl

/-! ## Following names on a heap -/

namespace Heap

variable {V P : Type} {heap : Heap V P} {locals : Nat → Option V}

/-- The value that is reached from an object through properties of these names. -/
def reached (heap : Heap V P) : V → List String → V
  | object, [] => object
  | object, step :: steps =>
    reached heap (heap.held object (heap.property object (.inPublic step))) steps

/-- The accesses on the way there. -/
def readings (heap : Heap V P) : V → List String → List (Access V P)
  | _, [] => []
  | object, step :: steps =>
    .read object (heap.property object (.inPublic step)) ::
      readings heap (heap.held object (heap.property object (.inPublic step))) steps

theorem reached_append (heap : Heap V P) (object : V) (steps more : List String) :
    heap.reached object (steps ++ more) = heap.reached (heap.reached object steps) more := by
  induction steps generalizing object with
  | nil => rfl
  | cons step steps ih => exact ih _

theorem readings_append (heap : Heap V P) (object : V) (steps more : List String) :
    heap.readings object (steps ++ more) =
      heap.readings object steps ++ heap.readings (heap.reached object steps) more := by
  induction steps generalizing object with
  | nil => rfl
  | cons step steps ih => exact congrArg (_ :: ·) (ih _)

/-- On the way there is nothing but reads. -/
theorem exists_of_mem_readings {object : V} {steps : List String} {access : Access V P}
    (h : access ∈ heap.readings object steps) :
    ∃ owner property, access = .read owner property := by
  induction steps generalizing object with
  | nil => simp [readings] at h
  | cons step steps ih =>
    rcases List.mem_cons.mp h with rfl | hrest
    · exact ⟨_, _, rfl⟩
    · exact ih hrest

/-- The code of an expression goes through the names of a segment. -/
theorem performs_code (hnumbers : heap.NumbersElements) {segment : Segment}
    (hindex : ∀ i ∈ segment.index, i < 0x80000000) (object : V) (stack : List V) :
    heap.Performs locals segment.code (object :: stack)
      (heap.reached object segment.steps :: stack) (heap.readings object segment.steps) := by
  obtain ⟨name, index⟩ := segment
  cases index with
  | none => exact .getProperty object name stack
  | some i =>
    let property := heap.held object (heap.property object (.inPublic name))
    have helement : heap.Performs locals [.getProperty .runtime] _ _ _ :=
      .getElement property (heap.constant (.int (.ofNat i))) stack
    rw [hnumbers property i (hindex i rfl)] at helement
    exact (Performs.getProperty object name stack).append ((Performs.pushInt _ _).append helement)

/-- The code of an expression goes through the names of all segments of a chain. -/
theorem performs_flatMap_code (hnumbers : heap.NumbersElements) {segments : List Segment}
    (hindex : ∀ segment ∈ segments, ∀ i ∈ segment.index, i < 0x80000000) (object : V)
    (stack : List V) :
    heap.Performs locals (segments.flatMap Segment.code) (object :: stack)
      (heap.reached object (segments.flatMap Segment.steps) :: stack)
      (heap.readings object (segments.flatMap Segment.steps)) := by
  induction segments generalizing object with
  | nil => exact .nil _
  | cons segment segments ih =>
    rw [List.flatMap_cons, List.flatMap_cons, reached_append, readings_append]
    exact (performs_code hnumbers (hindex segment List.mem_cons_self) object stack).append
      (ih (fun other hother => hindex other (List.mem_cons_of_mem _ hother)) _)

/-- The code of a setter goes through the names of a segment as well. -/
theorem performs_readCode (segment : Segment) (object : V) (stack : List V) :
    heap.Performs locals (Destination.readCode segment) (object :: stack)
      (heap.reached object segment.steps :: stack) (heap.readings object segment.steps) := by
  obtain ⟨name, index⟩ := segment
  cases index with
  | none => exact .getProperty object name stack
  | some i => exact (Performs.getProperty object name stack).append (.getProperty _ _ stack)

/-- The value at which a chain starts. -/
def start (heap : Heap V P) (document : V) : DestinationRoot → V
  | .document => document
  | .classObject qualified => heap.lookUp (.ofQualified qualified)

theorem performs_rootCode (heap : Heap V P) {document : V} (hdocument : locals 0 = some document)
    (root : DestinationRoot) (stack : List V) :
    heap.Performs locals [Destination.rootCode root] stack (heap.start document root :: stack)
      [] := by
  cases root with
  | document => exact .getLocal hdocument stack
  | classObject qualified => exact .getLex (.ofQualified qualified) stack

/-- What a setter stores: the value itself, or its text. -/
def stored (heap : Heap V P) (toText : Bool) (value : V) : V :=
  if toText then heap.toText value else value

/-- The code that loads what is stored. -/
theorem performs_value {value : V} (hvalue : locals 1 = some value) (toText : Bool)
    (stack : List V) :
    heap.Performs locals (if toText then [.getLocal 1, .convertString] else [.getLocal 1]) stack
      (heap.stored toText value :: stack) [] := by
  cases toText with
  | false => exact .getLocal hvalue stack
  | true => exact (Performs.getLocal hvalue stack).append (.convertString value stack)

/-- The code of a setter goes through all names but the last one and stores there. -/
theorem performs_segmentsCode (heap : Heap V P) {value : V} (hvalue : locals 1 = some value)
    (toText : Bool) {segments : List Segment} (h : segments ≠ []) :
    ∃ before last, segments.flatMap Segment.steps = before ++ [last] ∧
      ∀ object stack, heap.Performs locals (Destination.segmentsCode toText segments)
        (object :: stack) stack (heap.readings object before ++
          [.store (heap.reached object before)
            (heap.property (heap.reached object before) (.inPublic last))
            (heap.stored toText value)]) := by
  fun_induction Destination.segmentsCode toText segments with
  | case1 => exact absurd rfl h
  | case2 segment =>
    obtain ⟨name, index⟩ := segment
    cases index with
    | none =>
      refine ⟨[], name, rfl, fun object stack => ?_⟩
      exact (performs_value hvalue toText (object :: stack)).append
        (.setProperty object (heap.stored toText value) name stack)
    | some i =>
      refine ⟨[name], toString i, rfl, fun object stack => ?_⟩
      have hproperty : heap.Performs locals [.getProperty (.inPublic name)] _ _ _ :=
        .getProperty object name stack
      exact (hproperty.append (performs_value hvalue toText _)).append
        (.setProperty _ (heap.stored toText value) (toString i) stack)
  | case3 segment rest hrest ih =>
    obtain ⟨before, last, hsteps, hperforms⟩ := ih hrest
    refine ⟨segment.steps ++ before, last, by simp [hsteps], fun object stack => ?_⟩
    rw [readings_append, reached_append, List.append_assoc]
    exact (performs_readCode segment object stack).append (hperforms _ stack)

end Heap

/-! ## The main result -/

/-- A document with an array of items and a static counter. -/
def storingTable : SymbolTable :=
  let items : Definition := { name := "items", kind := .variable, type := some "Array" }
  let total : Definition :=
    { name := "total", kind := .variable, type := some "int", isStatic := true }
  ((SymbolTable.ofDocument "Main").declareOwnMember items).declareOwnMember total

namespace Expr

variable {resolver : Resolver} {e : Expr} {toText : Bool} {destination : Destination}

/-- A destination has segments, and their numbers are 32-bit words. -/
theorem segments_of_placement (h : (e.placement resolver toText).1 = .resolved destination) :
    destination.segments ≠ [] ∧ destination.HasSmallIndexes := by
  obtain ⟨segments, hchain, hlocates, -, -⟩ := placement_eq_resolved_iff.mp h
  refine ⟨hlocates.ne_nil, fun segment hsegment => hchain.index_lt segment ?_⟩
  exact hlocates.isSuffix.subset hsegment

/-- **A setter stores where the chain is read.** If an expression names a destination that does not
start at a static property of the document, its code is complete, and on every heap on which element
numbers and their texts denote the same properties the setter makes the same reads as the code of
the expression up to the last one. What that reads from is what the setter stores the value in, and
it stores nothing else. -/
theorem setter_stores_last_read (h : (e.placement resolver toText).1 = .resolved destination)
    (hstatic : destination.startsStatic resolver = false) {V P : Type} {heap : Heap V P}
    (hnumbers : heap.NumbersElements) (document value : V) (slot : Nat) :
    (e.lower resolver).error? = none ∧
      (destination.setter slot).code = (destination.setter slot).body ++ [.returnVoid] ∧
      ∃ reads object property,
        (∀ access ∈ reads, ∃ owner step, access = .read owner step) ∧
        heap.run (e.lower resolver).code [document] =
          some ([heap.held object property], reads ++ [.read object property]) ∧
        heap.run (destination.setter slot).body [document, value] =
          some ([], reads ++ [.store object property (heap.stored destination.toText value)]) := by
  obtain ⟨hne, hindex⟩ := segments_of_placement h
  have hlower := lower_of_placement h hstatic
  let read : Nat → Option V := fun i => [document][i]?
  let store : Nat → Option V := fun i => [document, value][i]?
  let start := heap.start document destination.root
  have hread : read 0 = some document := rfl
  have hstore : store 0 = some document := rfl
  have hvalue : store 1 = some value := rfl
  obtain ⟨before, last, hsteps, hstores⟩ :=
    heap.performs_segmentsCode hvalue destination.toText hne
  let object := heap.reached start before
  let property := heap.property object (.inPublic last)
  have hreads : heap.Performs read (e.lower resolver).code [] [heap.held object property]
      (heap.readings start before ++ [.read object property]) := by
    have hcode := (heap.performs_rootCode hread destination.root []).append
      (Heap.performs_flatMap_code hnumbers hindex start [])
    rw [hsteps, Heap.reached_append, Heap.readings_append] at hcode
    rw [hlower]
    exact hcode
  have hbody : (destination.setter slot).body = Method.entry ++
      [Destination.rootCode destination.root] ++
        Destination.segmentsCode destination.toText destination.segments :=
    List.dropLast_concat
  have hsetter : heap.Performs store (destination.setter slot).body [] []
      (heap.readings start before ++
        [.store object property (heap.stored destination.toText value)]) := by
    have hroot := (Heap.Performs.entry hstore []).append
      (heap.performs_rootCode hstore destination.root [])
    rw [hbody]
    exact hroot.append (hstores start [])
  refine ⟨by rw [hlower]; rfl, by rw [hbody]; rfl, heap.readings start before, object, property,
    fun access => Heap.exists_of_mem_readings, Heap.run_eq_some hreads, Heap.run_eq_some hsetter⟩

/-- The expression `this.items[2].name`. -/
def storingChain : Expr :=
  let items := member (self .unknown) "items" .unknown
  member (index items (literal (.int 2) .unknown) .unknown) "name" .unknown

/-- The destination that it names, for text. -/
def storingDestination : Destination where
  root := .document
  segments := [{ name := "items", index := some 2 }, { name := "name" }]
  toText := true
  span := .unknown

/-- The name of an item is read from the item, and a text for it is stored there. -/
theorem setter_stores_last_read_item :
    (storingChain.placement storingTable.resolver true).1 = .resolved storingDestination ∧
      storingDestination.startsStatic storingTable.resolver = false ∧
      Heap.texts.NumbersElements ∧
      Heap.texts.run (storingChain.lower storingTable.resolver).code ["this"] =
        some (["this.items.2.name"],
          [.read "this" "items", .read "this.items" "2", .read "this.items.2" "name"]) ∧
      Heap.texts.run (storingDestination.setter 0).body ["this", "new"] =
        some ([], [.read "this" "items", .read "this.items" "2",
          .store "this.items.2" "name" "string of new"]) := by
  have hplaced : (storingChain.placement storingTable.resolver true).1 =
      .resolved storingDestination := by decide
  have hstatic : storingDestination.startsStatic storingTable.resolver = false := by decide
  have hread : Heap.texts.run (storingChain.lower storingTable.resolver).code ["this"] =
      some (["this.items.2.name"],
        [.read "this" "items", .read "this.items" "2"] ++ [.read "this.items.2" "name"]) := by
    decide +kernel
  obtain ⟨-, -, reads, object, property, -, hchain, hsetter⟩ :=
    setter_stores_last_read hplaced hstatic Heap.numbersElements_texts "this" "new" 0
  obtain ⟨-, haccesses⟩ := Prod.mk.inj (Option.some.inj (hchain.symm.trans hread))
  obtain ⟨rfl, hlast⟩ := List.append_inj' haccesses rfl
  obtain ⟨rfl, rfl⟩ := Access.read.inj (List.cons.inj hlast).1
  exact ⟨hplaced, hstatic, Heap.numbersElements_texts, hread, hsetter⟩

/-- A static property of the document is read from its class, but its setter stores the value in
the document. -/
theorem static_read_from_class_stored_in_document :
    ((identifier "total" .unknown).placement storingTable.resolver false).1 =
        .resolved ⟨.document, [{ name := "total" }], false, .unknown⟩ ∧
      Heap.texts.NumbersElements ∧
      Heap.texts.run ((identifier "total" .unknown).lower storingTable.resolver).code ["this"] =
        some (["Main.total"], [.read "Main" "total"]) ∧
      Heap.texts.run
          (Destination.setter ⟨.document, [{ name := "total" }], false, .unknown⟩ 0).body
          ["this", "7"] = some ([], [.store "this" "total" "7"]) :=
  ⟨by decide, Heap.numbersElements_texts, by decide +kernel, by decide +kernel⟩

end Expr

end Bindery
