import Bindery.Code.Lowering
import Bindery.Proofs.Machine.Meaning

/-!
# Lowered code computes the meaning

Running the code of an expression performs exactly the operations that make up its meaning, in the
same order, and leaves the value on top of an otherwise untouched stack. The statements hold on
every machine, so no two operations can have been exchanged, dropped or repeated.
-/

namespace Bindery

namespace Lowered

/-- Two parts are complete together exactly when each one is. -/
theorem andThen_error?_eq_none_iff {first second : Lowered} :
    (first.andThen second).error? = none ↔ first.error? = none ∧ second.error? = none := by
  cases h : first.error? <;> simp [andThen, h]

/-- Behind a complete part its successor follows. -/
theorem andThen_code {first : Lowered} (h : first.error? = none) (second : Lowered) :
    (first.andThen second).code = first.code ++ second.code := by
  simp [andThen, h]

@[simp] theorem andThen_done_nil (first : Lowered) : first.andThen (.done []) = first := by
  obtain ⟨code, error?⟩ := first
  cases error? <;> simp [andThen, done]

/-- Complete codes behind a part come one after the other. -/
theorem andThen_done_done (first : Lowered) (code more : List Instruction) :
    (first.andThen (.done code)).andThen (.done more) = first.andThen (.done (code ++ more)) := by
  obtain ⟨start, error?⟩ := first
  cases error? <;> simp [andThen, done]

end Lowered

variable {m : Type → Type} [Monad m] {V : Type}

/-! ## Code that leaves a value -/

namespace Machine

/-- Code that performs an action and leaves its value, whatever the stack holds, provided that
local 0 is the document. -/
def Leaves (machine : Machine m V) (document : V) (code : List Instruction) (value : m V) : Prop :=
  ∀ frame : Frame V, frame.locals 0 = some document →
    machine.run code frame = do
      let v ← value
      pure (frame.push v)

/-- Code that performs several actions in order and leaves all their values. -/
def LeavesAll (machine : Machine m V) (document : V) (code : List Instruction)
    (values : List (m V)) : Prop :=
  ∀ frame : Frame V, frame.locals 0 = some document →
    machine.run code frame = do
      let vs ← values.mapM id
      pure (frame.pushAll vs)

/-- Code that adds the values of several actions, one after the other, to the text on the stack. -/
def Appends (machine : Machine m V) (document : V) (code : List Instruction)
    (parts : List (m V)) : Prop :=
  ∀ (frame : Frame V) (text : V), frame.locals 0 = some document →
    machine.run code (frame.push text) = do
      let v ← parts.foldlM machine.appendPart text
      pure (frame.push v)

variable [LawfulMonad m] {machine : Machine m V} {document : V}

/-- What follows a sequence of actions may rely on one value for each of them. -/
theorem mapM_bind_congr {W : Type} {values : List (m V)} {f g : List V → m W}
    (h : ∀ vs, vs.length = values.length → f vs = g vs) :
    values.mapM id >>= f = values.mapM id >>= g := by
  induction values generalizing f g with
  | nil => simpa using h [] rfl
  | cons value values ih =>
    simp only [List.mapM_cons, id_eq, bind_assoc, pure_bind]
    refine bind_congr fun v => ih fun vs hvs => h (v :: vs) ?_
    simp [hvs]

theorem leaves_document : machine.Leaves document [.getLocal 0] (pure document) := by
  intro frame hframe
  simp [step, hframe]

theorem leaves_lookUp (name : Name) :
    machine.Leaves document [.getLex name] (machine.lookUp name) := by
  intro frame _
  simp [step]

theorem leaves_findOwner (name : Name) :
    machine.Leaves document [.findPropStrict name] (machine.findOwner name) := by
  intro frame _
  simp [step]

theorem leaves_constant (value : Literal) :
    machine.Leaves document [value.instruction] (pure (machine.constant value)) := by
  intro frame _
  rcases value with _ | ⟨_ | _⟩ | _ | _ | _ <;> simp [step, Literal.instruction]

/-- Code for an object and then a read leaves the property. -/
theorem Leaves.read {code : List Instruction} {object : m V}
    (h : machine.Leaves document code object)
    (name : String) :
    machine.Leaves document (code ++ [.getProperty (.inPublic name)])
      (do machine.read (← object) (.inPublic name)) := by
  intro frame hframe
  rw [run_append, h frame hframe]
  simp [step, Frame.push]

/-- Code for an object, code for the number of an element and then a read leaves the element. -/
theorem Leaves.readAt {objectCode indexCode : List Instruction} {object index : m V}
    (hobject : machine.Leaves document objectCode object)
    (hindex : machine.Leaves document indexCode index) :
    machine.Leaves document (objectCode ++ indexCode ++ [.getProperty .runtime])
      (do
        let o ← object
        let i ← index
        machine.readAt o i) := by
  intro frame hframe
  rw [List.append_assoc, run_append, hobject frame hframe, bind_assoc, bind_assoc]
  refine bind_congr fun o => ?_
  rw [pure_bind, run_append, hindex (frame.push o) hframe]
  simp [step, Frame.push]

/-- Code for two operands and then an operator leaves the result. -/
theorem Leaves.binary {leftCode rightCode : List Instruction} {left right : m V} (op : BinaryOp)
    (hleft : machine.Leaves document leftCode left)
    (hright : machine.Leaves document rightCode right) :
    machine.Leaves document (leftCode ++ rightCode ++ [op.instruction])
      (do
        let x ← left
        let y ← right
        machine.arithmetic op x y) := by
  intro frame hframe
  rw [List.append_assoc, run_append, hleft frame hframe, bind_assoc, bind_assoc]
  refine bind_congr fun x => ?_
  rw [pure_bind, run_append, hright (frame.push x) hframe]
  cases op <;> simp [step, step.binary, BinaryOp.instruction, Frame.push]

/-- Code for a receiver, code for the arguments and then a call leaves the result. The count in the
instruction is the number of arguments. -/
theorem Leaves.call {receiverCode argCode : List Instruction} {receiver : m V} {args : List (m V)}
    (name : String) (hreceiver : machine.Leaves document receiverCode receiver)
    (hargs : machine.LeavesAll document argCode args) :
    machine.Leaves document
      (receiverCode ++ argCode ++ [.callProperty (.inPublic name) args.length])
      (machine.callMeaning receiver name args) := by
  intro frame hframe
  rw [List.append_assoc, run_append, hreceiver frame hframe, callMeaning, bind_assoc, bind_assoc]
  refine bind_congr fun object => ?_
  rw [pure_bind, run_append, hargs (frame.push object) hframe, bind_assoc, bind_assoc]
  refine mapM_bind_congr fun vs hvs => ?_
  have htake : Frame.take? args.length (vs.reverse ++ object :: frame.stack) =
      some (vs, object :: frame.stack) := by
    rw [← hvs]
    exact Frame.take?_reverse_append vs (object :: frame.stack)
  simp [step, htake, Frame.push]

theorem leavesAll_nil : machine.LeavesAll document [] [] := by
  intro frame _
  simp

/-- Code for the first value and then for the others leaves all of them. -/
theorem Leaves.cons {code rest : List Instruction} {value : m V} {values : List (m V)}
    (hvalue : machine.Leaves document code value)
    (hvalues : machine.LeavesAll document rest values) :
    machine.LeavesAll document (code ++ rest) (value :: values) := by
  intro frame hframe
  rw [run_append, hvalue frame hframe, List.mapM_cons, bind_assoc, bind_assoc]
  refine bind_congr fun v => ?_
  rw [pure_bind, hvalues (frame.push v) hframe]
  simp [Frame.pushAll_cons]

theorem appends_nil : machine.Appends document [] [] := by
  intro frame text _
  simp

/-- Code for the first part and an addition, and then code for the other parts, adds all parts. -/
theorem Leaves.appendCons {code rest : List Instruction} {part : m V} {parts : List (m V)}
    (hpart : machine.Leaves document code part)
    (hparts : machine.Appends document rest parts) :
    machine.Appends document (code ++ [.add] ++ rest) (part :: parts) := by
  intro frame text hframe
  rw [List.append_assoc, run_append, hpart (frame.push text) hframe, List.foldlM_cons, appendPart,
    bind_assoc, bind_assoc, bind_assoc]
  refine bind_congr fun v => ?_
  have hadd : machine.step ((frame.push text).push v) .add =
      machine.arithmetic .plus text v >>= fun joined => pure (frame.push joined) := rfl
  rw [pure_bind, run_append, run_singleton, hadd, bind_assoc]
  refine bind_congr fun joined => ?_
  rw [pure_bind]
  exact hparts frame joined hframe

/-- The empty text and then code that adds parts to it leaves the whole text. -/
theorem Appends.leaves {code : List Instruction} {parts : List (m V)}
    (h : machine.Appends document code parts) :
    machine.Leaves document ([.pushString ""] ++ code) (machine.concatMeaning parts) := by
  intro frame hframe
  rw [run_append, run_singleton]
  simp only [step, pure_bind]
  exact h frame _ hframe

end Machine

/-! ## Names -/

section Names

variable [LawfulMonad m] {machine : Machine m V} {document : V} {resolver : Resolver}

/-- The code of a document member's holder leaves the document or the declaring class. -/
theorem Resolver.leaves_memberHolder (definition : Definition) :
    machine.Leaves document [resolver.memberHolder definition]
      (machine.holder resolver document definition) := by
  unfold Resolver.memberHolder Machine.holder
  split
  · exact Machine.leaves_lookUp _
  · exact Machine.leaves_document

/-- Where the code of a name is complete, the name has a meaning and the code leaves it. -/
theorem Resolver.leaves_lowerName {name : String} (h : (resolver.lowerName name).error? = none) :
    ∃ value, machine.nameMeaning? resolver document name = some value ∧
      machine.Leaves document (resolver.lowerName name).code value := by
  unfold Resolver.lowerName at h ⊢
  unfold Machine.nameMeaning?
  cases hmember : resolver.documentMember? name with
  | some definition =>
    exact ⟨_, rfl, (Resolver.leaves_memberHolder definition).read name⟩
  | none =>
    cases hglobal : resolver.global? name with
    | some definition =>
      by_cases hclass : definition.isClass = true
      · simp only [if_pos hclass]
        exact ⟨_, rfl, Machine.leaves_lookUp _⟩
      · simp only [if_neg hclass]
        exact ⟨_, rfl, Machine.leaves_lookUp _⟩
    | none => simp [hmember, hglobal, Lowered.failed] at h

/-- Where the code of a receiver is complete, it leaves the object in which the method is found. -/
theorem Resolver.leaves_lowerReceiver {name call : String}
    (h : (resolver.lowerReceiver name call).error? = none) :
    ∃ owner, machine.ownerMeaning? resolver document name = some owner ∧
      machine.Leaves document (resolver.lowerReceiver name call).code owner := by
  unfold Resolver.lowerReceiver at h ⊢
  unfold Machine.ownerMeaning?
  cases hmember : resolver.documentMember? name with
  | some definition => exact ⟨_, rfl, Resolver.leaves_memberHolder definition⟩
  | none =>
    cases hglobal : resolver.global? name with
    | some definition => exact ⟨_, rfl, Machine.leaves_findOwner _⟩
    | none => simp [hmember, hglobal, Lowered.failed] at h

end Names

/-! ## Expressions -/

namespace Expr

variable [LawfulMonad m] {machine : Machine m V} {document : V} {resolver : Resolver}

/-- A call leaves its result when the codes of its receiver and of its arguments leave theirs. -/
theorem leaves_lowerCall {receiver args : Lowered} {owner? : Option (m V)}
    {values? : Option (List (m V))} {name : String} {argCount : Nat}
    (hreceiver : receiver.error? = none → ∃ owner, owner? = some owner ∧
      machine.Leaves document receiver.code owner)
    (hargs : args.error? = none → ∃ values, values? = some values ∧ values.length = argCount ∧
      machine.LeavesAll document args.code values)
    (h : ((receiver.andThen args).andThen
      (.done [.callProperty (.inPublic name) argCount])).error? = none) :
    ∃ value, (do
        let owner ← owner?
        let values ← values?
        some (machine.callMeaning owner name values)) = some value ∧
      machine.Leaves document ((receiver.andThen args).andThen
        (.done [.callProperty (.inPublic name) argCount])).code value := by
  obtain ⟨hboth, -⟩ := Lowered.andThen_error?_eq_none_iff.mp h
  obtain ⟨hr, ha⟩ := Lowered.andThen_error?_eq_none_iff.mp hboth
  obtain ⟨owner, howner, hleaves⟩ := hreceiver hr
  obtain ⟨values, hvalues, hcount, hall⟩ := hargs ha
  refine ⟨machine.callMeaning owner name values, by simp [howner, hvalues], ?_⟩
  rw [Lowered.andThen_code hboth, Lowered.andThen_code hr, ← hcount]
  exact hleaves.call name hall

/-- An expression is the document itself or has another form. -/
theorem eq_self_or_not (e : Expr) : (∃ span, e = self span) ∨ ∀ span, e = self span → False := by
  cases e <;> simp

/-- The code of a member of anything but the document itself. -/
theorem lower_member {object : Expr} (hself : ∀ span, object = self span → False) (name : String)
    (span : Span) :
    (member object name span).lower resolver =
      (object.lower resolver).andThen (.done [.getProperty (.inPublic name)]) := by
  rw [lower]
  exact hself

/-- The code of a call of a method of anything but the document itself. -/
theorem lower_call_member {object : Expr} (hself : ∀ span, object = self span → False)
    (name : String) (span callSpan : Span) (args : List Expr) :
    (call (member object name span) args callSpan).lower resolver =
      ((object.lower resolver).andThen (lowerAll resolver args)).andThen
        (.done [.callProperty (.inPublic name) args.length]) := by
  rw [lower]
  exact hself

mutual

/-- Where the code of an expression is complete, the expression has a meaning and the code leaves
its value. -/
theorem leaves_lower : (e : Expr) → (e.lower resolver).error? = none →
    ∃ value, e.meaning? machine resolver document = some value ∧
      machine.Leaves document (e.lower resolver).code value
  | .self _, _ => by
    rw [lower, meaning?]
    exact ⟨_, rfl, Machine.leaves_document⟩
  | .identifier name _, h => by
    rw [lower] at h ⊢
    rw [meaning?]
    exact Resolver.leaves_lowerName h
  | .member object name _, h => by
    rcases object.eq_self_or_not with ⟨_, rfl⟩ | hself
    · rw [lower] at h ⊢
      rw [meaning?]
      exact Resolver.leaves_lowerName h
    · rw [lower_member hself] at h ⊢
      obtain ⟨ho, -⟩ := Lowered.andThen_error?_eq_none_iff.mp h
      obtain ⟨objectValue, hobject, hleaves⟩ := leaves_lower object ho
      rw [meaning?, hobject, Lowered.andThen_code ho]
      · exact ⟨_, rfl, hleaves.read name⟩
      · exact hself
  | .index object i _, h => by
    rw [lower] at h ⊢
    obtain ⟨hboth, -⟩ := Lowered.andThen_error?_eq_none_iff.mp h
    obtain ⟨ho, hi⟩ := Lowered.andThen_error?_eq_none_iff.mp hboth
    obtain ⟨objectValue, hobject, hobjectLeaves⟩ := leaves_lower object ho
    obtain ⟨indexValue, hindex, hindexLeaves⟩ := leaves_lower i hi
    rw [meaning?, hobject, hindex, Lowered.andThen_code hboth, Lowered.andThen_code ho]
    exact ⟨_, rfl, hobjectLeaves.readAt hindexLeaves⟩
  | .call (.identifier name _) args _, h => by
    rw [lower] at h ⊢
    rw [meaning?]
    exact leaves_lowerCall Resolver.leaves_lowerReceiver (leavesAll_lowerAll args) h
  | .call (.member object name _) args _, h => by
    rcases object.eq_self_or_not with ⟨_, rfl⟩ | hself
    · rw [lower] at h ⊢
      rw [meaning?]
      exact leaves_lowerCall Resolver.leaves_lowerReceiver (leavesAll_lowerAll args) h
    · rw [lower_call_member hself] at h ⊢
      rw [meaning?]
      · exact leaves_lowerCall (leaves_lower object) (leavesAll_lowerAll args) h
      · exact hself
  | .call (.self _) _ _, h | .call (.index ..) _ _, h | .call (.call ..) _ _, h
  | .call (.literal ..) _ _, h | .call (.binary ..) _ _, h | .call (.concat ..) _ _, h => by
    simp [lower, Lowered.failed] at h
  | .literal value _, _ => by
    rw [lower, meaning?]
    exact ⟨_, rfl, Machine.leaves_constant value⟩
  | .binary op left right _, h => by
    rw [lower] at h ⊢
    obtain ⟨hboth, -⟩ := Lowered.andThen_error?_eq_none_iff.mp h
    obtain ⟨hl, hr⟩ := Lowered.andThen_error?_eq_none_iff.mp hboth
    obtain ⟨leftValue, hleft, hleftLeaves⟩ := leaves_lower left hl
    obtain ⟨rightValue, hright, hrightLeaves⟩ := leaves_lower right hr
    rw [meaning?, hleft, hright, Lowered.andThen_code hboth, Lowered.andThen_code hl]
    exact ⟨_, rfl, hleftLeaves.binary op hrightLeaves⟩
  | .concat parts _, h => by
    rw [lower] at h ⊢
    obtain ⟨-, hp⟩ := Lowered.andThen_error?_eq_none_iff.mp h
    obtain ⟨values, hvalues, happends⟩ := appends_lowerParts parts hp
    rw [meaning?, hvalues]
    exact ⟨_, rfl, happends.leaves⟩

/-- The codes of several expressions one after the other leave all their values. -/
theorem leavesAll_lowerAll : (es : List Expr) → (lowerAll resolver es).error? = none →
    ∃ values, meanings? machine resolver document es = some values ∧
      values.length = es.length ∧ machine.LeavesAll document (lowerAll resolver es).code values
  | [], _ => by
    rw [lowerAll, meanings?]
    exact ⟨[], rfl, rfl, Machine.leavesAll_nil⟩
  | e :: es, h => by
    rw [lowerAll] at h ⊢
    obtain ⟨he, hes⟩ := Lowered.andThen_error?_eq_none_iff.mp h
    obtain ⟨value, hvalue, hleaves⟩ := leaves_lower e he
    obtain ⟨values, hvalues, hlength, hall⟩ := leavesAll_lowerAll es hes
    rw [meanings?, hvalue, hvalues, Lowered.andThen_code he]
    exact ⟨value :: values, rfl, by simp [hlength], hleaves.cons hall⟩

/-- The code of the parts of a text adds their values to the text on the stack. -/
theorem appends_lowerParts : (es : List Expr) → (lowerParts resolver es).error? = none →
    ∃ values, meanings? machine resolver document es = some values ∧
      machine.Appends document (lowerParts resolver es).code values
  | [], _ => by
    rw [lowerParts, meanings?]
    exact ⟨[], rfl, Machine.appends_nil⟩
  | e :: es, h => by
    rw [lowerParts] at h ⊢
    obtain ⟨hadd, hes⟩ := Lowered.andThen_error?_eq_none_iff.mp h
    obtain ⟨he, -⟩ := Lowered.andThen_error?_eq_none_iff.mp hadd
    obtain ⟨value, hvalue, hleaves⟩ := leaves_lower e he
    obtain ⟨values, hvalues, happends⟩ := appends_lowerParts es hes
    rw [meanings?, hvalue, hvalues, Lowered.andThen_code hadd, Lowered.andThen_code he]
    exact ⟨value :: values, rfl, hleaves.appendCons happends⟩

end

/-- **Lowering preserves meaning.** On every machine, an expression with complete code has a
meaning, and running the code with the document in local 0 performs the operations of the meaning
in their order, leaves the value on top of the stack and changes nothing else. -/
theorem run_lower_eq_meaning (machine : Machine m V) (resolver : Resolver) (e : Expr)
    (h : (e.lower resolver).error? = none) (document : V) :
    ∃ value, e.meaning? machine resolver document = some value ∧
      ∀ frame : Frame V, frame.locals 0 = some document →
        machine.run (e.lower resolver).code frame = value >>= fun v => pure (frame.push v) :=
  leaves_lower e h

end Expr

/-! ## A machine that keeps a journal -/

namespace Machine

/-- Writes an operation into the journal and leaves its text as the value. -/
def note (text : String) : StateM (List String) String := do
  modify (· ++ [text])
  pure text

/-- A machine whose values are texts, and whose only effect is a journal of its operations. -/
def journal : Machine (StateM (List String)) String where
  stuck := pure ⟨[], fun _ => none⟩
  constant := Literal.text
  lookUp name := note name.text
  findOwner name := note ("scope of " ++ name.text)
  enterScope v := do
    let _ ← note ("enter " ++ v)
    pure ()
  read object name := note (object ++ "." ++ name.text)
  readAt object index := note (object ++ "[" ++ index ++ "]")
  write object name v := do
    let _ ← note (object ++ "." ++ name.text ++ " := " ++ v)
    pure ()
  writeAt object index v := do
    let _ ← note (object ++ "[" ++ index ++ "] := " ++ v)
    pure ()
  call object name args :=
    note (object ++ "." ++ name.text ++ "(" ++ String.intercalate ", " args ++ ")")
  construct object name args :=
    note ("new " ++ object ++ "." ++ name.text ++ "(" ++ String.intercalate ", " args ++ ")")
  newArray items := note ("[" ++ String.intercalate ", " items ++ "]")
  newObject entries := note (String.intercalate ", " (entries.map fun (k, v) => k ++ ": " ++ v))
  newFunction method := note ("function " ++ toString method)
  toText v := note ("string of " ++ v)
  arithmetic op left right := note ("(" ++ left ++ " " ++ op.text ++ " " ++ right ++ ")")

end Machine

namespace Expr

/-- A document with a property, a method and a static counter, beside a global function. -/
def journalResolver : Resolver where
  documentClass := "app.Main"
  member? type name :=
    if type = "app.Main" then
      match name with
      | "user" => some { name, kind := .variable, type := some "Object" }
      | "label" => some { name, kind := .function, type := some "String" }
      | "total" =>
        some { name, kind := .variable, type := none, isStatic := true, owner := some "app.Base" }
      | _ => none
    else none
  global? name := if name = "trim" then some { name, kind := .function, type := none } else none
  class? _ := none

/-- The text `{this.label(user.name, trim(user[0]))}{total - 1}`. -/
def journalSource : Expr :=
  let user := identifier "user" .unknown
  let first := index user (literal (.int 0) .unknown) .unknown
  concat
    [call (member (self .unknown) "label" .unknown)
      [member user "name" .unknown, call (identifier "trim" .unknown) [first] .unknown] .unknown,
     binary .minus (identifier "total" .unknown) (literal (.int 1) .unknown) .unknown] .unknown

/-- A method call on the document, with a nested call of a global function and an element among its
arguments, followed by arithmetic on a static property: the journal lists the operations from left
to right and inside out. -/
theorem run_lower_eq_meaning_journal :
    (journalSource.lower journalResolver).error? = none ∧
      (Machine.journal.run (journalSource.lower journalResolver).code
        ⟨[], fun slot => if slot = 0 then some "this" else none⟩ |>.run []).2 =
        ["this.user", "this.user.name", "scope of trim", "this.user", "this.user[0]",
          "scope of trim.trim(this.user[0])",
          "this.label(this.user.name, scope of trim.trim(this.user[0]))",
          "('' + this.label(this.user.name, scope of trim.trim(this.user[0])))",
          "app::Base", "app::Base.total", "(app::Base.total - 1)",
          "(('' + this.label(this.user.name, scope of trim.trim(this.user[0]))) + " ++
            "(app::Base.total - 1))"] := by
  have hcomplete : (journalSource.lower journalResolver).error? = none := by decide
  refine ⟨hcomplete, ?_⟩
  obtain ⟨value, hvalue, hrun⟩ :=
    run_lower_eq_meaning Machine.journal journalResolver journalSource hcomplete "this"
  rw [hrun _ rfl]
  obtain rfl := Option.some.inj hvalue
  decide +kernel

end Expr

end Bindery
