import Bindery.Constructor.Closure
import Bindery.Proofs.Expr.Reading
import Bindery.Proofs.Watch.Origins
import Bindery.Symbol.Table

/-!
# Merged calls

Calls at the same place of two chains share a watcher if their arguments are written alike, and the
closure that computes the arguments is generated from one of the calls. It computes the arguments of
all of them, as far as the text of an argument says what it is: texts with embedded expressions are
written like sums, and whole numbers like integers.
-/

namespace Bindery

/-! ## Arguments -/

/-- Two lists of arguments the texts of which say what they are. -/
structure Distinguishable (args args' : List Expr) : Prop where
  legible : ∀ part ∈ Expr.partsAll args, part.IsLegible
  legible' : ∀ part ∈ Expr.partsAll args', part.IsLegible
  /-- No integer in one is written like a number in the other. -/
  numbers : ∀ i x span span',
    .literal (.int i) span ∈ Expr.partsAll args ∧
        .literal (.number x) span' ∈ Expr.partsAll args' ∨
      .literal (.number x) span ∈ Expr.partsAll args ∧
        .literal (.int i) span' ∈ Expr.partsAll args' →
      (Literal.int i).text ≠ (Literal.number x).text

/-- Arguments that can be distinguished are comparable. -/
theorem Distinguishable.comparable {args args' : List Expr} (h : Distinguishable args args')
    {arg arg' : Expr} (harg : arg ∈ args) (harg' : arg' ∈ args') : Comparable arg arg' where
  legible part hpart := h.legible part (Expr.mem_partsAll.mpr ⟨arg, harg, hpart⟩)
  legible' part hpart := h.legible' part (Expr.mem_partsAll.mpr ⟨arg', harg', hpart⟩)
  numbers value span hmem value' span' hmem' hnumber hnumber' htext := by
    have hparts : .literal value span ∈ Expr.partsAll args :=
      Expr.mem_partsAll.mpr ⟨arg, harg, hmem⟩
    have hparts' : .literal value' span' ∈ Expr.partsAll args' :=
      Expr.mem_partsAll.mpr ⟨arg', harg', hmem'⟩
    cases value with
    | null | bool | string => simp [Literal.isNumber] at hnumber
    | int i =>
      cases value' with
      | null | bool | string => simp [Literal.isNumber] at hnumber'
      | int j => rw [Int32.toInt_inj.mp (Decimal.int_eq_of_text_eq htext)]
      | number y => exact absurd htext (h.numbers i y span span' (.inl ⟨hparts, hparts'⟩))
    | number x =>
      cases value' with
      | null | bool | string => simp [Literal.isNumber] at hnumber'
      | int j => exact absurd htext.symm (h.numbers j x span span' (.inr ⟨hparts, hparts'⟩))
      | number y =>
        obtain ⟨negative, significand, exponent, hx⟩ := h.legible _ hparts
        obtain ⟨negative', significand', exponent', hy⟩ := h.legible' _ hparts'
        rw [Decimal.eq_of_text_eq hx hy htext]

/-- The code of arguments that are written alike is the same. -/
theorem Distinguishable.lowerAll_eq {args args' : List Expr} (h : Distinguishable args args')
    (htext : String.intercalate ", " (Expr.argTexts args) =
      String.intercalate ", " (Expr.argTexts args')) (resolver : Resolver) :
    args.length = args'.length ∧ Expr.lowerAll resolver args = Expr.lowerAll resolver args' := by
  have hbare := Expr.bareAll_eq_of_argTexts_eq (fun arg harg arg' harg' => h.comparable harg harg')
    (fun arg harg part hpart => h.legible part (Expr.mem_partsAll.mpr ⟨arg, harg, hpart⟩))
    (fun arg harg part hpart => h.legible' part (Expr.mem_partsAll.mpr ⟨arg, harg, hpart⟩)) htext
  constructor
  · rw [← Expr.length_bareAll args, hbare, Expr.length_bareAll]
  · rw [← Expr.lowerAll_bareAll resolver args, hbare, Expr.lowerAll_bareAll]

/-! ## Closures -/

/-- The code in the closure of several arguments is the code of these arguments, if that is
complete. -/
theorem Closure.toOption_argumentCode (resolver : Resolver) (args : List Expr) :
    (argumentCode resolver args).toOption =
      if (Expr.lowerAll resolver args).error? = none then some (Expr.lowerAll resolver args).code
      else none := by
  induction args with
  | nil => rfl
  | cons arg args ih =>
    rw [argumentCode, Expr.lowerAll]
    cases herror : (arg.lower resolver).error? with
    | some error => simp [Lowered.andThen, herror, Except.toOption]
    | none =>
      cases hrest : (Expr.lowerAll resolver args).error? with
      | some error =>
        cases hargs : argumentCode resolver args <;>
          simp_all [Lowered.andThen, Except.toOption, Except.map]
      | none =>
        cases hargs : argumentCode resolver args <;>
          simp_all [Lowered.andThen, Except.toOption, Except.map]

/-- The closure of several arguments depends on nothing but their number and code. -/
theorem Closure.toOption_parameters_eq {resolver : Resolver} {args args' : List Expr}
    (hlength : args.length = args'.length)
    (hcode : Expr.lowerAll resolver args = Expr.lowerAll resolver args') (called : String) :
    (parameters resolver called args).toOption = (parameters resolver called args').toOption := by
  have hargs := toOption_argumentCode resolver args
  rw [hcode, ← toOption_argumentCode resolver args'] at hargs
  unfold parameters
  cases h : argumentCode resolver args <;> cases h' : argumentCode resolver args' <;>
    simp_all [Except.toOption, Except.map]

/-! ## Watchers -/

namespace Resolver

variable {resolver : Resolver} {args : List Expr} {path : WatchPath}

/-- What a method of the document returns is observed under a key with the texts of the
arguments. -/
theorem getLast?_of_mem_ownResult {definition : Definition}
    (h : path ∈ (ownResult definition args).chain?) :
    ∃ called events, path.getLast? = some (.ofCall called args events) := by
  unfold ownResult at h
  split at h
  · obtain rfl := Option.some.inj h
    exact ⟨_, _, rfl⟩
  · simp [Subject.chain?] at h

/-- What a method of a value returns is observed under such a key if the value is observed. -/
theorem getLast?_of_mem_behind {above : Option WatchPath} {called : String}
    {events : List String} {type : Option String}
    (h : path ∈ (Subject.behind above (.ofCall called args events) type).chain?) :
    ∃ called events, path.getLast? = some (.ofCall called args events) := by
  obtain ⟨chain, -, rfl⟩ := Option.mem_map.mp h
  exact ⟨called, events, List.getLast?_concat⟩

theorem getLast?_of_mem_nameResult {name : String}
    (h : path ∈ (resolver.nameResult name args).chain?) :
    ∃ called events, path.getLast? = some (.ofCall called args events) := by
  unfold nameResult at h
  split at h
  · exact getLast?_of_mem_ownResult h
  · simp [Subject.chain?] at h
  · simp [Subject.chain?] at h

theorem getLast?_of_mem_memberResult {name : String} {receiver : Subject}
    (h : path ∈ (resolver.memberResult name args receiver).chain?) :
    ∃ called events, path.getLast? = some (.ofCall called args events) := by
  cases receiver with
  | unresolved => simp [memberResult, Subject.chain?] at h
  | document =>
    simp only [memberResult] at h
    split at h
    · exact getLast?_of_mem_ownResult h
    · simp [Subject.chain?] at h
  | classObject qualified =>
    simp only [memberResult] at h
    split at h <;> simp [Subject.chain?] at h
  | value above type =>
    simp only [memberResult] at h
    split at h
    · exact getLast?_of_mem_behind h
    · split at h
      · split at h
        · simp [Subject.chain?] at h
        · exact getLast?_of_mem_behind h
      · simp [Subject.chain?] at h

end Resolver

/-- The result of a call is observed under a key with the texts of the arguments. -/
theorem Expr.getLast?_of_mem_chain_call {resolver : Resolver} {callee : Expr} {args : List Expr}
    {span : Span} {path : WatchPath}
    (h : path ∈ ((call callee args span).subject resolver).chain?) :
    ∃ called events, path.getLast? = some (.ofCall called args events) := by
  cases callee with
  | identifier name => exact Resolver.getLast?_of_mem_nameResult h
  | member object name => exact Resolver.getLast?_of_mem_memberResult h
  | _ => simp [subject, Subject.chain?] at h

/-- The arguments of calls that are observed at one path are written alike. -/
theorem Expr.ObservesCall.argTexts_eq {resolver : Resolver} {e e' : Expr} {args args' : List Expr}
    {path : WatchPath} (h : e.ObservesCall resolver args path)
    (h' : e'.ObservesCall resolver args' path) :
    String.intercalate ", " (argTexts args) = String.intercalate ", " (argTexts args') := by
  obtain ⟨callee, span, -, hpath⟩ := h
  obtain ⟨callee', span', -, hpath'⟩ := h'
  obtain ⟨called, events, hlast⟩ := getLast?_of_mem_chain_call hpath
  obtain ⟨called', events', hlast'⟩ := getLast?_of_mem_chain_call hpath'
  have hkey := congrArg WatchKey.qualifier (Option.some.inj (hlast.symm.trans hlast'))
  have hlist := congrArg String.toList hkey
  simp only [WatchKey.ofCall, String.toList_append, List.append_assoc] at hlist
  rw [argTexts_eq_map, argTexts_eq_map]
  exact String.ext (List.append_cancel_right (List.append_cancel_left hlist))

namespace Database

/-- A watcher represents a call in the source of a binding if it is where the result of the call is
observed. -/
def Represents (resolver : Resolver) (bindings : List Binding) (watcher : Watcher)
    (args : List Expr) : Prop :=
  ∃ path, (ofBindings resolver bindings).1.AtPath watcher path ∧
    ∃ binding ∈ bindings, ∃ source ∈ binding.source, source.ObservesCall resolver args path

/-- **Merged calls have the same arguments.** The watcher of a function result keeps the arguments
of one of the calls that it represents. Calls that it represents and that can be distinguished have
the same code for their arguments, and so the same closure. -/
theorem lowerAll_eq_of_represents {resolver : Resolver} {bindings : List Binding}
    {watcher : Watcher} (hmem : watcher ∈ (ofBindings resolver bindings).1.watchers)
    (hform : watcher.watched.kind.form = .function) :
    (∃ kept, watcher.watched.kind = .function kept ∧
        Represents resolver bindings watcher kept) ∧
      ∀ args args', Represents resolver bindings watcher args →
        Represents resolver bindings watcher args' → Distinguishable args args' →
        Expr.lowerAll resolver args = Expr.lowerAll resolver args' ∧
          ∀ called, (Closure.parameters resolver called args).toOption =
            (Closure.parameters resolver called args').toOption := by
  obtain ⟨path, hlocated⟩ := mem_watchers_iff.mp hmem
  have hpath := atPath_ofBindings_iff.mpr hlocated
  constructor
  · cases hkind : watcher.watched.kind with
    | function kept => exact ⟨kept, rfl, path, hpath, exists_call_of_atPath hpath hkind⟩
    | _ => simp [hkind, WatchedKind.form] at hform
  · rintro args args' ⟨path, hat, binding, -, source, -, hcall⟩
      ⟨path', hat', binding', -, source', -, hcall'⟩ hdistinguishable
    -- A watcher has one place in the forest, so both calls have the last key of one path.
    obtain rfl := path_eq_of_slot_eq hat hat' rfl
    obtain ⟨hlength, hcode⟩ := hdistinguishable.lowerAll_eq (hcall.argTexts_eq hcall') resolver
    exact ⟨hcode, Closure.toOption_parameters_eq hlength hcode⟩

/-- The table of a document with two numbers and a function that announces changes. -/
def mergingTable : SymbolTable :=
  (SymbolTable.ofDocument "Main")
    |>.declareOwnMember { name := "a", kind := .variable, type := some "int" }
    |>.declareOwnMember { name := "b", kind := .variable, type := some "int" }
    |>.declareOwnMember
      { name := "f", kind := .function, type := some "String", events := ["fChange"] }

/-- A call of the function. -/
def callOf (arg : Expr) : Expr := .call (Expr.path "f") [arg] .unknown

/-- The bindings of two calls. -/
def callBindings (arg arg' : Expr) : List Binding :=
  [arg, arg'].foldl
    (fun bindings arg =>
      Binding.record mergingTable.resolver (some (callOf arg)) none .unknown bindings)
    []

/-- What a call returns is observed under the text of its argument. -/
theorem observesCall_callOf (arg : Expr) :
    (callOf arg).ObservesCall mergingTable.resolver [arg] [.ofCall "f" [arg] ["fChange"]] :=
  ⟨Expr.path "f", .unknown, Expr.mem_parts_self _, rfl⟩

/-- Calls of the function with two arguments that are written alike are represented by one
watcher. -/
theorem exists_represents_callBindings (arg arg' : Expr) (htext : arg.text = arg'.text) :
    ∃ watcher ∈ (ofBindings mergingTable.resolver (callBindings arg arg')).1.watchers,
      watcher.watched.kind.form = .function ∧
        Represents mergingTable.resolver (callBindings arg arg') watcher [arg] ∧
        Represents mergingTable.resolver (callBindings arg arg') watcher [arg'] := by
  have hrecorded : Recorded (callBindings arg arg') := .record _ _ _ _ (.record _ _ _ _ .nil)
  have hkey : WatchKey.ofCall "f" [arg'] ["fChange"] = .ofCall "f" [arg] ["fChange"] := by
    simp [WatchKey.ofCall, htext]
  have hcall := observesCall_callOf arg
  have hcall' := observesCall_callOf arg'
  rw [hkey] at hcall'
  obtain ⟨first, second, hbindings, hfirst, hsecond⟩ : ∃ first second,
      callBindings arg arg' = [first, second] ∧ first.source = some (callOf arg) ∧
        second.source = some (callOf arg') := ⟨_, _, rfl, rfl, rfl⟩
  have hchain : [.ofCall "f" [arg] ["fChange"]] ∈ first.chains mergingTable.resolver := by
    rw [Binding.chains, hfirst]
    exact List.mem_append_right _ List.mem_cons_self
  obtain ⟨watcher, hat⟩ : ∃ watcher,
      (ofBindings mergingTable.resolver (callBindings arg arg')).1.AtPath watcher
        [.ofCall "f" [arg] ["fChange"]] :=
    (exists_atPath_iff hrecorded _).mpr
      ⟨List.cons_ne_nil _ _, first, by simp [hbindings], _, hchain, List.prefix_refl _⟩
  have hlast := (isTrie_ofBindings hrecorded).getLast?_path hat
  have hform := congrArg WatchKey.form (Option.some.inj hlast)
  exact ⟨watcher, hat.mem_watchers, hform.symm,
    ⟨_, hat, first, by simp [hbindings], _, hfirst, hcall⟩,
    ⟨_, hat, second, by simp [hbindings], _, hsecond, hcall'⟩⟩

/-- The calls `f(a + 1)` and `f(this.a + 1)` have the same code for their argument. -/
theorem lowerAll_eq_of_represents_sum :
    let sum (name : String) : Expr :=
      .binary .plus (Expr.path name) (.literal (.int 1) .unknown) .unknown
    let bindings := callBindings (sum "a") (sum "this.a")
    ∃ watcher ∈ (ofBindings mergingTable.resolver bindings).1.watchers,
      watcher.watched.kind.form = .function ∧
        Represents mergingTable.resolver bindings watcher [sum "a"] ∧
        Represents mergingTable.resolver bindings watcher [sum "this.a"] ∧
        Distinguishable [sum "a"] [sum "this.a"] ∧
        (∃ kept, watcher.watched.kind = .function kept ∧
          Represents mergingTable.resolver bindings watcher kept) ∧
        Expr.lowerAll mergingTable.resolver [sum "a"] =
          Expr.lowerAll mergingTable.resolver [sum "this.a"] := by
  intro sum bindings
  obtain ⟨watcher, hmem, hform, hcall, hcall'⟩ :=
    exists_represents_callBindings (sum "a") (sum "this.a") rfl
  have hname : IsName "a" :=
    ⟨⟨List.all_eq_true.mp (by decide), 'a', by decide, by decide⟩, by decide⟩
  have hdistinguishable : Distinguishable [sum "a"] [sum "this.a"] := by
    have hparts : Expr.partsAll [sum "a"] =
        [sum "a", .identifier "a" .unknown, .literal (.int 1) .unknown] := rfl
    have hparts' : Expr.partsAll [sum "this.a"] = [sum "this.a",
        .member (.self .unknown) "a" .unknown, .self .unknown, .literal (.int 1) .unknown] := rfl
    refine ⟨?_, ?_, ?_⟩
    · simp [hparts, Expr.IsLegible, hname, Literal.IsFinite, sum]
    · simp [hparts', Expr.IsLegible, hname, Literal.IsFinite, sum]
    · simp [hparts, hparts', sum]
  obtain ⟨hkept, hsame⟩ := lowerAll_eq_of_represents hmem hform
  exact ⟨watcher, hmem, hform, hcall, hcall', hdistinguishable, hkept,
    (hsame _ _ hcall hcall' hdistinguishable).1⟩

/-- The sum of two numbers and the text made of both are merged, though they have different code. -/
theorem merged_sum_and_text :
    let sum : Expr := .binary .plus (Expr.path "a") (Expr.path "b") .unknown
    let text : Expr := .concat [Expr.path "a", Expr.path "b"] .unknown
    let bindings := callBindings sum text
    ∃ watcher ∈ (ofBindings mergingTable.resolver bindings).1.watchers,
      watcher.watched.kind.form = .function ∧
        Represents mergingTable.resolver bindings watcher [sum] ∧
        Represents mergingTable.resolver bindings watcher [text] ∧
        Expr.lowerAll mergingTable.resolver [sum] ≠ Expr.lowerAll mergingTable.resolver [text] := by
  intro sum text bindings
  obtain ⟨watcher, hmem, hform, hcall, hcall'⟩ :=
    exists_represents_callBindings sum text rfl
  exact ⟨watcher, hmem, hform, hcall, hcall', by decide +kernel⟩

end Database

end Bindery
