import Bindery.Code.Listing
import Bindery.Proofs.Destination.ElementNumbers

/-!
# Listings tell code apart

Each instruction has a line of its own, string constants cannot end their line or their quotation
marks, and the lines of a method are indented between two lines that are not. So code can be read
back from its listing, as long as the parts of names can be told apart from what stands around
them. Numbers that are no integers are left out: their listing does not tell all their values apart.
-/

namespace Bindery

/-! ## Words that are read back -/

namespace Text

/-- Two texts end with the same run of characters if what stands before the runs is not of its
sort. -/
theorem append_inj_of_run_right {p : Char → Bool} {run run' rest rest' : List Char}
    (hrun : ∀ c ∈ run, p c) (hrun' : ∀ c ∈ run', p c) (hrest : ∀ c ∈ rest.getLast?, p c = false)
    (hrest' : ∀ c ∈ rest'.getLast?, p c = false) (h : rest ++ run = rest' ++ run') :
    rest = rest' ∧ run = run' := by
  have hreverse := congrArg List.reverse h
  rw [List.reverse_append, List.reverse_append] at hreverse
  obtain ⟨hruns, hrests⟩ := append_inj_of_run (p := p) (by simpa using hrun) (by simpa using hrun')
    (by simpa using hrest) (by simpa using hrest') hreverse
  exact ⟨List.reverse_injective hrests, List.reverse_injective hruns⟩

/-- Words are read back from what they are joined to if none can be continued to another one, and
none to what follows the last one. -/
theorem flatMap_append_inj {α β : Type} {f : α → List β} {xs ys : List α} {rest rest' : List β}
    (hword : ∀ x ∈ xs, ∀ y ∈ ys, ∀ s s', f x ++ s = f y ++ s' → x = y)
    (hrest : ∀ x ∈ xs, ∀ s, f x ++ s ≠ rest') (hrest' : ∀ y ∈ ys, ∀ s, f y ++ s ≠ rest)
    (h : xs.flatMap f ++ rest = ys.flatMap f ++ rest') : xs = ys ∧ rest = rest' := by
  induction xs generalizing ys with
  | nil =>
    cases ys with
    | nil => exact ⟨rfl, h⟩
    | cons y ys =>
      rw [List.flatMap_cons, List.append_assoc] at h
      exact absurd h.symm (hrest' y List.mem_cons_self _)
  | cons x xs ih =>
    rw [List.flatMap_cons, List.append_assoc] at h
    cases ys with
    | nil => exact absurd h (hrest x List.mem_cons_self _)
    | cons y ys =>
      rw [List.flatMap_cons, List.append_assoc] at h
      obtain rfl := hword x List.mem_cons_self y List.mem_cons_self _ _ h
      obtain ⟨rfl, hrests⟩ := ih
        (fun x hx y hy => hword x (List.mem_cons_of_mem _ hx) y (List.mem_cons_of_mem _ hy))
        (fun x hx => hrest x (List.mem_cons_of_mem _ hx))
        (fun y hy => hrest' y (List.mem_cons_of_mem _ hy)) (List.append_cancel_left h)
      exact ⟨rfl, hrests⟩

/-- Words that are not empty are read back if none can be continued to another one. -/
theorem flatMap_inj {α β : Type} {f : α → List β} {xs ys : List α}
    (hword : ∀ x ∈ xs, ∀ y ∈ ys, ∀ s s', f x ++ s = f y ++ s' → x = y) (hne : ∀ x, f x ≠ [])
    (h : xs.flatMap f = ys.flatMap f) : xs = ys := by
  have hjoined : xs.flatMap f ++ [] = ys.flatMap f ++ [] := by simpa using h
  exact (flatMap_append_inj hword (by simp [hne]) (by simp [hne]) hjoined).1

/-- Lines are read back from the text to which they are joined. -/
theorem eq_of_joinLines_eq {lines others : List String}
    (h : ∀ line ∈ lines, '\n' ∉ line.toList) (h' : ∀ line ∈ others, '\n' ∉ line.toList)
    (heq : joinLines lines = joinLines others) : lines = others := by
  have htoList (lines : List String) :
      (joinLines lines).toList = lines.flatMap fun line => line.toList ++ ['\n'] := by
    simp [joinLines, String.toList_join, List.flatMap, Function.comp_def]
  have hrun {line : String} (hline : '\n' ∉ line.toList) : ∀ c ∈ line.toList, c != '\n' := by
    intro c hc
    simpa using ne_of_mem_of_not_mem hc hline
  refine flatMap_inj (f := fun line : String => line.toList ++ ['\n']) ?_ (by simp) ?_
  · intro line hline other hother s s' heq
    rw [List.append_assoc, List.append_assoc] at heq
    exact String.ext_iff.mpr (append_inj_of_run (hrun (h line hline)) (hrun (h' other hother))
      (by simp) (by simp) heq).1
  · rw [← htoList, ← htoList, heq]

end Text

/-- A string constant can be read back from its listing. -/
theorem listedString_inj {value other : String} (h : listedString value = listedString other) :
    value = other := by
  have hword (c d : Char) (s s' : List Char) (heq : listedChar c ++ s = listedChar d ++ s') :
      c = d := by
    unfold listedChar at heq
    split at heq <;> split at heq <;> grind
  have hne (c : Char) : listedChar c ≠ [] := by
    unfold listedChar
    split <;> simp
  have hlist := congrArg String.toList h
  simp only [listedString, Text.quoteWith, String.toList_append, Text.toList_escapeWith,
    List.append_cancel_left_eq, List.append_cancel_right_eq] at hlist
  exact String.ext_iff.mpr (Text.flatMap_inj (fun c _ d _ => hword c d) hne hlist)

/-- A listed string constant does not end its line. -/
theorem notMem_listedString (value : String) : '\n' ∉ (listedString value).toList := by
  have hchar (c : Char) : '\n' ∉ listedChar c := by
    unfold listedChar
    split <;> simp_all [eq_comm]
  simp [listedString, Text.quoteWith, hchar]

/-! ## Names -/

/-- Whether a text can be told apart from what stands around it in a listed name. -/
def Text.IsNamePart (text : String) : Prop :=
  ' ' ∉ text.toList ∧ '\n' ∉ text.toList ∧ ':' ∉ text.toList ∧ '[' ∉ text.toList

namespace Name

/-- Whether a name can be read back from its listing. -/
def IsLegible : Name → Prop
  | inPublic name => Text.IsNamePart name
  | inPackage package name => Text.IsNamePart package ∧ Text.IsNamePart name
  | runtime => True

variable {name other : Name}

/-- A listed name neither ends its line nor is divided by a blank. -/
theorem IsLegible.notMem_text (h : name.IsLegible) :
    ' ' ∉ name.text.toList ∧ '\n' ∉ name.text.toList := by
  cases name with
  | inPublic name => exact ⟨h.1, h.2.1⟩
  | inPackage package name =>
    obtain ⟨⟨hblank, hline, -⟩, hblank', hline', -⟩ := h
    simp [text, hblank, hline, hblank', hline']
  | runtime => decide

/-- Only a name in a package has a colon. -/
theorem toList_text_inPackage (package name : String) :
    (inPackage package name).text.toList = package.toList ++ ':' :: (':' :: name.toList) := by
  simp [text]

/-- Names that are listed alike are the same. -/
theorem IsLegible.eq_of_text_eq (h : name.IsLegible) (h' : other.IsLegible)
    (heq : name.text = other.text) : name = other := by
  -- a colon tells names in packages from the others, a bracket those that are computed
  have hcolon : ':' ∈ name.text.toList ↔ ':' ∈ other.text.toList := by rw [heq]
  have hbracket : '[' ∈ name.text.toList ↔ '[' ∈ other.text.toList := by rw [heq]
  cases name with
  | inPublic name =>
    have hpart : ':' ∉ name.toList ∧ '[' ∉ name.toList := h.2.2
    cases other with
    | inPublic other => exact congrArg inPublic heq
    | inPackage package other => simp [text, hpart] at hcolon
    | runtime => simp [text, hpart] at hbracket
  | inPackage package name =>
    cases other with
    | inPublic other =>
      have hpart : ':' ∉ other.toList := h'.2.2.1
      simp [text, hpart] at hcolon
    | inPackage package' other =>
      have hpart : ':' ∉ package.toList := h.1.2.2.1
      have hpart' : ':' ∉ package'.toList := h'.1.2.2.1
      have hlist := congrArg String.toList heq
      rw [toList_text_inPackage, toList_text_inPackage] at hlist
      obtain ⟨hpackage, hname⟩ := Text.append_inj_of_run (p := (· != ':'))
        (fun c hc => by simpa using ne_of_mem_of_not_mem hc hpart)
        (fun c hc => by simpa using ne_of_mem_of_not_mem hc hpart') (by simp) (by simp) hlist
      obtain rfl := String.ext_iff.mpr hpackage
      simpa [String.toList_inj] using hname
    | runtime => simp [text] at hcolon
  | runtime =>
    cases other with
    | inPublic other =>
      have hpart : '[' ∉ other.toList := h'.2.2.2
      simp [text, hpart] at hbracket
    | inPackage package other => simp [text] at hcolon
    | runtime => rfl

end Name

/-! ## Instructions -/

/-- Natural numbers that are written alike are the same. -/
theorem Decimal.nat_eq_of_text_eq {n m : Nat} (h : toString n = toString m) : n = m := by
  have hdigits := congrArg String.toList h
  simp only [Nat.toString_eq_repr, Nat.repr, String.toList_ofList] at hdigits
  rw [← Nat.ofDigitChars_ten_toDigits (n := n), hdigits, Nat.ofDigitChars_ten_toDigits]

namespace Instruction

/-- Whether an instruction can be read back from its listing. -/
def IsLegible : Instruction → Prop
  | pushDouble _ => False
  | getProperty name | setProperty name | getLex name | findPropStrict name => name.IsLegible
  | callProperty name _ | callPropVoid name _ | constructProp name _ => name.IsLegible
  | _ => True

variable {instruction other : Instruction}

/-- Whether a character can stand in a mnemonic: neither a digit nor a blank. -/
def isMnemonicChar (c : Char) : Bool := !c.isDigit && !c.isWhitespace

theorem isMnemonicChar_of_mem (instruction : Instruction) :
    ∀ c ∈ instruction.mnemonic.toList, isMnemonicChar c := by
  rw [← List.all_eq_true]
  cases instruction <;> (simp only [mnemonic]; decide)

/-- Operands start with a blank or a digit. -/
theorem isMnemonicChar_head_operands (instruction : Instruction) :
    ∀ c ∈ instruction.operands.toList.head?, isMnemonicChar c = false := by
  have hslot (slot : Nat) : ∀ c ∈ (toString slot).toList.head?, isMnemonicChar c = false := by
    intro c hc
    have hmem := List.mem_of_mem_head? hc
    simp only [Nat.toString_eq_repr, Nat.repr, String.toList_ofList] at hmem
    have hdigit := Nat.isDigit_of_mem_toDigits (by decide) (by decide) hmem
    simp [isMnemonicChar, hdigit]
  have hblank : isMnemonicChar ' ' = false := by decide
  cases instruction with
  | getLocal slot | setLocal slot => exact hslot slot
  | _ => simp [operands, hblank]

/-- The operands of a legible instruction do not end its line. -/
theorem IsLegible.notMem_operands (h : instruction.IsLegible) :
    '\n' ∉ instruction.operands.toList := by
  have hdigits (n : Nat) : '\n' ∉ Nat.toDigits 10 n := Segment.notMem_toDigits (by decide) n
  cases instruction with
  | pushString value => simp [operands, notMem_listedString]
  | pushInt value =>
    simpa [operands] using Segment.notMem_toString_int (by decide) (by decide) value.toInt
  | pushDouble value => exact h.elim
  | getProperty name | setProperty name | getLex name | findPropStrict name =>
    simp [operands, Name.IsLegible.notMem_text h]
  | callProperty name argCount | callPropVoid name argCount | constructProp name argCount =>
    simp [operands, Name.IsLegible.notMem_text h, hdigits]
  | _ => simp [operands, hdigits]

/-- A listed instruction does not end its line. -/
theorem IsLegible.notMem_text (h : instruction.IsLegible) : '\n' ∉ instruction.text.toList := by
  have hmnemonic : '\n' ∉ instruction.mnemonic.toList := fun hmem =>
    absurd (isMnemonicChar_of_mem instruction _ hmem) (by decide)
  simp [text, hmnemonic, h.notMem_operands]

/-- Calls with the same operands are of the same name with the same number of arguments. -/
theorem call_inj {name name' : Name} {argCount argCount' : Nat} (h : name.IsLegible)
    (h' : name'.IsLegible)
    (heq : " " ++ name.text ++ " " ++ toString argCount =
      " " ++ name'.text ++ " " ++ toString argCount') : name = name' ∧ argCount = argCount' := by
  have hlist := congrArg String.toList heq
  simp only [String.toList_append, List.append_assoc, List.append_cancel_left_eq] at hlist
  obtain ⟨hname, hcount⟩ := Text.append_inj_of_run (p := (· != ' '))
    (fun c hc => by simpa using ne_of_mem_of_not_mem hc h.notMem_text.1)
    (fun c hc => by simpa using ne_of_mem_of_not_mem hc h'.notMem_text.1) (by simp) (by simp) hlist
  exact ⟨h.eq_of_text_eq h' (String.ext_iff.mpr hname),
    Decimal.nat_eq_of_text_eq (String.ext_iff.mpr (List.append_cancel_left hcount))⟩

/-- An instruction is determined by its mnemonic and its listed operands. -/
theorem IsLegible.eq_of_mnemonic_eq (h : instruction.IsLegible) (h' : other.IsLegible)
    (hmnemonic : instruction.mnemonic = other.mnemonic)
    (hoperands : instruction.operands = other.operands) : instruction = other := by
  have hname {name name' : Name} (h : name.IsLegible) (h' : name'.IsLegible)
      (heq : " " ++ name.text = " " ++ name'.text) : name = name' :=
    h.eq_of_text_eq h' (String.append_right_inj _ |>.mp heq)
  cases instruction <;> cases other <;> simp only [mnemonic, String.reduceEq] at hmnemonic
  case pushString.pushString =>
    rw [listedString_inj ((String.append_right_inj _).mp hoperands)]
  case pushInt.pushInt =>
    rw [Int32.toInt_inj.mp (Decimal.int_eq_of_text_eq ((String.append_right_inj _).mp hoperands))]
  case pushDouble.pushDouble => exact h.elim
  case getLocal.getLocal | setLocal.setLocal =>
    rw [Decimal.nat_eq_of_text_eq hoperands]
  case newArray.newArray | newObject.newObject | newFunction.newFunction =>
    rw [Decimal.nat_eq_of_text_eq ((String.append_right_inj _).mp hoperands)]
  case callProperty.callProperty | callPropVoid.callPropVoid | constructProp.constructProp =>
    obtain ⟨rfl, rfl⟩ := call_inj h h' hoperands
    rfl
  case getProperty.getProperty | setProperty.setProperty | getLex.getLex |
      findPropStrict.findPropStrict =>
    rw [hname h h' hoperands]
  all_goals rfl

/-- Instructions that are listed alike are the same. -/
theorem IsLegible.eq_of_text_eq (h : instruction.IsLegible) (h' : other.IsLegible)
    (heq : instruction.text = other.text) : instruction = other := by
  have hlist := congrArg String.toList heq
  rw [text, text, String.toList_append, String.toList_append] at hlist
  obtain ⟨hmnemonic, hoperands⟩ := Text.append_inj_of_run
    (isMnemonicChar_of_mem instruction) (isMnemonicChar_of_mem other)
    (isMnemonicChar_head_operands instruction) (isMnemonicChar_head_operands other) hlist
  exact h.eq_of_mnemonic_eq h' (String.ext_iff.mpr hmnemonic) (String.ext_iff.mpr hoperands)

end Instruction

/-! ## Methods -/

namespace Method

/-- Whether a method can be read back from its listing. -/
def IsLegible (method : Method) : Prop :=
  '\n' ∉ method.name.toList ∧ ∀ instruction ∈ method.code, instruction.IsLegible

/-- The first line of a method's listing. -/
def header (handle : MethodHandle) (method : Method) : String :=
  "method #" ++ toString handle ++ " " ++ method.name ++
    "(" ++ toString method.paramCount ++ " params) \x7b"

variable {method other : Method} {handle handle' : MethodHandle}

/-- The lines of a method are those of its code between two that are not indented. -/
theorem lines_eq (handle : MethodHandle) (method : Method) :
    method.lines handle = method.header handle ::
      (method.code.flatMap (fun instruction => ["  " ++ instruction.text]) ++ ["\x7d"]) := by
  rw [← List.map_eq_flatMap]
  rfl

theorem toList_header (handle : MethodHandle) (method : Method) :
    (method.header handle).toList = "method #".toList ++ (Nat.toDigits 10 handle ++
      ' ' :: ((method.name.toList ++ ['(']) ++
        (Nat.toDigits 10 method.paramCount ++ " params) \x7b".toList))) := by
  simp [header, Nat.toString_eq_repr, Nat.repr]

/-- The first line of a listing shows all of a method but its code. -/
theorem header_inj (h : method.header handle = other.header handle') :
    handle = handle' ∧ method.name = other.name ∧ method.paramCount = other.paramCount := by
  have toDigits_inj {n m : Nat} (h : Nat.toDigits 10 n = Nat.toDigits 10 m) : n = m := by
    rw [← Nat.ofDigitChars_ten_toDigits (n := n), h, Nat.ofDigitChars_ten_toDigits]
  have hlist := congrArg String.toList h
  rw [toList_header, toList_header] at hlist
  -- the number of the method ends before the first blank
  have hdigits (n : Nat) : ∀ c ∈ Nat.toDigits 10 n, c != ' ' := fun c hc => by
    simpa using ne_of_mem_of_not_mem hc (Segment.notMem_toDigits (by decide) n)
  obtain ⟨hhandle, hrest⟩ := Text.append_inj_of_run (hdigits handle) (hdigits handle') (by simp)
    (by simp) (List.append_cancel_left hlist)
  -- the number of parameters starts behind the last parenthesis, wherever the name has others
  have hword : ∀ c ∈ " params) \x7b".toList, c != '(' := by simp
  have hcount (n : Nat) : ∀ c ∈ Nat.toDigits 10 n ++ " params) \x7b".toList, c != '(' := by
    intro c hc
    rcases List.mem_append.mp hc with hc | hc
    · simpa using ne_of_mem_of_not_mem hc (Segment.notMem_toDigits (by decide) n)
    · exact hword c hc
  obtain ⟨hname, hcounts⟩ := Text.append_inj_of_run_right (hcount method.paramCount)
    (hcount other.paramCount) (by simp) (by simp) (List.cons.inj hrest).2
  exact ⟨toDigits_inj hhandle, String.ext_iff.mpr (List.append_cancel_right hname),
    toDigits_inj (List.append_cancel_right hcounts)⟩

/-- A method can be read back from its lines, whatever follows them. -/
theorem IsLegible.eq_of_lines_append_eq (h : method.IsLegible) (h' : other.IsLegible)
    {rest rest' : List String} (heq : method.lines handle ++ rest = other.lines handle' ++ rest') :
    method = other ∧ handle = handle' := by
  simp only [lines_eq, List.cons_append, List.append_assoc, List.cons.injEq] at heq
  obtain ⟨hheader, hlines⟩ := heq
  obtain ⟨hhandle, hname, hcount⟩ := header_inj hheader
  have hbody (instruction : Instruction) (s s' : List String) :
      ["  " ++ instruction.text] ++ s ≠ "\x7d" :: s' := by
    intro heq
    have hhead := congrArg (String.toList · |>.head?) (List.cons.inj heq).1
    simp at hhead
  have hcode : method.code = other.code := by
    refine (Text.flatMap_append_inj (fun instruction hmem instruction' hmem' s s' heq => ?_)
      (fun instruction _ s => hbody instruction s _) (fun instruction _ s => hbody instruction s _)
      hlines).1
    exact (h.2 _ hmem).eq_of_text_eq (h'.2 _ hmem')
      ((String.append_right_inj _).mp (List.cons.inj heq).1)
  cases method
  cases other
  simp_all

/-- None of the lines of a method is broken. -/
theorem IsLegible.notMem_of_mem_lines (h : method.IsLegible) :
    ∀ line ∈ method.lines handle, '\n' ∉ line.toList := by
  intro line hline
  rw [lines_eq, List.mem_cons, List.mem_append, List.mem_flatMap] at hline
  rcases hline with rfl | ⟨instruction, hinstruction, hline⟩ | hline
  · rw [toList_header]
    simp [h.1, Segment.notMem_toDigits]
  · obtain rfl := List.mem_singleton.mp hline
    simp [(h.2 _ hinstruction).notMem_text]
  · obtain rfl := List.mem_singleton.mp hline
    decide

end Method

/-! ## Code and tables of methods -/

theorem eq_of_listCode_eq {code other : List Instruction}
    (h : ∀ instruction ∈ code, instruction.IsLegible)
    (h' : ∀ instruction ∈ other, instruction.IsLegible) (heq : listCode code = listCode other) :
    code = other := by
  have hlines {code : List Instruction} (h : ∀ instruction ∈ code, instruction.IsLegible) :
      ∀ line ∈ code.map Instruction.text, '\n' ∉ line.toList := by
    intro line hline
    obtain ⟨instruction, hinstruction, rfl⟩ := List.mem_map.mp hline
    exact (h _ hinstruction).notMem_text
  have htexts := Text.eq_of_joinLines_eq (hlines h) (hlines h') heq
  rw [List.map_eq_flatMap, List.map_eq_flatMap] at htexts
  refine Text.flatMap_inj (fun instruction hmem instruction' hmem' s s' heq => ?_) (by simp) htexts
  exact (h _ hmem).eq_of_text_eq (h' _ hmem') (List.cons.inj heq).1

/-- Whether all methods of a table can be read back from its listing. -/
def MethodTable.IsLegible (table : MethodTable) : Prop :=
  ∀ method ∈ table.methods.toList, method.IsLegible

theorem MethodTable.IsLegible.eq_of_listing_eq {table other : MethodTable} (h : table.IsLegible)
    (h' : other.IsLegible) (heq : table.listing = other.listing) : table = other := by
  have hmethod {table : MethodTable} (h : table.IsLegible) {method : Method}
      {handle : MethodHandle} (hmem : (method, handle) ∈ table.methods.toList.zipIdx) :
      method.IsLegible :=
    h _ (List.fst_mem_of_mem_zipIdx hmem)
  have hlines {table : MethodTable} (h : table.IsLegible) :
      ∀ line ∈ table.methods.toList.zipIdx.flatMap fun entry => entry.1.lines entry.2,
        '\n' ∉ line.toList := by
    intro line hline
    obtain ⟨entry, hmem, hline⟩ := List.mem_flatMap.mp hline
    exact (hmethod h hmem).notMem_of_mem_lines line hline
  have hlisted := Text.eq_of_joinLines_eq (hlines h) (hlines h') heq
  have hnumbered : table.methods.toList.zipIdx = other.methods.toList.zipIdx := by
    refine Text.flatMap_inj ?_ (by simp [Method.lines_eq]) hlisted
    rintro ⟨method, handle⟩ hmem ⟨method', handle'⟩ hmem' s s' heq
    obtain ⟨rfl, rfl⟩ := (hmethod h hmem).eq_of_lines_append_eq (hmethod h' hmem') heq
    rfl
  have hmethods : table.methods.toList = other.methods.toList := by
    simpa using congrArg (List.map Prod.fst) hnumbered
  cases table
  cases other
  simpa using hmethods

/-- **Listings tell code apart.** Without numbers that are no integers, and with names whose parts
have no blank, line break, colon or bracket: code that is listed alike is the same, and so are
tables of methods that are listed alike, as long as no name of a method has a line break. String
constants may hold whatever they like. -/
theorem listing_eq_listing_iff :
    (∀ code other : List Instruction, (∀ instruction ∈ code, instruction.IsLegible) →
      (∀ instruction ∈ other, instruction.IsLegible) →
        (listCode code = listCode other ↔ code = other)) ∧
      ∀ table other : MethodTable, table.IsLegible → other.IsLegible →
        (table.listing = other.listing ↔ table = other) := by
  constructor
  · intro code other h h'
    exact ⟨eq_of_listCode_eq h h', congrArg listCode⟩
  · intro table other h h'
    exact ⟨h.eq_of_listing_eq h', congrArg MethodTable.listing⟩

/-- A method with a string constant that looks like the listing of an instruction and the end of a
method. -/
def misleadingMethod : Method where
  name := "trace(0"
  paramCount := 1
  code := [.getLex (.inPackage "mx.binding" "Binding"), .pushString "a\"\n  returnvoid\n\x7d",
    .getLocal 1, .callProperty .runtime 1, .returnVoid]

/-- A method like the one that the constant imitates. -/
def imitatedMethod : Method where
  name := "trace"
  paramCount := 1
  code := [.getLex (.inPackage "mx.binding" "Binding"), .pushString "a", .returnVoid]

/-- Neither the two methods nor their code are mistaken for each other. -/
theorem listing_misleadingMethod_ne :
    (∀ instruction ∈ misleadingMethod.code, instruction.IsLegible) ∧
      (∀ instruction ∈ imitatedMethod.code, instruction.IsLegible) ∧
      listCode misleadingMethod.code ≠ listCode imitatedMethod.code ∧
      MethodTable.IsLegible { methods := #[misleadingMethod] } ∧
      MethodTable.IsLegible { methods := #[imitatedMethod] } ∧
      MethodTable.listing { methods := #[misleadingMethod] } ≠
        MethodTable.listing { methods := #[imitatedMethod] } := by
  have hmisleading : ∀ instruction ∈ misleadingMethod.code, instruction.IsLegible := by
    simp [misleadingMethod, Instruction.IsLegible, Name.IsLegible, Text.IsNamePart]
  have himitated : ∀ instruction ∈ imitatedMethod.code, instruction.IsLegible := by
    simp [imitatedMethod, Instruction.IsLegible, Name.IsLegible, Text.IsNamePart]
  have htable : MethodTable.IsLegible { methods := #[misleadingMethod] } := by
    simpa [MethodTable.IsLegible, Method.IsLegible] using ⟨by decide, hmisleading⟩
  have htable' : MethodTable.IsLegible { methods := #[imitatedMethod] } := by
    simpa [MethodTable.IsLegible, Method.IsLegible] using ⟨by decide, himitated⟩
  refine ⟨hmisleading, himitated, fun h => ?_, htable, htable', fun h => ?_⟩
  · have heq := (listing_eq_listing_iff.1 _ _ hmisleading himitated).mp h
    simp [misleadingMethod, imitatedMethod] at heq
  · have heq := (listing_eq_listing_iff.2 _ _ htable htable').mp h
    simp [misleadingMethod, imitatedMethod] at heq

end Bindery
