import Bindery.Destination.Position
import Bindery.Proofs.Decimal.Numerals
import Bindery.Proofs.Destination.Chain
import Bindery.Proofs.Document.Growth
import Mathlib.Data.List.Range

/-!
# Generated ids

Documents grow node by node, and every instance or model without an id of its own gets a generated
one: the names of two classes and a number, with nothing between the last two. The numbers of two
nodes always differ. The ids may nevertheless be the same, as `_Main_Label11` is for the first node
if its class is `Label1` and for the eleventh if its class is `Label`. This file tells exactly when
that happens.
-/

namespace Bindery

/-! ## Names and numbers -/

namespace Text

/-- What stands behind the last `c` holds no further `c`. -/
theorem notMem_of_splitLast {c : Char} {text before after : List Char}
    (h : splitLast c text = some (before, after)) : c ∉ after := by
  induction text generalizing before with
  | nil => simp [splitLast] at h
  | cons x rest ih =>
    rw [splitLast] at h
    split at h
    · next b a hrest =>
      obtain ⟨-, rfl⟩ := Prod.mk.inj (Option.some.inj h)
      exact ih hrest
    · next hrest =>
      split at h
      · obtain ⟨-, rfl⟩ := Prod.mk.inj (Option.some.inj h)
        exact splitLast_eq_none_iff.mp hrest
      · simp at h

/-- A local name has no dot. -/
theorem notMem_localName (qualified : String) : '.' ∉ (localName qualified).toList := by
  unfold localName packageAndLocal?
  cases hsplit : splitLast '.' qualified.toList with
  | none => exact splitLast_eq_none_iff.mp hsplit
  | some parts => simpa using notMem_of_splitLast hsplit

/-- The last character of a text is a digit. -/
def EndsInDigit (text : String) : Prop := ∃ c ∈ text.toList.getLast?, c.isDigit

/-- A number is not smaller than what its last digits say. -/
theorem le_ofDigitChars_append (digits digits' : List Char) :
    Nat.ofDigitChars 10 digits' 0 ≤ Nat.ofDigitChars 10 (digits ++ digits') 0 := by
  have hmono (start start' : Nat) (hle : start ≤ start') :
      Nat.ofDigitChars 10 digits' start ≤ Nat.ofDigitChars 10 digits' start' := by
    induction digits' generalizing start start' with
    | nil => exact hle
    | cons c digits' ih =>
      rw [Nat.ofDigitChars_cons, Nat.ofDigitChars_cons]
      exact ih _ _ (by omega)
  rw [Nat.ofDigitChars_append]
  exact hmono _ _ (Nat.zero_le _)

/-- A text with a number behind it is another text with a greater number behind it exactly if the
first text ends with the digits by which the second number is longer. -/
theorem append_toDigits_eq_iff {text text' : List Char} {n m : Nat} (hlt : n < m) :
    text ++ Nat.toDigits 10 n = text' ++ Nat.toDigits 10 m ↔
      ∃ digits, digits ≠ [] ∧ text = text' ++ digits ∧
        digits ++ Nat.toDigits 10 n = Nat.toDigits 10 m := by
  constructor
  · intro heq
    rcases List.append_eq_append_iff.mp heq with ⟨more, -, hdigits⟩ | ⟨digits, rfl, hdigits⟩
    · have hle := le_ofDigitChars_append more (Nat.toDigits 10 m)
      rw [← hdigits, Nat.ofDigitChars_ten_toDigits, Nat.ofDigitChars_ten_toDigits] at hle
      omega
    · refine ⟨digits, ?_, rfl, hdigits.symm⟩
      rintro rfl
      have hnumber := congrArg (Nat.ofDigitChars 10 · 0) hdigits
      simp only [List.nil_append, Nat.ofDigitChars_ten_toDigits] at hnumber
      omega
  · rintro ⟨digits, -, rfl, hdigits⟩
    rw [List.append_assoc, hdigits]

end Text

namespace Document

/-- The characters of a generated id. -/
theorem toList_generatedId (documentClass className : String) (number : Nat) :
    (generatedId documentClass className number).toList =
      '_' :: ((Text.localName documentClass).toList ++
        '_' :: ((Text.localName className).toList ++ Nat.toDigits 10 number)) := by
  simp [generatedId, Nat.toString_eq_repr, Nat.repr]

/-- A generated id has no dot. -/
theorem notMem_generatedId (documentClass className : String) (number : Nat) :
    '.' ∉ (generatedId documentClass className number).toList := by
  rw [toList_generatedId]
  simp [Text.notMem_localName, Segment.notMem_toDigits]

/-- The name of a class, with a smaller number behind it, is read as the name of another class with
a greater number behind it: the first name ends with the digits by which the second number is
longer. -/
def Collides (className other : String) (n m : Nat) : Prop :=
  ∃ digits, digits ≠ [] ∧
    (Text.localName className).toList = (Text.localName other).toList ++ digits ∧
    digits ++ Nat.toDigits 10 n = Nat.toDigits 10 m

theorem generatedId_eq_iff {documentClass className other : String} {n m : Nat} (hlt : n < m) :
    generatedId documentClass className n = generatedId documentClass other m ↔
      Collides className other n m := by
  rw [← String.toList_inj, toList_generatedId, toList_generatedId, Collides,
    ← Text.append_toDigits_eq_iff hlt]
  simp

/-- Only the name of a class that ends with a digit can be misread. -/
theorem Collides.endsInDigit {className other : String} {n m : Nat}
    (h : Collides className other n m) : Text.EndsInDigit (Text.localName className) := by
  obtain ⟨digits, hne, hname, hdigits⟩ := h
  refine ⟨digits.getLast hne, ?_, ?_⟩
  · rw [hname, List.getLast?_append_of_ne_nil _ hne, List.getLast?_eq_getLast_of_ne_nil hne]
    rfl
  · have hmem : digits.getLast hne ∈ Nat.toDigits 10 m := by
      rw [← hdigits]
      exact List.mem_append_left _ (List.getLast_mem hne)
    exact Nat.isDigit_of_mem_toDigits (by decide) (by decide) hmem

/-! ## Growing documents -/

/-- The generated id of a node. -/
def generatedId? (doc : Document) (id : Nat) : Option String := (doc.node? id).bind (·.generatedId)

/-- The class name under which the id of a node is generated. -/
def unnamedClass? (doc : Document) (id : Nat) : Option String :=
  (doc.kind? id).bind NodeKind.unnamedClass?

/-- The number of the first `count` nodes that have a generated id. -/
def unnamedCount (doc : Document) (count : Nat) : Nat :=
  (List.range count).countP fun id => (doc.unnamedClass? id).isSome

/-- The number at the end of the generated id of a node: that of the generated ids so far. -/
def idNumber (doc : Document) (id : Nat) : Nat := doc.unnamedCount (id + 1)

section Add

variable (doc : Document) (parent : Nat) (kind : NodeKind) (span : Span)

theorem generatedId?_add (id : Nat) :
    (doc.add parent kind span).generatedId? id = if id = doc.size then
      (NodeKind.unnamedClass? kind).map (generatedId doc.className · (doc.generated + 1))
      else doc.generatedId? id := by
  rw [generatedId?, node?_add, generatedId?]
  split <;> simp [Option.bind_map]

/-- Nodes keep what they stand for. -/
theorem unnamedClass?_add {id : Nat} (hlt : id < doc.size) :
    (doc.add parent kind span).unnamedClass? id = doc.unnamedClass? id := by
  rw [unnamedClass?, kind?_add, if_neg (by omega), unnamedClass?]

theorem unnamedCount_add {count : Nat} (hle : count ≤ doc.size) :
    (doc.add parent kind span).unnamedCount count = doc.unnamedCount count := by
  refine List.countP_congr fun id hid => ?_
  have hlt : id < count := List.mem_range.mp hid
  rw [unnamedClass?_add doc parent kind span (by omega)]

end Add

/-- What growing keeps: the class of the document, the number of ids that have been generated, and
the form of each of them. -/
structure Numbered (doc : Document) (className : String) : Prop where
  size_pos : 0 < doc.size
  className_eq : doc.className = className
  generated_eq : doc.generated = doc.unnamedCount doc.size
  generatedId?_eq : ∀ id < doc.size, doc.generatedId? id =
    (doc.unnamedClass? id).map (generatedId className · (doc.idNumber id))

theorem numbered_ofClass (className : String) : (ofClass className).Numbered className where
  size_pos := by simp [ofClass, size]
  className_eq := rfl
  generated_eq := rfl
  generatedId?_eq id hid := by
    have hzero : id = 0 := by simpa [ofClass, size] using hid
    subst hzero
    rfl

theorem Numbered.add {doc : Document} {className : String} (h : doc.Numbered className)
    (parent : Nat) (kind : NodeKind) (span : Span) :
    (doc.add parent kind span).Numbered className := by
  have hclass : (doc.add parent kind span).unnamedClass? doc.size =
      NodeKind.unnamedClass? kind := by
    rw [unnamedClass?, kind?_add, if_pos rfl, Option.bind_some]
  have hcount : (doc.add parent kind span).unnamedCount (doc.size + 1) =
      doc.generated + if (NodeKind.unnamedClass? kind).isSome then 1 else 0 := by
    rw [unnamedCount, List.range_succ, List.countP_append, List.countP_singleton, hclass,
      h.generated_eq, ← unnamedCount_add doc parent kind span le_rfl, unnamedCount]
  refine {
    size_pos := by simp
    className_eq := (className_add doc parent kind span h.size_pos).trans h.className_eq
    generated_eq := by rw [generated_add, size_add, hcount]
    generatedId?_eq := fun id hid => ?_ }
  rw [size_add] at hid
  rw [generatedId?_add]
  by_cases hlast : id = doc.size
  · -- The new node gets the number after all earlier ones.
    subst hlast
    rw [if_pos rfl, hclass, h.className_eq, idNumber, hcount]
    cases NodeKind.unnamedClass? kind <;> simp
  · have hlt : id < doc.size := by omega
    rw [if_neg hlast, h.generatedId?_eq id hlt, unnamedClass?_add doc parent kind span hlt,
      idNumber, idNumber, unnamedCount_add doc parent kind span hlt]

theorem Built.numbered {className : String} {doc : Document} (h : doc.Built className) :
    doc.Numbered className := by
  induction h with
  | start => exact numbered_ofClass className
  | add parent kind span _ ih => exact ih.add parent kind span

/-- Of two nodes with generated ids, the later one has the greater number. -/
theorem idNumber_lt {doc : Document} {i j : Nat} {other : String} (hlt : i < j)
    (hj : doc.unnamedClass? j = some other) : doc.idNumber i < doc.idNumber j := by
  have hsublist : (List.range (i + 1)).Sublist (List.range j) := List.range_sublist.mpr hlt
  have hle : doc.unnamedCount (i + 1) ≤ doc.unnamedCount j := hsublist.countP_le
  have hlast : doc.unnamedCount (j + 1) = doc.unnamedCount j + 1 := by
    rw [unnamedCount, List.range_succ, List.countP_append, List.countP_singleton, hj, unnamedCount]
    simp
  rw [idNumber, idNumber, hlast]
  omega

theorem lt_size_of_unnamedClass? {doc : Document} {id : Nat} {className : String}
    (h : doc.unnamedClass? id = some className) : id < doc.size := by
  obtain ⟨kind, hkind, -⟩ := Option.bind_eq_some_iff.mp h
  exact lt_size_of_kind? hkind

/-! ## Destinations on unnamed instances -/

/-- An embedded expression gives the value of a property of a node. -/
def SetsProperty (doc : Document) (data node : Nat) (name : String) : Prop :=
  ∃ expr twoWay property, doc.kind? data = some (.data expr twoWay) ∧
    doc.parent? data = some property ∧ doc.kind? property = some (.property name) ∧
    doc.parent? property = some node

/-- The destination on an instance starts with its id. -/
theorem SetsProperty.placement_of_instance {doc : Document} {data node : Nat} {expr : Expr}
    {twoWay : Bool} {given : Option String} {name id className : String}
    (h : doc.SetsProperty data node name) (hdata : doc.kind? data = some (.data expr twoWay))
    (hkind : doc.kind? node = some (.instance given className)) (hid : doc.id? node = some id) :
    doc.placement data = (.resolved ⟨.document, [{ name := id }, { name := name }], expr.isConcat,
      doc.span data⟩, []) := by
  obtain ⟨-, -, property, -, hparent, hproperty, howner⟩ := h
  have hsegments : doc.propertySegments? property name =
      some [{ name := id }, { name := name }] := by
    simp [propertySegments?, howner, hkind, hid]
  simp [placement, hdata, hparent, hproperty, hsegments]

/-- The destination on an unnamed instance starts with its generated id. -/
theorem SetsProperty.placement_eq {doc : Document} {data node : Nat} {name id className : String}
    (h : doc.SetsProperty data node name)
    (hkind : doc.kind? node = some (.instance none className))
    (hid : doc.generatedId? node = some id) :
    ∃ destination, doc.placement data = (.resolved destination, []) ∧
      destination.text = id ++ "." ++ name := by
  have ⟨expr, twoWay, _, hdata, _⟩ := h
  obtain ⟨found, hnode, hfound⟩ := Option.map_eq_some_iff.mp hkind
  have hgenerated : found.generatedId = some id := by simpa [generatedId?, hnode] using hid
  have hid? : doc.id? node = some id := by simp [id?, hnode, hfound, hgenerated]
  refine ⟨_, h.placement_of_instance hdata hkind hid?, ?_⟩
  rw [← String.toList_inj]
  simp [Destination.text, Segment.text]

/-! ## Collisions -/

/-- **Generated ids differ unless a number is read into the name of a class.** Two nodes without
ids of their own have the same generated id exactly if the class name of the earlier one is that of
the later one with digits behind it, and these digits in front of the earlier number make up the
later number. So they differ whenever the class name of the earlier node does not end with a digit.
Expressions embedded in properties of two such instances have the same destination only if the ids,
and the properties, are the same. -/
theorem unnamed_share_id_iff {className : String} {doc : Document} (h : doc.Built className)
    {i j : Nat} (hlt : i < j) {first second : String} (hi : doc.unnamedClass? i = some first)
    (hj : doc.unnamedClass? j = some second) :
    ∃ id id', doc.generatedId? i = some id ∧ doc.generatedId? j = some id' ∧
      (id = id' ↔ Collides first second (doc.idNumber i) (doc.idNumber j)) ∧
      (¬Text.EndsInDigit (Text.localName first) → id ≠ id') ∧
      (doc.kind? i = some (.instance none first) → doc.kind? j = some (.instance none second) →
        ∀ data data' name name', doc.SetsProperty data i name → doc.SetsProperty data' j name' →
          ∃ destination destination', doc.placement data = (.resolved destination, []) ∧
            doc.placement data' = (.resolved destination', []) ∧
            (destination.text = destination'.text ↔ id = id' ∧ name = name')) := by
  have hnumbered := h.numbered
  have hid := hnumbered.generatedId?_eq i (lt_size_of_unnamedClass? hi)
  have hid' := hnumbered.generatedId?_eq j (lt_size_of_unnamedClass? hj)
  rw [hi, Option.map_some] at hid
  rw [hj, Option.map_some] at hid'
  have hiff : generatedId className first (doc.idNumber i) =
      generatedId className second (doc.idNumber j) ↔
        Collides first second (doc.idNumber i) (doc.idNumber j) :=
    generatedId_eq_iff (idNumber_lt hlt hj)
  refine ⟨_, _, hid, hid', hiff, ?_, ?_⟩
  · intro hdigit heq
    exact hdigit (hiff.mp heq).endsInDigit
  · intro hkind hkind' data data' name name' hdata hdata'
    obtain ⟨destination, hplacement, htext⟩ := hdata.placement_eq hkind hid
    obtain ⟨destination', hplacement', htext'⟩ := hdata'.placement_eq hkind' hid'
    refine ⟨destination, destination', hplacement, hplacement', ?_⟩
    -- The first dot of a destination stands right behind the id.
    have hplain := notMem_generatedId className first (doc.idNumber i)
    have hplain' := notMem_generatedId className second (doc.idNumber j)
    have hchars (id name : String) :
        (id ++ "." ++ name).toList = id.toList ++ '.' :: name.toList := by simp
    rw [htext, htext', ← String.toList_inj, hchars, hchars]
    constructor
    · intro heq
      obtain ⟨hids, hnames⟩ := Text.append_inj_of_run (p := (· != '.'))
        (fun c hc => bne_iff_ne.mpr fun hdot => hplain (hdot ▸ hc))
        (fun c hc => bne_iff_ne.mpr fun hdot => hplain' (hdot ▸ hc)) (by simp) (by simp) heq
      exact ⟨String.toList_inj.mp hids, String.toList_inj.mp (List.cons.inj hnames).2⟩
    · rintro ⟨hids, rfl⟩
      rw [hids]

/-- A document with ten instances without ids, the first of the class `Label1`. -/
def crowd : Document :=
  (List.replicate 9 "Box").foldl
    (fun doc className => doc.add 0 (.instance none className) .unknown)
    ((ofClass "Main").add 0 (.instance none "Label1") .unknown)

/-- The crowd with another instance, of the class `Label`. Its text and that of the first instance
are embedded expressions. -/
def crowdedDocument : Document :=
  crowd
    |>.add 0 (.instance none "Label") .unknown
    |>.add 1 (.property "text") .unknown
    |>.add 12 (.data (Expr.path "title") false) .unknown
    |>.add 11 (.property "text") .unknown
    |>.add 14 (.data (Expr.path "footer") false) .unknown

theorem built_crowdedDocument : crowdedDocument.Built "Main" := by
  have hcrowd : crowd.Built "Main" :=
    List.foldlRecOn _ _ (.add _ _ _ .start) fun _ hbuilt _ _ => .add _ _ _ hbuilt
  unfold crowdedDocument
  exact .add _ _ _ (.add _ _ _ (.add _ _ _ (.add _ _ _ (.add _ _ _ hcrowd))))

/-- The tenth box and the label behind it have different ids. -/
theorem unnamed_share_id_iff_crowded :
    crowdedDocument.Built "Main" ∧ crowdedDocument.unnamedClass? 10 = some "Box" ∧
      crowdedDocument.unnamedClass? 11 = some "Label" ∧
      ∃ id id', crowdedDocument.generatedId? 10 = some id ∧
        crowdedDocument.generatedId? 11 = some id' ∧ id ≠ id' := by
  have hfirst : crowdedDocument.unnamedClass? 10 = some "Box" := by decide
  have hsecond : crowdedDocument.unnamedClass? 11 = some "Label" := by decide
  obtain ⟨id, id', hid, hid', -, hne, -⟩ :=
    unnamed_share_id_iff built_crowdedDocument (by decide) hfirst hsecond
  refine ⟨built_crowdedDocument, hfirst, hsecond, id, id', hid, hid', hne ?_⟩
  rintro ⟨c, hc, hdigit⟩
  revert hdigit
  rw [← Option.some.inj hc]
  decide

/-- The first instance and the last one have the same id, and the two texts of their labels have the
same destination. -/
theorem unnamed_share_id :
    crowdedDocument.Built "Main" ∧ crowdedDocument.unnamedClass? 1 = some "Label1" ∧
      crowdedDocument.unnamedClass? 11 = some "Label" ∧
      crowdedDocument.generatedId? 1 = some "_Main_Label11" ∧
      crowdedDocument.generatedId? 11 = some "_Main_Label11" ∧
      ∃ destination destination',
        crowdedDocument.placement 13 = (.resolved destination, []) ∧
        crowdedDocument.placement 15 = (.resolved destination', []) ∧
        destination.segments = destination'.segments :=
  ⟨built_crowdedDocument, by decide, by decide, by decide, by decide, _, _, rfl, rfl, by decide⟩

end Document

end Bindery
