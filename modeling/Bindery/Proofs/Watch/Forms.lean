import Bindery.Proofs.Watch.Roots
import Bindery.Proofs.Watch.Types

/-!
# The forms of watchers

Which form a watcher can have depends on where it stands. Only the first step of a chain reads a
static property, only a later one reads a part of an XML value, and behind such a part there is
nothing but further parts and calls. This holds whatever names resolve to.
-/

namespace Bindery

/-! ## Keys in chains -/

/-- Whether a key can stand behind others. -/
structure WatchKey.Fits (above : WatchPath) (key : WatchKey) : Prop where
  /-- A part of an XML value is read from something, and nothing announces its changes. -/
  of_xml : key.form = .xml → above ≠ [] ∧ key.events = []
  /-- A static property starts a chain. -/
  of_static : key.form = .staticProperty → above = []
  /-- Behind a part of an XML value there are its parts and the results of calls. -/
  behind_xml : ∀ last ∈ above.getLast?, last.form = .xml → key.form = .xml ∨ key.form = .function

namespace Resolver

variable {resolver : Resolver} {key : WatchKey} {type type' : Option String}

/-- No chain starts with a part of an XML value. -/
theorem Opens.fits (h : resolver.Opens key type) : key.form ≠ .xml ∧ key.Fits [] := by
  cases h <;> exact ⟨nofun, nofun, fun _ => rfl, nofun⟩

/-- What is behind a part of an XML value is behind a list of them. -/
theorem Continues.fits (h : resolver.Continues type key type') {path : WatchPath}
    (hne : path ≠ []) (hxml : ∀ last ∈ path.getLast?, last.form = .xml → type = some "XMLList") :
    key.Fits path ∧ (key.form = .xml → type' = some "XMLList") := by
  have hlist {last : WatchKey} (hlast : last ∈ path.getLast?) (hform : last.form = .xml) :
      TypeName.isXml type = true := by
    rw [hxml last hlast hform]
    rfl
  cases h with
  | xml name => exact ⟨⟨fun _ => ⟨hne, rfl⟩, nofun, fun _ _ _ => .inl rfl⟩, fun _ => rfl⟩
  | dynamic name hnot | member hnot =>
    refine ⟨⟨nofun, nofun, fun last hlast hform => ?_⟩, nofun⟩
    simp [hlist hlast hform] at hnot
  | dynamicCall | call => exact ⟨⟨nofun, nofun, fun _ _ _ => .inr rfl⟩, nofun⟩

end Resolver

/-- Whether the last key of a value's chain fits those before it; if that reads a part of an XML
value, the value is a list of such parts. -/
def Subject.Fitting : Subject → Prop
  | value (some path) type => ∃ above key, path = above ++ [key] ∧ key.Fits above ∧
    (key.form = .xml → type = some "XMLList")
  | _ => True

theorem Subject.fitting_of_chain?_eq_none {subject : Subject} (h : subject.chain? = none) :
    subject.Fitting := by
  cases subject with
  | value chain type =>
    obtain rfl : chain = none := h
    trivial
  | _ => trivial

/-- What is found in a value whose chain is in order has a chain in order. -/
theorem Resolver.Finds.fitting {resolver : Resolver} {receiver subject : Subject}
    (hreceiver : receiver.Fitting) (h : resolver.Finds receiver subject) : subject.Fitting := by
  cases h with
  | unobserved hnone => exact Subject.fitting_of_chain?_eq_none hnone
  | start hopens =>
    obtain ⟨hform, hfits⟩ := hopens.fits
    exact ⟨[], _, rfl, hfits, fun hxml => absurd hxml hform⟩
  | @behind path _ type _ hcontinues =>
    cases path with
    | none => trivial
    | some path =>
      obtain ⟨above, last, rfl, -, hxml⟩ := hreceiver
      have hne : above ++ [last] ≠ [] := by simp
      obtain ⟨hfits, hlist⟩ := hcontinues.fits hne (by simpa)
      exact ⟨_, _, rfl, hfits, hlist⟩

/-- The last key of a chain fits those before it. -/
theorem Expr.exists_fits_of_mem_chains {resolver : Resolver} {path : WatchPath} (e : Expr)
    (h : path ∈ e.chains resolver) : ∃ above key, path = above ++ [key] ∧ key.Fits above := by
  obtain ⟨part, hpath⟩ := e.exists_subject_of_mem_chains h
  have hfitting : (part.subject resolver).Fitting :=
    Expr.subject_induction (fun _ => Subject.fitting_of_chain?_eq_none)
      (fun _ _ hreceiver hfinds => hfinds.fitting hreceiver) part
  cases hsubject : part.subject resolver with
  | value chain type =>
    rw [hsubject] at hpath hfitting
    obtain rfl : chain = some path := hpath
    obtain ⟨above, key, rfl, hfits, -⟩ := hfitting
    exact ⟨above, key, rfl, hfits⟩
  | _ => simp [hsubject, Subject.chain?] at hpath

/-! ## Watchers -/

namespace Database

variable {resolver : Resolver} {bindings : List Binding} {watcher : Watcher}

/-- The key of a watcher fits the path of the watcher from which it hangs. -/
theorem exists_fits_of_mem_watchers
    (hmem : watcher ∈ (ofBindings resolver bindings).1.watchers) :
    (watcher.parent = none ∧ watcher.watched.key.Fits []) ∨
      ∃ parent path, (ofBindings resolver bindings).1.AtPath parent path ∧
        watcher.parent = some parent.slot ∧ watcher.watched.key.Fits path := by
  have hlast (path : WatchPath) {above : WatchPath} {key : WatchKey}
      (heq : path ++ [watcher.watched.key] = above ++ [key]) (hfits : key.Fits above) :
      watcher.watched.key.Fits path := by
    obtain ⟨rfl, hkeys⟩ := List.append_inj' heq rfl
    obtain rfl := (List.cons.inj hkeys).1
    exact hfits
  obtain ⟨path, hlocated⟩ := mem_watchers_iff.mp hmem
  have hpath := atPath_ofBindings_iff.mpr hlocated
  obtain ⟨source, hchain⟩ := hpath.exists_chain
  obtain ⟨above, key, heq, hfits⟩ := source.exists_fits_of_mem_chains hchain
  cases hpath with
  | root _ hnone => exact .inl ⟨hnone, hlast [] heq hfits⟩
  | child hparent _ hslot => exact .inr ⟨_, _, hparent, hslot, hlast _ heq hfits⟩

/-- A part of an XML value hangs from another watcher, and no event announces it. -/
theorem parent_ne_none_of_xml (hmem : watcher ∈ (ofBindings resolver bindings).1.watchers)
    (hform : watcher.watched.kind.form = .xml) :
    watcher.parent ≠ none ∧ watcher.watched.events = [] := by
  rcases exists_fits_of_mem_watchers hmem with ⟨-, hfits⟩ | ⟨parent, path, -, hslot, hfits⟩
  · exact absurd rfl (hfits.of_xml hform).1
  · exact ⟨by simp [hslot], (hfits.of_xml hform).2⟩

/-- A static property starts a chain. -/
theorem parent_eq_none_of_static (hmem : watcher ∈ (ofBindings resolver bindings).1.watchers)
    (hform : watcher.watched.kind.form = .staticProperty) : watcher.parent = none := by
  rcases exists_fits_of_mem_watchers hmem with ⟨hnone, -⟩ | ⟨parent, path, hpath, -, hfits⟩
  · exact hnone
  · have hlast := hpath.getLast?_eq
    simp [hfits.of_static hform] at hlast

/-- What hangs from a part of an XML value is such a part or a function. -/
theorem form_of_parent_xml {parent child : Watcher}
    (hparent : parent ∈ (ofBindings resolver bindings).1.watchers)
    (hchild : child ∈ (ofBindings resolver bindings).1.watchers)
    (hslot : child.parent = some parent.slot) (hform : parent.watched.kind.form = .xml) :
    child.watched.kind.form = .xml ∨ child.watched.kind.form = .function := by
  rcases exists_fits_of_mem_watchers hchild with ⟨hnone, -⟩ | ⟨other, path, hpath, hslot', hfits⟩
  · simp [hnone] at hslot
  · have heq : parent.slot = other.slot := Option.some.inj (hslot.symm.trans hslot')
    obtain rfl := List.inj_on_of_nodup_map (nodup_slots_ofBindings resolver bindings) hparent
      hpath.mem_watchers heq
    exact hfits.behind_xml _ hpath.getLast?_eq hform

/-- The root of a watcher that hangs from another one is no leaf. -/
theorem RootOf.children_ne_nil {db : Database} (hslots : (db.watchers.map Watcher.slot).Nodup)
    {root : Watcher} (h : db.RootOf watcher root) (hparent : watcher.parent ≠ none) :
    root.children ≠ [] := by
  induction h with
  | root _ hnone => exact absurd hnone hparent
  | @child watcher parent root hmem hslot hroot ih =>
    cases habove : parent.parent with
    | some slot => exact ih (by simp [habove])
    | none =>
      obtain rfl := hroot.eq_of_parent_eq_none habove
      exact List.ne_nil_of_mem ((WatchChain.mem_children_iff hslots hroot.mem_watchers).mpr
        ⟨watcher, hmem, rfl, hslot⟩)

/-- Whatever hangs from another watcher is constructed. -/
theorem mem_builtWatchers_of_parent
    (hmem : watcher ∈ (ofBindings resolver bindings).1.watchers) (hparent : watcher.parent ≠ none) :
    watcher ∈ (ofBindings resolver bindings).1.builtWatchers := by
  have hslots := nodup_slots_ofBindings resolver bindings
  obtain ⟨root, hroot⟩ := exists_rootOf hmem
  refine (mem_builtWatchers_iff hslots).mpr ⟨hmem, root, hroot, ?_⟩
  have hchildren := hroot.children_ne_nil hslots hparent
  simp [Watcher.isUnobservable, Watched.isUnobservable, hchildren]

end Database

end Bindery
