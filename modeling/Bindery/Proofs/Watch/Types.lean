import Bindery.Proofs.Symbol.Declarations
import Bindery.Proofs.Watch.Trie
import Mathlib.Data.List.Induction

/-!
# Types along chains

The key of a watcher contains its events, so that two watchers of one property would be kept apart
if they had different events. In a declared symbol table this never happens: the form, the name and
the qualifier of each step of a chain determine the type of the value that it observes, and with it
the events of the next step.
-/

namespace Bindery

/-! ## Steps of chains -/

/-- What a watcher observes, by its form, its name and its qualifier. -/
structure WatchPlace where
  form : WatchForm
  name : String
  qualifier : String
deriving Repr, DecidableEq

/-- A key without its events. -/
def WatchKey.place (key : WatchKey) : WatchPlace := ⟨key.form, key.name, key.qualifier⟩

namespace WatchKey

@[simp] theorem place_ofProperty (name : String) (events : List String) :
    (ofProperty name events).place = ⟨.property, name, ""⟩ := rfl

@[simp] theorem place_ofStatic (owner name : String) (events : List String) :
    (ofStatic owner name events).place = ⟨.staticProperty, name, owner⟩ := rfl

@[simp] theorem place_ofCall (name : String) (args : List Expr) (events : List String) :
    (ofCall name args events).place =
      ⟨.function, name, "(" ++ String.intercalate ", " (args.map Expr.text) ++ ")"⟩ := rfl

@[simp] theorem place_ofXml (name : String) : (ofXml name).place = ⟨.xml, name, ""⟩ := rfl

/-- Keys at the same place differ in their events only. -/
theorem eq_of_place_eq {key key' : WatchKey} (hplace : key.place = key'.place)
    (hevents : key.events = key'.events) : key = key' := by
  obtain ⟨form, name, qualifier, events⟩ := key
  obtain ⟨form', name', qualifier', events'⟩ := key'
  simp only [place, WatchPlace.mk.injEq] at hplace
  obtain ⟨rfl, rfl, rfl⟩ := hplace
  obtain rfl : events = events' := hevents
  rfl

end WatchKey

namespace Resolver

variable (resolver : Resolver)

/-- The first key of a chain, and the type of the value that the chain observes. -/
inductive Starts : WatchKey → Option String → Prop
  | own {name : String} {definition : Definition} :
    resolver.documentMember? name = some definition →
    Starts (.ofProperty definition.name definition.events) definition.type
  | static {type name : String} {definition : Definition} :
    resolver.member? type name = some definition →
    Starts (.ofStatic (definition.owner.getD type) definition.name definition.events)
      definition.type
  | ownCall {name : String} {definition : Definition} (args : List Expr) :
    resolver.documentMember? name = some definition →
    Starts (.ofCall definition.name args definition.events) definition.type

/-- A chain, and the type of the value that it observes. -/
inductive Leads : WatchPath → Option String → Prop
  | start {key : WatchKey} {type : Option String} : resolver.Starts key type → Leads [key] type
  | next {path : WatchPath} {key : WatchKey} {type type' : Option String} : Leads path type →
    resolver.Continues type key type' → Leads (path ++ [key]) type'

variable {resolver}

theorem Leads.ne_nil {path : WatchPath} {type : Option String} (h : resolver.Leads path type) :
    path ≠ [] := by
  cases h <;> simp

/-! ## Events and types are determined -/

/-- What is observed first determines its events and its type. -/
theorem Starts.unique (hresolver : resolver.Identifies) {key key' : WatchKey}
    {type type' : Option String} (h : resolver.Starts key type) (h' : resolver.Starts key' type')
    (hplace : key.place = key'.place) : key = key' ∧ type = type' := by
  have hown {name name' : String} {definition definition' : Definition}
      (hmember : resolver.documentMember? name = some definition)
      (hmember' : resolver.documentMember? name' = some definition')
      (hname : definition.name = definition'.name) : definition = definition' := by
    rw [hresolver.name_eq hmember, hresolver.name_eq hmember'] at hname
    subst hname
    exact Option.some.inj (hmember.symm.trans hmember')
  cases h with
  | own hmember =>
    cases h' with
    | own hmember' =>
      obtain rfl := hown hmember hmember' (by simpa using hplace)
      exact ⟨rfl, rfl⟩
    | static | ownCall => simp at hplace
  | ownCall args hmember =>
    cases h' with
    | ownCall args' hmember' =>
      obtain rfl := hown hmember hmember' (congrArg WatchPlace.name hplace)
      exact ⟨WatchKey.eq_of_place_eq hplace rfl, rfl⟩
    | own | static => simp at hplace
  | static hmember =>
    cases h' with
    | static hmember' =>
      obtain ⟨owner, howner⟩ := Option.isSome_iff_exists.mp (hresolver.owner_isSome hmember)
      obtain ⟨owner', howner'⟩ := Option.isSome_iff_exists.mp (hresolver.owner_isSome hmember')
      obtain ⟨hname, rfl⟩ : _ ∧ owner = owner' := by simpa [howner, howner'] using hplace
      rw [hresolver.name_eq hmember, hresolver.name_eq hmember'] at hname
      subst hname
      obtain rfl := hresolver.unique hmember hmember' (howner.trans howner'.symm)
      exact ⟨WatchKey.eq_of_place_eq hplace rfl, rfl⟩
    | own | ownCall => simp at hplace

/-- What is observed behind a value of some type determines its events and its type. -/
theorem Continues.unique {key key' : WatchKey} {type next next' : Option String}
    (h : resolver.Continues type key next) (h' : resolver.Continues type key' next')
    (hplace : key.place = key'.place) : key = key' ∧ next = next' := by
  have hname : key.name = key'.name := congrArg WatchPlace.name hplace
  cases h with
  | xml name =>
    cases h' with
    | xml => exact ⟨WatchKey.eq_of_place_eq hplace rfl, rfl⟩
    | _ => simp at hplace
  | dynamic name _ hdynamic =>
    cases h' with
    | dynamic => exact ⟨WatchKey.eq_of_place_eq hplace rfl, rfl⟩
    | member _ hdynamic' => simp [hdynamic] at hdynamic'
    | _ => simp at hplace
  | member _ hdynamic hmember =>
    cases h' with
    | dynamic _ _ hdynamic' => simp [hdynamic] at hdynamic'
    | member _ _ hmember' =>
      obtain rfl := hname
      obtain rfl := Option.some.inj (hmember.symm.trans hmember')
      exact ⟨rfl, rfl⟩
    | _ => simp at hplace
  | dynamicCall name args hunknown =>
    cases h' with
    | dynamicCall => exact ⟨WatchKey.eq_of_place_eq hplace rfl, rfl⟩
    | call _ hknown => simp [hunknown] at hknown
    | _ => simp at hplace
  | call args hknown hmember =>
    cases h' with
    | dynamicCall _ _ hunknown => simp [hknown] at hunknown
    | call _ _ hmember' =>
      obtain rfl := hname
      obtain rfl := Option.some.inj (hmember.symm.trans hmember')
      exact ⟨WatchKey.eq_of_place_eq hplace rfl, rfl⟩
    | _ => simp at hplace

/-- A chain determines its events and the type of the value that it observes. -/
theorem Leads.unique (hresolver : resolver.Identifies) {path path' : WatchPath}
    {type type' : Option String} (h : resolver.Leads path type) (h' : resolver.Leads path' type')
    (hplaces : path.map WatchKey.place = path'.map WatchKey.place) :
    path = path' ∧ type = type' := by
  induction h generalizing path' type' with
  | start hstarts =>
    cases h' with
    | start hstarts' =>
      obtain ⟨rfl, rfl⟩ := hstarts.unique hresolver hstarts' (by simpa using hplaces)
      exact ⟨rfl, rfl⟩
    | next hleads' _ =>
      have hlength := congrArg List.length hplaces
      exact absurd (by simpa using hlength) hleads'.ne_nil
  | next hleads hcontinues ih =>
    cases h' with
    | start _ =>
      have hlength := congrArg List.length hplaces
      exact absurd (by simpa using hlength) hleads.ne_nil
    | next hleads' hcontinues' =>
      rw [List.map_append, List.map_append] at hplaces
      obtain ⟨hpaths, hkeys⟩ := List.append_inj' hplaces rfl
      obtain ⟨rfl, rfl⟩ := ih hleads' hpaths
      obtain ⟨rfl, rfl⟩ := hcontinues.unique hcontinues' (by simpa using hkeys)
      exact ⟨rfl, rfl⟩

end Resolver

/-! ## The chains of expressions -/

/-- Whether the chain of a value observes values of its type. -/
def Subject.Typed (resolver : Resolver) : Subject → Prop
  | value (some path) type => resolver.Leads path type
  | _ => True

namespace Subject

variable {resolver : Resolver}

theorem typed_start {key : WatchKey} {type : Option String} (h : resolver.Starts key type) :
    (start key type).Typed resolver :=
  .start h

theorem Typed.behind {above : Option WatchPath} {key : WatchKey} {type type' : Option String}
    (h : (value above type).Typed resolver) (hkey : resolver.Continues type key type') :
    (behind above key type').Typed resolver := by
  cases above with
  | none => trivial
  | some path => exact .next h hkey

theorem Typed.exists_leads {subject : Subject} (h : subject.Typed resolver) {path : WatchPath}
    (hpath : path ∈ subject.chain?) : ∃ type, resolver.Leads path type := by
  cases subject with
  | value chain type =>
    obtain rfl : chain = some path := hpath
    exact ⟨type, h⟩
  | _ => simp [chain?] at hpath

theorem typed_of_chain?_eq_none {subject : Subject} (h : subject.chain? = none) :
    subject.Typed resolver := by
  cases subject with
  | value chain type =>
    obtain rfl : chain = none := h
    trivial
  | _ => trivial

end Subject

namespace Resolver

variable {resolver : Resolver} (hresolver : resolver.Identifies)
include hresolver

/-- Where names determine members, what opens a chain has the name of the member. -/
theorem Opens.starts {key : WatchKey} {type : Option String} (h : resolver.Opens key type) :
    resolver.Starts key type := by
  cases h with
  | own hmember => exact .own hmember
  | ownStatic hmember => exact .static hmember
  | static hmember =>
    have hstarts := Starts.static hmember
    rwa [hresolver.name_eq hmember] at hstarts
  | ownCall args hmember => exact .ownCall args hmember

theorem Finds.typed {receiver subject : Subject} (hreceiver : receiver.Typed resolver)
    (h : resolver.Finds receiver subject) : subject.Typed resolver := by
  cases h with
  | unobserved hnone => exact Subject.typed_of_chain?_eq_none hnone
  | start hopens => exact Subject.typed_start (hopens.starts hresolver)
  | behind hcontinues => exact hreceiver.behind hcontinues

end Resolver

/-- Every chain that an expression observes leads to values of some type. -/
theorem Expr.exists_leads_of_mem_chains {resolver : Resolver} (hresolver : resolver.Identifies)
    {path : WatchPath} (e : Expr) (h : path ∈ e.chains resolver) :
    ∃ type, resolver.Leads path type := by
  obtain ⟨part, hpath⟩ := e.exists_subject_of_mem_chains h
  have htyped : (part.subject resolver).Typed resolver :=
    Expr.subject_induction (fun _ => Subject.typed_of_chain?_eq_none)
      (fun _ _ hreceiver hfinds => hfinds.typed hresolver hreceiver) part
  exact htyped.exists_leads hpath

/-! ## The watchers of a database -/

/-- What a watcher observes and where, without the events. -/
def Watcher.site (watcher : Watcher) : Option Nat × WatchPlace :=
  (watcher.parent, watcher.watched.key.place)

namespace Database

variable {resolver : Resolver} {bindings : List Binding} {watcher : Watcher} {path : WatchPath}

/-- A path with dependents is a chain of some binding. -/
theorem exists_chain_of_dependents? (resolver : Resolver) (bindings : List Binding)
    (path : WatchPath)
    (h : (analyzeSources resolver bindings).forest.dependents? path ≠ none) :
    ∃ binding ∈ bindings, path ∈ binding.chains resolver := by
  induction bindings using List.reverseRecOn with
  | nil => simp [analyzeSources] at h
  | append_singleton bindings binding ih =>
    rw [analyzeSources_append] at h
    obtain ⟨hnoted, -⟩ := noted_analyzeSource resolver binding (analyzeSources resolver bindings)
    by_cases hpath : path ∈ binding.chains resolver
    · exact ⟨binding, by simp, hpath⟩
    · rw [hnoted.elsewhere path hpath] at h
      obtain ⟨other, hother, hchain⟩ := ih h
      exact ⟨other, List.mem_append_left _ hother, hchain⟩

/-- The path of a watcher is a chain of some source. -/
theorem AtPath.exists_chain (h : (ofBindings resolver bindings).1.AtPath watcher path) :
    ∃ source : Expr, path ∈ source.chains resolver := by
  obtain ⟨key, rest, rfl, hdependents⟩ := WatchTree.dependents?_of_mem_locatedAll _
    (distinctAll_analyzeSources resolver bindings) (atPath_ofBindings_iff.mp h)
  rw [List.nil_append]
  obtain ⟨binding, -, hchain⟩ := exists_chain_of_dependents? resolver bindings (key :: rest)
    (by simp [hdependents])
  unfold Binding.chains at hchain
  split at hchain
  · exact ⟨_, hchain⟩
  · simp at hchain

/-- The path of a watcher leads to values of some type. -/
theorem AtPath.exists_leads (hresolver : resolver.Identifies)
    (h : (ofBindings resolver bindings).1.AtPath watcher path) :
    ∃ type, resolver.Leads path type := by
  obtain ⟨source, hchain⟩ := h.exists_chain
  exact source.exists_leads_of_mem_chains hresolver hchain

/-- The last key of a path is that of its watcher. -/
theorem AtPath.getLast?_eq {db : Database} (h : db.AtPath watcher path) :
    path.getLast? = some watcher.watched.key := by
  cases h <;> simp

/-- In one table, what is observed at the end of a path without events determines the events. -/
theorem AtPath.path_eq_of_places_eq (hresolver : resolver.Identifies) {others : List Binding}
    {other : Watcher} {path' : WatchPath} (h : (ofBindings resolver bindings).1.AtPath watcher path)
    (h' : (ofBindings resolver others).1.AtPath other path')
    (hplaces : path.map WatchKey.place = path'.map WatchKey.place) : path = path' := by
  obtain ⟨type, hleads⟩ := h.exists_leads hresolver
  obtain ⟨type', hleads'⟩ := h'.exists_leads hresolver
  exact (hleads.unique hresolver hleads' hplaces).1

/-- Two watchers with the same parent that observe the same, whatever their events, are one. -/
theorem watcher_eq_of_site_eq (hresolver : resolver.Identifies) {other : Watcher}
    (hmem : watcher ∈ (ofBindings resolver bindings).1.watchers)
    (hother : other ∈ (ofBindings resolver bindings).1.watchers)
    (hsite : watcher.site = other.site) : watcher = other := by
  obtain ⟨hparent, hplace⟩ := Prod.mk.inj hsite
  obtain ⟨path, hlocated⟩ := mem_watchers_iff.mp hmem
  obtain ⟨path', hlocated'⟩ := mem_watchers_iff.mp hother
  have hpath := atPath_ofBindings_iff.mpr hlocated
  have hpath' := atPath_ofBindings_iff.mpr hlocated'
  have hplaces : path.map WatchKey.place = path'.map WatchKey.place := by
    cases hpath with
    | root _ hnone =>
      cases hpath' with
      | root => simp [hplace]
      | child _ _ hsome => simp [← hparent, hnone] at hsome
    | child habove _ hsome =>
      cases hpath' with
      | root _ hnone => simp [hparent, hnone] at hsome
      | child habove' _ hsome' =>
        have hslot := Option.some.inj (hsome.symm.trans (hparent.trans hsome'))
        simp [path_eq_of_slot_eq habove habove' hslot, hplace]
  obtain rfl := hpath.path_eq_of_places_eq hresolver hpath' hplaces
  exact watcher_eq_of_path_eq hpath hpath'

theorem nodup_watchers (resolver : Resolver) (bindings : List Binding) :
    (ofBindings resolver bindings).1.watchers.Nodup :=
  (nodup_slots_ofBindings resolver bindings).of_map _

open SymbolTable (Declaration) in
/-- **Each property is watched at most once per place.** Whatever a symbol table declares and
whatever is bound, no two roots and no two children of one watcher agree in form, name and
qualifier. In all databases that are made with the table, the forms, names and qualifiers along a
path determine the events of the watcher at its end. -/
theorem watched_once_per_place (documentClass : String) (declarations : List Declaration)
    (bindings : List Binding) :
    let resolver := (SymbolTable.ofDeclarations documentClass declarations).resolver
    ((ofBindings resolver bindings).1.watchers.map Watcher.site).Nodup ∧
      ∀ (others : List Binding) (watcher other : Watcher) (path path' : WatchPath),
        (ofBindings resolver bindings).1.AtPath watcher path →
        (ofBindings resolver others).1.AtPath other path' →
        path.map WatchKey.place = path'.map WatchKey.place →
          watcher.watched.events = other.watched.events := by
  have hresolver := SymbolTable.identifies_ofDeclarations documentClass declarations
  refine ⟨?_, fun others watcher other path path' hpath hpath' hplaces => ?_⟩
  · exact (nodup_watchers _ bindings).map_on fun _ hmem _ hother hsite =>
      watcher_eq_of_site_eq hresolver hmem hother hsite
  · obtain rfl := hpath.path_eq_of_places_eq hresolver hpath' hplaces
    have hkeys := Option.some.inj (hpath.getLast?_eq.symm.trans hpath'.getLast?_eq)
    exact congrArg WatchKey.events hkeys

/-- A document and a class that both inherit a static property. -/
def inheritedTable : SymbolTable :=
  let total : Definition :=
    { name := "total", kind := .variable, type := some "int", isStatic := true
      events := ["totalChange"] }
  let item : Definition := { name := "item", kind := .variable, type := some "Sub" }
  .ofDeclarations "Main"
    [.classType "Main" (some "Base"), .classType "Sub" (some "Base"), .member "Base" total,
      .ownMember item]

/-- Reached as a member of the document, of a class and of an instance, the static property is
watched once. -/
example :
    let bindings := ["total", "Sub.total", "item.total"].foldl
      (fun bindings dotted =>
        Binding.record inheritedTable.resolver (some (Expr.path dotted)) none .unknown bindings) []
    (ofBindings inheritedTable.resolver bindings).1.watchers.map
        (fun watcher => (watcher.watched.name, watcher.parent, watcher.bindings)) =
      [("total", none, [0, 1, 2]), ("item", none, [2])] := by
  decide +kernel

end Database

end Bindery
