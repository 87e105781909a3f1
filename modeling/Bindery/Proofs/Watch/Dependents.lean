import Bindery.Proofs.Binding.Recording
import Bindery.Proofs.Watch.Observation
import Bindery.Proofs.Watch.Values

/-!
# The bindings that depend on a path

Once all sources have been analysed, a path leads to a watcher exactly when some binding observes
it, and the bindings that depend on the watcher are those that observe the path, in the order of
their slots. This holds for every number of bindings and whatever they have in common.
-/

namespace Bindery

open WatchForest (dependents? Grown)

/-! ## Beginnings of chains -/

/-- The chain of a value extends the chain of its receiver, if it does not start anew. -/
def Subject.Extends (subject receiver : Subject) : Prop :=
  ∀ chain ∈ subject.chain?, ∃ above key, chain = above ++ [key] ∧
    (above = [] ∨ above ∈ receiver.chain?)

namespace Subject

theorem extends_of_chain?_eq_none {subject receiver : Subject} (h : subject.chain? = none) :
    subject.Extends receiver := by
  simp [Extends, h]

theorem extends_start {key : WatchKey} {type : Option String} {receiver : Subject} :
    (start key type).Extends receiver := by
  intro chain hchain
  obtain rfl := Option.some.inj hchain
  exact ⟨[], key, rfl, .inl rfl⟩

theorem extends_behind {above : Option WatchPath} {key : WatchKey} {type type' : Option String} :
    (behind above key type).Extends (value above type') := by
  intro chain hchain
  obtain ⟨path, hpath, rfl⟩ := Option.map_eq_some_iff.mp hchain
  exact ⟨path, key, rfl, .inr hpath⟩

end Subject

/-- What is found in a receiver extends the chain of the receiver or starts anew. -/
theorem Resolver.Finds.extends {resolver : Resolver} {receiver subject : Subject}
    (h : resolver.Finds receiver subject) : subject.Extends receiver := by
  cases h with
  | unobserved hnone => exact Subject.extends_of_chain?_eq_none hnone
  | start => exact Subject.extends_start
  | behind => exact Subject.extends_behind

/-- Chains among which every beginning of a chain is one of them. -/
def ClosedChains (chains : List WatchPath) : Prop :=
  ∀ chain ∈ chains, ∀ path, path <+: chain → path ≠ [] → path ∈ chains

namespace ClosedChains

theorem nil : ClosedChains [] := nofun

theorem append {chains others : List WatchPath} (h : ClosedChains chains)
    (h' : ClosedChains others) : ClosedChains (chains ++ others) := by
  intro chain hchain path hpath hne
  rcases List.mem_append.mp hchain with hchain | hchain
  · exact List.mem_append_left _ (h chain hchain path hpath hne)
  · exact List.mem_append_right _ (h' chain hchain path hpath hne)

/-- One more chain, which extends one that is there or starts anew. -/
theorem extend {chains : List WatchPath} (h : ClosedChains chains) {subject receiver : Subject}
    (hextends : subject.Extends receiver) (hreceiver : ∀ chain ∈ receiver.chain?, chain ∈ chains) :
    ClosedChains (chains ++ subject.chain?.toList) := by
  intro chain hchain path hpath hne
  rcases List.mem_append.mp hchain with hchain | hchain
  · exact List.mem_append_left _ (h chain hchain path hpath hne)
  · obtain ⟨above, key, rfl, habove⟩ := hextends chain (by simpa using hchain)
    rcases List.prefix_concat_iff.mp hpath with rfl | hpath
    · exact List.mem_append_right _ hchain
    · rcases habove with rfl | habove
      · exact absurd (List.prefix_nil.mp hpath) hne
      · exact List.mem_append_left _ (h above (hreceiver above habove) path hpath hne)

end ClosedChains

namespace Expr

variable (resolver : Resolver)

mutual

/-- With a chain, an expression observes all beginnings of it. -/
theorem closedChains : (e : Expr) → ClosedChains (e.chains resolver)
  | .self _ | .literal .. => .nil
  | .identifier name _ =>
    ClosedChains.nil.extend (Resolver.finds_nameValue name .detached).extends nofun
  | .member object name _ => by
    rw [chains]
    exact (closedChains object).extend (Resolver.finds_memberValue name _).extends
      fun _ => chain_mem_chains
  | .index object i _ => by
    rw [chains]
    exact (closedChains object).append (closedChains i)
  | .call callee args _ => by
    have hargs := closedChainsAll args
    have hcallee := closedChains callee
    cases callee with
    | identifier name =>
      rw [chains]
      exact hargs.extend (Resolver.finds_nameResult name args .detached).extends nofun
    | member object name =>
      have hobject := closedChains object
      rw [chains]
      exact (hargs.append hobject).extend (Resolver.finds_memberResult name args _).extends
        fun _ hchain => List.mem_append_right _ (chain_mem_chains hchain)
    | _ => exact hargs.append hcallee
  | .binary _ left right _ => by
    rw [chains]
    exact (closedChains left).append (closedChains right)
  | .concat parts _ => by
    rw [chains]
    exact closedChainsAll parts

theorem closedChainsAll : (es : List Expr) → ClosedChains (chainsAll resolver es)
  | [] => .nil
  | e :: es => by
    rw [chainsAll]
    exact (closedChains e).append (closedChainsAll es)

end

end Expr

/-- With a chain, a binding observes all beginnings of it. -/
theorem Binding.closedChains (resolver : Resolver) (binding : Binding) :
    ClosedChains (binding.chains resolver) := by
  unfold Binding.chains
  split
  · exact Expr.closedChains resolver _
  · exact .nil

/-! ## All bindings -/

namespace Database

variable (resolver : Resolver)

/-- The slots of the bindings that observe a path. -/
def observers (bindings : List Binding) (path : WatchPath) : List Nat :=
  (bindings.filter fun binding => path ∈ binding.chains resolver).map Binding.slot

theorem mem_observers {resolver : Resolver} {bindings : List Binding} {path : WatchPath}
    {slot : Nat} : slot ∈ observers resolver bindings path ↔
      ∃ binding ∈ bindings, binding.slot = slot ∧ path ∈ binding.chains resolver := by
  simp [observers, and_comm, and_left_comm]

/-- Observers are in the order of their slots. -/
theorem observers_pairwise_lt {bindings : List Binding} (h : Recorded bindings)
    (path : WatchPath) : (observers resolver bindings path).Pairwise (· < ·) := by
  have hslots : (bindings.map Binding.slot).Pairwise (· < ·) := by
    rw [h.map_slot]
    exact List.pairwise_lt_range
  exact hslots.sublist (List.filter_sublist.map _)

/-- The analysis of one more source. -/
def analyzeSource (binding : Binding) (state : WatchAnalysis) : WatchAnalysis :=
  match binding.source with
  | some source => (WatchContext.analyze ⟨resolver, binding.slot⟩ source state).2
  | none => state

theorem analyzeSources_append (bindings : List Binding) (binding : Binding) :
    analyzeSources resolver (bindings ++ [binding]) =
      analyzeSource resolver binding (analyzeSources resolver bindings) := by
  rw [analyzeSources, List.foldl_append]
  rfl

/-- The analysis of a source notes the binding at the chains that it observes. -/
theorem noted_analyzeSource (binding : Binding) (state : WatchAnalysis) :
    WatchForest.Noted binding.slot (binding.chains resolver) state.forest
        (analyzeSource resolver binding state).forest ∧
      Grown binding.slot state.forest (analyzeSource resolver binding state).forest := by
  unfold analyzeSource Binding.chains
  cases binding.source with
  | some source =>
    have h := WatchContext.analyzed_analyze ⟨resolver, binding.slot⟩ source state
    exact ⟨h.noted, h.grown⟩
  | none => exact ⟨.nil _ _, .refl _⟩

/-- After the analysis of all sources, the bindings that depend on a path are its observers, and a
path without observers leads nowhere. -/
theorem dependents?_analyzeSources {bindings : List Binding} (h : Recorded bindings)
    (path : WatchPath) :
    (analyzeSources resolver bindings).forest.dependents? path =
      if observers resolver bindings path = [] then none
      else some (observers resolver bindings path) := by
  induction h with
  | nil => exact WatchForest.dependents?_nil_right path
  | @record bindings _ source destination span hrec ih =>
    rw [Binding.record, analyzeSources_append]
    generalize hbinding : Binding.mk bindings.length source destination _ span = binding
    have hslot : binding.slot = bindings.length := by rw [← hbinding]
    obtain ⟨hnoted, -⟩ := noted_analyzeSource resolver binding (analyzeSources resolver bindings)
    have hobservers : observers resolver (bindings ++ [binding]) path =
        observers resolver bindings path ++
          if path ∈ binding.chains resolver then [binding.slot] else [] := by
      by_cases hpath : path ∈ binding.chains resolver <;> simp [observers, hpath]
    by_cases hpath : path ∈ binding.chains resolver
    · have hnew : binding.slot ∉ observers resolver bindings path := by
        intro hmem
        obtain ⟨other, hother, heq, -⟩ := mem_observers.mp hmem
        have := hrec.slot_lt_length hother
        omega
      rw [hnoted.at_path path hpath, ih, hobservers, if_pos hpath]
      by_cases hnone : observers resolver bindings path = []
      · simp [hnone, noteDependent]
      · simp [hnone, noteDependent, hnew]
    · rw [hnoted.elsewhere path hpath, ih, hobservers, if_neg hpath, List.append_nil]

/-- What is true of no watcher at first and kept by every insertion is true in the end. -/
theorem forest_induction {P : WatchForest → Prop} (hnil : P [])
    (hinsert : ∀ (forest : WatchForest) (watched : Watched) (binding : Nat) (above : WatchPath),
      watched.Proper → P forest → P (forest.insert watched binding above))
    (bindings : List Binding) : P (analyzeSources resolver bindings).forest := by
  refine List.foldlRecOn bindings _ (motive := fun state : WatchAnalysis => P state.forest) hnil
    fun state ih binding _ => ?_
  have hgrown (after : WatchForest) (h : Grown binding.slot state.forest after) : P after := by
    induction h with
    | refl => exact ih
    | insert _ hproper _ ih' => exact hinsert _ _ _ _ hproper ih'
  exact hgrown _ (noted_analyzeSource resolver binding state).2

end Database

end Bindery
