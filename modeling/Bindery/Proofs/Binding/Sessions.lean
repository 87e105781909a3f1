import Bindery.Proofs.Binding.Atomic
import Mathlib.Data.List.Induction

/-!
# Sessions

A compilation is driven by requests: to look at a node, to visit a document, or for the constructor
code. They may come in any order and number. The first request for code decides the outcome from
what has been recorded and from the classes that can be found, and it ends the session: whatever it
is answered with, nothing can be recorded afterwards and no code can be asked for again.
-/

namespace Bindery

/-! ## What visits record -/

/-- Whether a look at a node records a binding. This does not depend on the bindings that are
there. -/
def Look.Records (look : Look) : Prop := ∃ bindings, (look.recording bindings).slot ≠ none

/-- The look at a node that visiting the whole document takes, if it takes any. -/
def Document.look? (resolver : Resolver) (doc : Document) (node : Nat) : Option Look :=
  match doc.kind? node with
  | some (.data ..) => some ⟨.data, resolver, doc, node⟩
  | some (.binding ..) => some ⟨.tag, resolver, doc, node⟩
  | _ => none

/-- A request to record bindings. -/
inductive Visit where
  | look (handler : Handler) (doc : Document) (node : Nat)
  | document (doc : Document)

/-- The looks that a visit takes, in their order. -/
def Visit.looks (resolver : Resolver) : Visit → List Look
  | .look handler doc node => [⟨handler, resolver, doc, node⟩]
  | .document doc => doc.walk.filterMap (doc.look? resolver)

namespace Look

/-- A look at a node records its binding whatever is recorded already, or never. -/
theorem slot_recording_eq_none_iff (look : Look) (bindings others : List Binding) :
    (look.recording bindings).slot = none ↔ (look.recording others).slot = none := by
  have hboth (resolver : Resolver) (source : Option Expr) (placement : Placement)
      (reported : List Problem) (twoWay : Bool) (span : Span) (bindings : List Binding) :
      (Binding.recordBoth resolver source placement reported twoWay span bindings).slot = none ↔
        placement = .refused := by
    by_cases hkept : placement = .refused
    · subst hkept
      simp [Binding.recordBoth]
    · obtain ⟨hslot, -⟩ :=
        Binding.recordBoth_cases resolver source span bindings hkept reported twoWay
      simp [hslot, hkept]
  obtain ⟨handler, resolver, doc, node⟩ := look
  cases handler with
  | data =>
    simp only [recording, Binding.recordData]
    split
    · rw [hboth, hboth]
    · rfl
  | tag =>
    simp only [recording, Binding.recordTag]
    split
    · split
      · rfl
      · rw [hboth, hboth]
      · rw [hboth, hboth]
    · rfl

theorem slot_recording_ne_none_iff (look : Look) (bindings : List Binding) :
    (look.recording bindings).slot ≠ none ↔ look.Records :=
  ⟨fun h => ⟨bindings, h⟩, fun ⟨_, h⟩ hnone => h ((look.slot_recording_eq_none_iff _ _).mp hnone)⟩

/-- A look leaves the bindings as they are exactly if it records none. -/
theorem recording_eq_self_iff (look : Look) (bindings : List Binding) :
    (look.recording bindings).bindings = bindings ↔ ¬look.Records := by
  rw [← look.slot_recording_ne_none_iff bindings, not_not]
  cases hends : look.ends? with
  | none => simp [(look.atomic bindings).passed hends]
  | some ends =>
    have houtcome := (look.atomic bindings).outcome ends hends
    constructor
    · intro hsame
      by_contra hslot
      obtain ⟨slot, hslot⟩ := Option.ne_none_iff_exists'.mp hslot
      obtain ⟨-, forward, -, -, -, hone, htwo⟩ := houtcome.recorded slot hslot
      cases htwoWay : ends.twoWay with
      | false => simpa [hsame] using (hone htwoWay).1
      | true =>
        rcases htwo htwoWay with ⟨back, hbindings, -⟩ | ⟨hbindings, -⟩ <;>
          simp [hsame] at hbindings
    · exact fun hslot => (houtcome.rejected hslot).1

/-- Something is recorded in the end exactly if some look records a binding. -/
theorem recorded_eq_nil_iff (looks : List Look) :
    recorded looks = [] ↔ ∀ look ∈ looks, ¬look.Records := by
  induction looks using List.reverseRecOn with
  | nil => simp [recorded]
  | append_singleton looks look ih =>
    have hlast : recorded (looks ++ [look]) = (look.recording (recorded looks)).bindings := by
      simp [recorded]
    rw [hlast, List.forall_mem_append, ← ih, List.forall_mem_singleton]
    constructor
    · intro hnil
      have hbefore := (look.atomic (recorded looks)).isPrefix
      rw [hnil, List.prefix_nil] at hbefore
      refine ⟨hbefore, (look.recording_eq_self_iff (recorded looks)).mp ?_⟩
      rw [hnil, hbefore]
    · rintro ⟨hnil, hlook⟩
      rw [(look.recording_eq_self_iff (recorded looks)).mpr hlook, hnil]

end Look

/-! ## Requests and answers -/

/-- What can be asked for. -/
inductive Request where
  | visit (visit : Visit)
  | code

/-- What a request is answered with. -/
inductive Answer where
  | done
  | code (code? : Option ConstructorCode)
  | failed (failure : Failure)

/-- A compilation with all that has been emitted and reported so far. -/
structure Session where
  compilation : Compilation
  out : Emission

namespace Compilation

/-- Serves a visit. -/
def accept (compilation : Compilation) : Visit → Except Failure (Compilation × List Problem)
  | .look .data doc node => compilation.visitData doc node
  | .look .tag doc node => compilation.visitTag doc node
  | .document doc => compilation.visitDocument doc

end Compilation

namespace Session

/-- The session in which nothing has been asked for. -/
def start (config : Config) (resolver : Resolver) (out : Emission) : Session :=
  ⟨{ config, resolver }, out⟩

/-- Serves a request. -/
def serve (session : Session) : Request → Answer × Session
  | .visit visit =>
    match session.compilation.accept visit with
    | .ok (compilation, problems) =>
      (.done, ⟨compilation, { session.out with problems := session.out.problems ++ problems }⟩)
    | .error failure => (.failed failure, session)
  | .code =>
    let finished := session.compilation.finish session.out
    match finished.1 with
    | .ok code? => (.code code?, ⟨finished.2.1, finished.2.2⟩)
    | .error failure => (.failed failure, ⟨finished.2.1, finished.2.2⟩)

/-- Serves requests one after the other. -/
def serveAll (session : Session) : List Request → List Answer × Session
  | [] => ([], session)
  | request :: requests =>
    let served := session.serve request
    let rest := served.2.serveAll requests
    (served.1 :: rest.1, rest.2)

end Session

/-! ## Before code is asked for -/

namespace Look

end Look

namespace Compilation

/-- A document is visited by taking a look at each node that has a kind for it. -/
theorem visitNode_eq (compilation : Compilation) (doc : Document) (node : Nat) :
    compilation.visitNode doc node =
      match doc.look? compilation.resolver node with
      | some look => compilation.visit look.recording
      | none => .ok (compilation, []) := by
  unfold visitNode Document.look?
  cases doc.kind? node with
  | none => rfl
  | some kind => cases kind <;> rfl

/-- The compilation after some looks. -/
def after (config : Config) (resolver : Resolver) (looks : List Look) : Compilation where
  config := config
  resolver := resolver
  recorded := some (Look.recorded looks)

variable (config : Config) (resolver : Resolver) (looks : List Look)

end Compilation

/-- What a request is answered with once code was asked for. A document may still be visited if
there is nothing to look at. -/
def Request.lateAnswer (resolver : Resolver) : Request → Answer
  | .visit (.document doc) =>
    if (Visit.document doc).looks resolver = [] then .done else .failed .analysisFinished
  | .visit (.look ..) | .code => .failed .analysisFinished

namespace Compilation

variable {compilation : Compilation} (hended : compilation.recorded = none)
include hended

theorem visit_ended (look : List Binding → Recording) :
    compilation.visit look = .error .analysisFinished := by
  simp [visit, hended]

theorem visitNodes_ended (doc : Document) (nodes : List Nat) :
    compilation.visitNodes doc nodes =
      if nodes.filterMap (doc.look? compilation.resolver) = [] then .ok (compilation, [])
      else .error .analysisFinished := by
  induction nodes with
  | nil => rfl
  | cons node nodes ih =>
    rw [visitNodes, visitNode_eq]
    cases hlook : doc.look? compilation.resolver node with
    | none =>
      simp only [List.filterMap_cons, hlook, ← ih, Bind.bind, Except.bind]
      cases compilation.visitNodes doc nodes <;> rfl
    | some look => simp [hlook, visit_ended hended, Bind.bind, Except.bind]

theorem finish_ended (out : Emission) :
    compilation.finish out = (.error .analysisFinished, compilation, out) := by
  obtain ⟨config, resolver, recorded⟩ := compilation
  obtain rfl : recorded = none := hended
  rfl

end Compilation

namespace Session

variable {session : Session} (hended : session.compilation.recorded = none)
include hended

theorem serve_ended (request : Request) :
    session.serve request = (request.lateAnswer session.compilation.resolver, session) := by
  cases request with
  | code => simp [serve, Compilation.finish_ended hended, Request.lateAnswer]
  | visit visit =>
    cases visit with
    | look handler doc node =>
      cases handler <;>
        simp [serve, Compilation.accept, Compilation.visitData, Compilation.visitTag,
          Compilation.visit_ended hended, Request.lateAnswer]
    | document doc =>
      simp only [serve, Compilation.accept, Compilation.visitDocument,
        Compilation.visitNodes_ended hended, Request.lateAnswer, Visit.looks]
      by_cases h : doc.walk.filterMap (doc.look? session.compilation.resolver) = []
      · simp [h]
      · simp [h]

/-- Once code was asked for, every request leaves the session as it is. -/
theorem serveAll_ended (requests : List Request) :
    session.serveAll requests =
      (requests.map (Request.lateAnswer session.compilation.resolver), session) := by
  induction requests with
  | nil => rfl
  | cons request requests ih => simp only [serveAll, serve_ended hended, ih, List.map_cons]

end Session

/-! ## The request for code -/

namespace Compilation

variable (config : Config) (resolver : Resolver) (looks : List Look) (out : Emission)

/-- Where nothing was recorded, there is no code, and no class is missed. -/
theorem finish_after_of_nil (h : Look.recorded looks = []) :
    (after config resolver looks).finish out =
      (.ok none, { config, resolver, recorded := none }, out) := by
  simp [finish, after, h]

/-- Where a needed class is missing, all missing classes are reported and nothing is emitted. -/
theorem finish_after_of_missing (h : Look.recorded looks ≠ []) {first : String}
    {rest : List String} (hmissing : (after config resolver looks).missingClasses = first :: rest) :
    (after config resolver looks).finish out =
      (.error (.missingRuntimeClass first), { config, resolver, recorded := none },
        { out with
          problems := out.problems ++
            (after config resolver looks).missingClasses.map missingClassProblem }) := by
  obtain ⟨binding, bindings, hrecorded⟩ := List.exists_cons_of_ne_nil h
  simp only [after, hrecorded] at hmissing
  simp only [finish, after, hrecorded, hmissing]

/-- Where bindings were recorded and no class is missing, there is code. -/
theorem exists_finish_after (h : Look.recorded looks ≠ [])
    (hmissing : (after config resolver looks).missingClasses = []) :
    ∃ code out', (after config resolver looks).finish out =
      (.ok (some code), { config, resolver, recorded := none }, out') := by
  obtain ⟨binding, bindings, hrecorded⟩ := List.exists_cons_of_ne_nil h
  simp only [after, hrecorded] at hmissing
  simp only [finish, after, hrecorded, hmissing]
  exact ⟨_, _, rfl⟩

end Compilation

/-- What the first request for code does to a session in which some looks have been taken. -/
structure Session.EndsAfter (session : Session) (looks : List Look) (answer : Answer)
    (ended : Session) : Prop where
  /-- There is no code exactly if nothing was recorded. -/
  none_iff : answer = .code none ↔ ∀ look ∈ looks, ¬look.Records
  /-- Without code, nothing is emitted or reported. -/
  out_of_none : answer = .code none → ended.out = session.out
  /-- If something was recorded, the request fails exactly if a needed class cannot be found, and it
  names the first one. -/
  missing_iff : ∀ qualified, answer = .failed (.missingRuntimeClass qualified) ↔
    (∃ look ∈ looks, look.Records) ∧
      session.compilation.config.requiredClasses.find?
        (fun needed => (session.compilation.resolver.class? needed).isNone) = some qualified
  /-- With the failure, every missing class is reported once for each time that it is needed, in
  that order, and nothing else is reported or emitted. -/
  out_of_missing : ∀ qualified, answer = .failed (.missingRuntimeClass qualified) →
    ended.out = { session.out with
      problems := session.out.problems ++
        (session.compilation.config.requiredClasses.filter fun needed =>
          (session.compilation.resolver.class? needed).isNone).map
            Compilation.missingClassProblem }
  /-- In all other cases there is code. -/
  code_iff : (∃ code, answer = .code (some code)) ↔ (∃ look ∈ looks, look.Records) ∧
    ∀ needed ∈ session.compilation.config.requiredClasses,
      (session.compilation.resolver.class? needed).isSome
  /-- Whatever the answer, from then on every request is refused and has no effect; only a document
  without any binding can be visited, which has no effect either. -/
  later : ∀ requests, ended.serveAll requests =
    (requests.map (Request.lateAnswer session.compilation.resolver), ended)

namespace Session

variable (config : Config) (resolver : Resolver) (looks : List Look) (out : Emission)

theorem endsAfter : Session.EndsAfter ⟨.after config resolver looks, out⟩ looks
    ((Session.mk (.after config resolver looks) out).serve .code).1
    ((Session.mk (.after config resolver looks) out).serve .code).2 := by
  have hexists : (∃ look ∈ looks, look.Records) ↔ Look.recorded looks ≠ [] := by
    simp [Look.recorded_eq_nil_iff]
  have hfind : (Compilation.after config resolver looks).missingClasses.head? =
      config.requiredClasses.find? fun needed => (resolver.class? needed).isNone :=
    List.head?_filter
  have hnone : (∀ needed ∈ config.requiredClasses, (resolver.class? needed).isSome) ↔
      (Compilation.after config resolver looks).missingClasses = [] := by
    simp [Compilation.missingClasses, Compilation.after, Option.isSome_iff_ne_none]
  by_cases hnil : Look.recorded looks = []
  · rw [serve, Compilation.finish_after_of_nil config resolver looks out hnil]
    exact {
      none_iff := by simp [← Look.recorded_eq_nil_iff, hnil]
      out_of_none := fun _ => rfl
      missing_iff := by simp [hexists, hnil]
      out_of_missing := nofun
      code_iff := by simp [hexists, hnil]
      later := serveAll_ended rfl }
  · cases hmissing : (Compilation.after config resolver looks).missingClasses with
    | cons first rest =>
      rw [serve, Compilation.finish_after_of_missing config resolver looks out hnil hmissing]
      exact {
        none_iff := by simp [← Look.recorded_eq_nil_iff, hnil]
        out_of_none := nofun
        missing_iff := fun qualified => by
          have hfirst := hfind.symm.trans (by rw [hmissing, List.head?_cons])
          simp [hexists, hnil, Compilation.after, hfirst]
        out_of_missing := fun _ _ => rfl
        code_iff := by
          have hsome : ¬∀ needed ∈ config.requiredClasses, (resolver.class? needed).isSome := by
            simp [hnone, hmissing]
          simp [Compilation.after, hsome]
        later := serveAll_ended rfl }
    | nil =>
      obtain ⟨code, out', hfinish⟩ :=
        Compilation.exists_finish_after config resolver looks out hnil hmissing
      rw [serve, hfinish]
      exact {
        none_iff := by simp [← Look.recorded_eq_nil_iff, hnil]
        out_of_none := nofun
        missing_iff := fun qualified => by
          have hfirst := hfind.symm.trans (by rw [hmissing, List.head?_nil])
          simp [Compilation.after, hfirst]
        out_of_missing := nofun
        code_iff := ⟨fun _ => ⟨hexists.mpr hnil, hnone.mpr hmissing⟩, fun _ => ⟨code, rfl⟩⟩
        later := serveAll_ended rfl }

end Session

end Bindery
