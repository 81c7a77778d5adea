import Mathlib.Data.List.Nodup
import Statewright.Proofs.Build.Transitions

/-!
# Payload types

A trigger has at most one payload type of its own. What a transition expects is the type of its
trigger, or the default of the machine, and what its callbacks take is spelled like it.
-/

namespace Statewright

open Grammar Declaration

inductive PayloadParameter.Fits (ty : Ty) : PayloadParameter → Prop
  | none : Fits ty .none
  | required {found : Ty} (alike : ty.same found) : Fits ty (.required found)
  | optional {found : Ty} (alike : ty.same found) : Fits ty (.optional found)

def Callback.Takes (c : Callback) (ty : Ty) : Prop := c.payload.Fits ty

namespace Check

theorem payloadFindings_typed {invalid : SignatureProblem → Finding} {name : String} {role : Role}
    {ty : Ty} {forced : Bool} {payload : PayloadParameter}
    (error : ∀ problem, (invalid problem).isError)
    (passed : (payloadFindings invalid name role (.type ty) forced payload).any
      Finding.isError = false) : payload.Fits ty := by
  have spelled {found : Ty} (quiet : (if ty.same found then [] else
      [invalid (.payloadType found)]).any Finding.isError = false) : ty.same found := by
    by_contra other
    simp [other, error] at quiet
  cases payload with
  | none => exact .none
  | required found => exact .required (spelled passed)
  | optional found => exact .optional (spelled passed)
  | invalid found => simp [payloadFindings, PayloadParameter.type?, error] at passed

theorem callbackSignature_typed {name : String} {role : Role} {ty : Ty} {forced : Bool} {s : Shape}
    (passed : (callbackSignature name role (some s) (.type ty) forced).any Finding.isError = false) :
    s.payload.Fits ty := by
  have error (problem : SignatureProblem) :
      (Finding.signature name role (.type ty) problem).isError := rfl
  simp only [callbackSignature, List.any_append, Bool.or_eq_false_iff] at passed
  have rest := passed.2
  split at rest
  · simp [error] at rest
  · exact payloadFindings_typed error rest

end Check

namespace Build

variable {cx : Setting}

theorem Setting.Passes.takes {ty : Ty} {c : Callback} (passes : cx.Passes (.type ty) c) :
    c.Takes ty := by
  obtain ⟨m, described, passed⟩ := passes
  rw [Callback.Takes, described.payload]
  exact Check.callbackSignature_typed passed

structure Draft.Typed (d : Draft) : Prop where
  owners : (d.triggerPayloads.map Prod.fst).Nodup
  expected : ∀ t ∈ d.transitions, t.expectedPayload = d.payloadFor? t.trigger
  takes : ∀ t ∈ d.transitions, ∀ ty, t.expectedPayload = some ty →
    (∀ c ∈ t.guard, c.Takes ty) ∧ ∀ c ∈ t.action, c.Takes ty

theorem Draft.Spares.payloadFor? {d next : Draft} (spares : d.Spares next) (trigger : String) :
    next.payloadFor? trigger = d.payloadFor? trigger := by
  rw [Draft.payloadFor?, Draft.payloadFor?, spares.defaultPayload, spares.triggerPayloads]

theorem Draft.Typed.of_spares {d next : Draft} (typed : d.Typed) (spares : d.Spares next) :
    next.Typed := by
  obtain ⟨owners, expected, takes⟩ := typed
  refine ⟨?_, ?_, ?_⟩
  · rwa [spares.triggerPayloads]
  · intro t member
    rw [spares.transitions] at member
    rw [spares.payloadFor?]
    exact expected t member
  · rwa [spares.transitions]

theorem Draft.Gains.typed {d next : Draft} {l : Link} {t : Transition}
    (gains : d.Gains next cx l t) (typed : d.Typed) : next.Typed := by
  have same := gains.told.spares
  have payloads (trigger : String) : next.payloadFor? trigger = d.payloadFor? trigger :=
    same.payloadFor? trigger
  obtain ⟨owners, expected, takes⟩ := typed
  refine ⟨?_, ?_, ?_⟩
  · have kept : next.triggerPayloads = d.triggerPayloads := same.triggerPayloads
    rwa [kept]
  · intro u member
    rw [gains.transitions] at member
    rw [payloads]
    rcases List.mem_append.mp member with old | new
    · exact expected u old
    · rw [List.mem_singleton.mp new]
      exact gains.payload
  · intro u member ty awaited
    rw [gains.transitions] at member
    rcases List.mem_append.mp member with old | new
    · exact takes u old ty awaited
    · obtain rfl := List.mem_singleton.mp new
      have type : d.expected u.expectedPayload = .type ty := by rw [awaited]; rfl
      constructor
      · intro c given
        exact (type ▸ (gains.guard c given).2).takes
      · intro c given
        exact (type ▸ (gains.action c given).2).takes

theorem addDeclaration_typed (e : Declared MachineDeclaration) {d : Draft} (typed : d.Typed) :
    (addDeclaration cx d e).Typed := by
  rcases addDeclaration_cases cx d e with
    ⟨_, spares, _⟩ | ⟨l, _, ⟨_, told⟩ | ⟨_, t, gains⟩⟩
  · exact typed.of_spares spares
  · rw [told]
    exact typed.of_spares (tell_told d _ e.pos).spares
  · exact gains.typed typed

theorem declarePayload_owners (onMethod : Option String) (p : Declared PayloadArguments)
    {d : Draft} (owners : (d.triggerPayloads.map Prod.fst).Nodup) :
    ((declarePayload cx onMethod p d).triggerPayloads.map Prod.fst).Nodup := by
  rcases declarePayload_told cx onMethod p d with told | ⟨scope, free, same⟩
  · rw [told.triggerPayloads]
    exact owners
  · rw [same]
    cases scope with
    | none => exact owners
    | some trigger =>
        have unknown := List.find?_eq_none.mp (Option.map_eq_none_iff.mp free)
        simp only [Draft.gaining, List.map_append, List.nodup_append]
        refine ⟨owners, List.nodup_singleton trigger, ?_⟩
        intro owner known other new same
        obtain rfl := List.mem_singleton.mp new
        obtain ⟨entry, listed, rfl⟩ := List.mem_map.mp known
        exact absurd same (by simpa using unknown entry listed)

theorem declarePayloads_owners {d : Draft} (fresh : d.triggerPayloads = []) :
    ((declarePayloads cx d).triggerPayloads.map Prod.fst).Nodup :=
  declarePayloads_induction (fun next => (next.triggerPayloads.map Prod.fst).Nodup)
    (by simp [fresh]) fun onMethod p _ owners => declarePayload_owners onMethod p owners

theorem draft_typed (cx : Setting) (report : Report) : (draft cx report).Typed := by
  unfold draft
  extract_lets start
  refine Draft.Typed.of_spares ?_ (checks_told cx _).spares
  refine List.foldlRecOn (motive := Draft.Typed) _ _ ?_ ?_
  · have none : (declarePayloads cx start).transitions = [] :=
      (declarePayloads_kept cx start).transitions
    refine ⟨declarePayloads_owners rfl, ?_, ?_⟩
    · simp [none]
    · simp [none]
  · exact fun d typed e _ => addDeclaration_typed e typed

end Build

theorem Model.payloadFor?_eq_some {m : Model} (owners : (m.triggerPayloads.map Prod.fst).Nodup)
    {trigger : String} {ty : Ty} :
    m.payloadFor? trigger = some ty ↔ (trigger, ty) ∈ m.triggerPayloads ∨
      trigger ∉ m.triggerPayloads.map Prod.fst ∧ m.defaultPayload = some ty := by
  have unowned : (m.triggerPayloads.find? (·.1 == trigger)).map (·.2) = none ↔
      trigger ∉ m.triggerPayloads.map Prod.fst := by
    simp only [Option.map_eq_none_iff, List.find?_eq_none, List.mem_map, not_exists, not_and]
    simp
  have owned : (m.triggerPayloads.find? (·.1 == trigger)).map (·.2) = some ty ↔
      (trigger, ty) ∈ m.triggerPayloads := by
    constructor
    · intro found
      obtain ⟨entry, first, rfl⟩ := Option.map_eq_some_iff.mp found
      have owner : entry.1 = trigger := by simpa using List.find?_some first
      rw [← owner]
      exact List.mem_of_find?_eq_some first
    · intro listed
      have known : (m.triggerPayloads.find? (·.1 == trigger)).isSome :=
        List.find?_isSome.mpr ⟨_, listed, by simp⟩
      obtain ⟨entry, first⟩ := Option.isSome_iff_exists.mp known
      have owner : entry.1 = trigger := by simpa using List.find?_some first
      have only : entry = (trigger, ty) :=
        List.inj_on_of_nodup_map owners (List.mem_of_find?_eq_some first) listed owner
      rw [first, only]
      rfl
  rw [Model.payloadFor?, Option.or_eq_some_iff, owned, unowned]

theorem Model.payloadKind_single {m : Model} (single : m.payloadKind = .single) :
    m.triggerPayloads = [] ∧ m.defaultPayload.isSome := by
  unfold payloadKind at single
  split at single
  · cases single
  · next unowned =>
      split at single
      · next default => exact ⟨by simpa using unowned, default⟩
      · cases single

theorem Model.select_single {m : Model} {variant : Variant} (selected : m.select = .ok variant)
    (single : Variant.emittedPayload m.payloadKind variant = .single) :
    m.payloadKind = .single := by
  cases forced : m.config.forced with
  | none =>
      simp only [select, forced] at selected
      cases selected
      cases kind : m.payloadKind <;> cases extensions : m.config.extensionsRequested <;>
        cases entryExit : m.config.hasEntryExit <;>
        simp [Variant.select, features, kind, extensions, entryExit, Variant.emittedPayload]
          at single ⊢
  | some other =>
      simp only [select, forced] at selected
      split at selected
      · cases selected
      · next fits =>
          cases selected
          cases kind : m.payloadKind with
          | single => rfl
          | _ =>
              cases variant <;>
                simp [Variant.emittedPayload, kind] at single <;>
                simp [Check.forcedVariant, features, kind, Finding.isError, Finding.severity,
                  Finding.rule, Rule.severity] at fits

namespace Emission.Accepted

variable {e : Emission} (accepted : e.Accepted)
include accepted

theorem single (shared : e.payload = .single) :
    e.model.triggerPayloads = [] ∧ e.model.defaultPayload.isSome := by
  obtain ⟨_, _, _, emitted⟩ := accepted
  obtain ⟨variant, selected, parts⟩ := Model.emission_eq_ok.mp emitted
  have kind : e.payload = Variant.emittedPayload e.model.payloadKind variant :=
    congrArg Emission.payload parts
  exact Model.payloadKind_single (Model.select_single selected (kind.symm.trans shared))

theorem typed : (e.model.triggerPayloads.map Prod.fst).Nodup ∧
    (∀ t ∈ e.model.transitions, t.expectedPayload = e.model.payloadFor? t.trigger) ∧
    ∀ t ∈ e.model.transitions, ∀ ty, t.expectedPayload = some ty →
      (∀ c ∈ t.guard, c.Takes ty) ∧ ∀ c ∈ t.action, c.Takes ty := by
  obtain ⟨machine, facts, built, _⟩ := accepted
  obtain ⟨cx, report, _, model⟩ := Build.build_eq_some built
  obtain ⟨owners, expected, takes⟩ := Build.draft_typed cx report
  rw [model]
  exact ⟨owners, expected, takes⟩

end Emission.Accepted

end Statewright
