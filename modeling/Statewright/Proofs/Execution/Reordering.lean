import Mathlib.Data.List.Perm.Basic
import Statewright.Proofs.Execution.Filter
import Statewright.Proofs.Execution.Permission

/-!
# Reordered models

Two accepted machines whose models differ in nothing but the order of transitions and of payload
types run alike: a state has at most one transition of its own on a trigger, and a trigger at most
one payload type, so that it does not matter where in a list they stand.
-/

namespace Statewright

open Grammar

theorem toList_perm {α : Type} {a b : Option α} (same : a.toList.Perm b.toList) : a = b := by
  cases a <;> cases b <;> simp_all

theorem find?_perm {α : Type} {p : α → Bool} {l other : List α} (same : l.Perm other)
    (alone : l.Pairwise fun a b => ¬(p a ∧ p b)) : l.find? p = other.find? p := by
  have either : other.Pairwise fun a b => ¬(p a ∧ p b) :=
    same.pairwise alone fun {a b} apart both => apart both.symm
  apply toList_perm
  rw [← Execution.filter_eq_find? p alone, ← Execution.filter_eq_find? p either]
  exact same.filter p

theorem lookup_perm {α : Type} {l other : List (String × α)} (same : l.Perm other)
    (distinct : (l.map Prod.fst).Nodup) (key : String) :
    l.find? (·.1 == key) = other.find? (·.1 == key) := by
  refine find?_perm same ((List.pairwise_map.mp distinct).imp fun {a b} apart both => apart ?_)
  exact (eq_of_beq both.1).trans (eq_of_beq both.2).symm

theorem Model.ancestors_of_states {m other : Model} (same : other.states = m.states) :
    other.ancestors = m.ancestors := by
  have found (name : String) : other.state? name = m.state? name := by
    rw [state?, state?, same]
  have chain (n : Nat) (name : Option String) :
      other.parentChain n name = m.parentChain n name := by
    induction n generalizing name with
    | zero => rfl
    | succ n ih =>
        cases name with
        | none => rfl
        | some name => simp only [parentChain, found, ih]
  funext state
  rw [ancestors, ancestors, found, chain, same]

def Emission.reordered (e : Emission) (transitions : List Transition)
    (triggerPayloads : List (String × Ty)) : Emission :=
  { e with model := { e.model with transitions, triggerPayloads } }

namespace Execution

section Reordered

variable {σ υ ω : Type} {e : Emission} {transitions : List Transition}
  {triggerPayloads : List (String × Ty)} (accepted : e.Accepted)
  (again : (e.reordered transitions triggerPayloads).Accepted)
  (moved : e.model.transitions.Perm transitions)
  (retyped : e.model.triggerPayloads.Perm triggerPayloads)

section Candidates

include accepted again moved

theorem candidatesOn_reordered :
    (e.reordered transitions triggerPayloads).model.candidatesOn = e.model.candidatesOn := by
  funext state trigger
  rw [candidatesOn_eq again, candidatesOn_eq accepted]
  have registered : registered? (e.reordered transitions triggerPayloads) trigger =
      registered? e trigger := by
    funext level
    refine (find?_perm moved (accepted.distinct.imp fun {t u} apart both => apart ?_)).symm
    simp only [Bool.and_eq_true, beq_iff_eq] at both
    exact ⟨both.1.1.trans both.2.1.symm, both.1.2.trans both.2.2.symm⟩
  have ancestors : (e.reordered transitions triggerPayloads).model.ancestors = e.model.ancestors :=
    Model.ancestors_of_states rfl
  rw [registered, levels, levels, ancestors]
  rfl

theorem definedTriggers_reordered :
    (e.reordered transitions triggerPayloads).model.definedTriggers = e.model.definedTriggers := by
  funext state
  rw [Emission.definedTriggers_eq again, Emission.definedTriggers_eq accepted,
    candidatesOn_reordered accepted again moved]
  rfl

theorem sortedTriggers_reordered :
    (e.reordered transitions triggerPayloads).model.sortedTriggers = e.model.sortedTriggers := by
  funext state
  rw [Emission.sortedTriggers_eq again, Emission.sortedTriggers_eq accepted,
    definedTriggers_reordered accepted again moved]

end Candidates

section Payloads

include accepted retyped

theorem payloadFor?_reordered :
    (e.reordered transitions triggerPayloads).model.payloadFor? = e.model.payloadFor? := by
  funext trigger
  have found := lookup_perm retyped accepted.typed.1 trigger
  simp only [Model.payloadFor?, found]
  rfl

theorem enforced?_reordered :
    enforced? (e.reordered transitions triggerPayloads) = enforced? e := by
  funext trigger
  by_cases multi : e.payload = .multi
  · have either : (e.reordered transitions triggerPayloads).payload = .multi := multi
    rw [enforced?_eq either, enforced?_eq multi, payloadFor?_reordered accepted retyped]
  · have neither : (e.reordered transitions triggerPayloads).payload ≠ .multi := multi
    rw [enforced?, if_neg neither, enforced?, if_neg multi]

theorem passes_reordered (h : Host σ υ ω) :
    passes (e.reordered transitions triggerPayloads) h = passes e h := by
  funext trigger payload
  cases payload with
  | none => rfl
  | some p => simp only [passes, enforced?_reordered accepted retyped]

end Payloads

section Calls

variable (h : Host σ υ ω)
include accepted again moved

omit accepted again moved in
theorem tryCandidates_reordered (state : String) (payload : Option υ)
    (candidates : List Transition) :
    tryCandidates (e.reordered transitions triggerPayloads) h state payload candidates =
      tryCandidates e h state payload candidates := by
  induction candidates with
  | nil => rfl
  | cons t rest ih =>
      rw [tryCandidates, tryCandidates, ih]
      rfl

theorem permittedTriggers_reordered :
    permittedTriggers (e.reordered transitions triggerPayloads) h = permittedTriggers e h := by
  have among (state : String) (triggers : List String) :
      permittedAmong (e.reordered transitions triggerPayloads) h state triggers =
        permittedAmong e h state triggers := by
    induction triggers with
    | nil => rfl
    | cons trigger rest ih =>
        rw [permittedAmong, permittedAmong, ih, candidatesOn_reordered accepted again moved]
  rw [permittedTriggers, permittedTriggers, sortedTriggers_reordered accepted again moved]
  exact bind_congr fun state => among state _

include retyped

theorem tryFire_reordered (trigger : String) (payload : Option υ) :
    tryFire (e.reordered transitions triggerPayloads) h trigger payload =
      tryFire e h trigger payload := by
  simp only [tryFire, passes_reordered accepted retyped,
    candidatesOn_reordered accepted again moved, tryCandidates_reordered]
  rfl

theorem canFire_reordered (trigger : String) (payload : Option υ) :
    canFire (e.reordered transitions triggerPayloads) h trigger payload =
      canFire e h trigger payload := by
  simp only [canFire, passes_reordered accepted retyped,
    candidatesOn_reordered accepted again moved]
  rfl

theorem run_reordered (call : Call σ υ ω) :
    call.run (e.reordered transitions triggerPayloads) h = call.run e h := by
  have states : (e.reordered transitions triggerPayloads).model.states = e.model.states := rfl
  have defined := definedTriggers_reordered accepted again moved
  cases call with
  | tryFire trigger payload =>
      rw [Call.run, Call.run, tryFire_reordered accepted again moved retyped]
  | fire trigger payload =>
      simp only [Call.run, fire, tryFire_reordered accepted again moved retyped]
  | canFire trigger payload =>
      rw [Call.run, Call.run, canFire_reordered accepted again moved retyped]
  | permittedTriggers =>
      rw [Call.run, Call.run, permittedTriggers_reordered accepted again moved]
  | definedTriggers =>
      funext m
      have same := listedTriggers_congr states defined m.state
      exact congrArg (fun triggers => (Reply.names triggers, m, [])) same
  | hasTransition trigger =>
      funext m
      have same := matchesPattern_congr states defined m.state trigger
      exact congrArg (fun answer => (Reply.truth answer, m, [])) same
  | _ => rfl

theorem session_reordered (m : Machine σ ω) (calls : List (Call σ υ ω)) :
    session (e.reordered transitions triggerPayloads) h m calls = session e h m calls := by
  induction calls generalizing m with
  | nil => rfl
  | cons call rest ih =>
      have step : stepOf (e.reordered transitions triggerPayloads) h m call =
          stepOf e h m call := by
        rw [stepOf, stepOf, run_reordered accepted again moved retyped]
      rw [session, session, step, ih]

end Calls

end Reordered

end Execution

end Statewright
