import Statewright.Proofs.Execution.Session

/-!
# Selection

Which transition a trigger takes: the innermost one registered for it whose guard, if it has one,
allows it.
-/

namespace Statewright.Execution

variable {σ υ ω : Type} {e : Emission} (h : Host σ υ ω)

theorem candidate_iff (accepted : e.Accepted) (state trigger : String) (t : Transition) :
    t ∈ e.model.candidatesOn state trigger ↔
      t ∈ e.model.transitions ∧ t.source ∈ levels e state ∧ t.trigger = trigger := by
  refine ⟨candidate_registered accepted, fun ⟨member, level, fires⟩ => ?_⟩
  rw [candidatesOn_eq accepted]
  refine List.mem_filterMap.mpr ⟨t.source, level, ?_⟩
  rw [← Option.mem_toList, ← transitionsFrom_filter accepted]
  simp [Model.transitionsFrom, member, fires]

theorem consulted_enough (state : String) (payload : Option υ) (candidates : List Transition) :
    tryCandidates e h state payload (consulted candidates) =
      tryCandidates e h state payload candidates := by
  rw [tryCandidates_eq, tryCandidates_eq, select_consulted]

theorem dispatch_innermost_first (accepted : e.Accepted) {m : Machine σ ω}
    (reachable : Reachable e h m) (trigger : String) (payload : Option υ)
    (passed : passes e h trigger (visible e payload)) :
    let candidates := e.model.candidatesOn m.state trigger
    let given := visible e payload
    let result := tryFire e h trigger payload m
    (levels e m.state).Nodup ∧
      candidates = (levels e m.state).filterMap (registered? e trigger) ∧
      (∀ t, t ∈ candidates ↔
        t ∈ e.model.transitions ∧ t.source ∈ levels e m.state ∧ t.trigger = trigger) ∧
      ((∃ t refused rest ready last, candidates = refused ++ t :: rest ∧
          h.Refuses given refused m.data ready ∧ h.verdict given t ready = (true, last) ∧
          guardsIn result.2.2 = h.asks given (refused ++ [t]) ∧
          (course e t m).Walked e.model.hierarchy m result ∧
          h.Performed given (course e t m).calls result.1 (effectsIn result.2.2)
            (failuresIn result.2.2)) ∨
        (∃ last, h.Refuses given candidates m.data last) ∧
          guardsIn result.2.2 = h.asks given candidates ∧ effectsIn result.2.2 = [] ∧
          result.1 = false ∧ result.2.1.state = m.state) ∧
      (tryCandidates e h m.state given (consulted candidates) : Run σ υ ω Bool) =
        tryCandidates e h m.state given candidates := by
  intro candidates given result
  have settled := reachable_settled accepted reachable
  refine ⟨levels_nodup accepted settled.known, candidatesOn_eq accepted m.state trigger,
    candidate_iff accepted m.state trigger, ?_, consulted_enough h m.state given candidates⟩
  cases chosen : chosen? e h payload trigger m with
  | none =>
      obtain ⟨n, asked, run, refuses, called, state, _⟩ :=
        refused_run h trigger payload passed chosen
      have listed : ∀ t ∈ e.model.candidatesOn m.state trigger, t ∈ e.model.transitions :=
        fun _ candidate => (candidate_registered accepted candidate).1
      have guards := split_guards (called ▸ asks_roles h given accepted listed)
      refine .inr ⟨⟨n.data, refuses⟩, ?_⟩
      simp only [result, run]
      exact ⟨guards.1.trans called, guards.2, trivial, state⟩
  | some t =>
      obtain ⟨_, walked, performed, refused, rest, ready, last, split, refuses, allows, guards⟩ :=
        tryFire_chosen h trigger payload accepted settled chosen
      exact .inl ⟨t, refused, rest, ready, last, split, refuses, allows, guards, walked, performed⟩

theorem lamp_outer_transition :
    let m : Machine Bool Unit := start lamp "High" false
    m.state = "High" ∧ levels lamp m.state = ["High", "On"] ∧
      lamp.model.candidatesOn m.state "Power" =
        ["High", "On"].filterMap (registered? lamp "Power") ∧
      (tryFire lamp lampHost "Power" none m).1 = true ∧
      (tryFire lamp lampHost "Power" none m).2.1.state = "Off" := by
  intro m
  have reachable : Reachable lamp lampHost m := ⟨"High", by decide, false, [], rfl⟩
  obtain ⟨_, candidates, _⟩ :=
    dispatch_innermost_first lampHost lamp_accepted reachable "Power" none rfl
  exact ⟨rfl, rfl, candidates, by decide +kernel, by decide +kernel⟩

end Statewright.Execution
