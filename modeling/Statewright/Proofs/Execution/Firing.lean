import Statewright.Proofs.Execution.Dispatch

/-!
# Firing

When nothing is selected, firing a trigger asks guards and does nothing else; otherwise it follows
the course of the selected transition, and its effects are the only ones that run.
-/

namespace Statewright.Execution

variable {σ υ ω : Type} {e : Emission} (h : Host σ υ ω) (trigger : String) (payload : Option υ)

theorem course_congr (t : Transition) {m n : Machine σ ω} (state : n.state = m.state)
    (history : n.history = m.history) : course e t n = course e t m := by
  simp only [course, moveOf, state, history]

section Accepted

variable (accepted : e.Accepted) {m : Machine σ ω}
include accepted

theorem performed_effects {t : Transition} {ok : Bool} {trace : List (TraceEntry υ)}
    {failed : List (Callback × String)} (member : t ∈ e.model.transitions)
    (performed : h.Performed payload (course e t m).calls ok (callsIn trace) failed) :
    effectsIn trace = callsIn trace ∧ guardsIn trace = [] := by
  have roles : ∀ call ∈ callsIn trace, call.1.role ≠ .guard := by
    intro call inside
    have planned : call ∈ h.calls payload (course e t m).calls := by
      cases ok with
      | true => exact (performed.whole rfl).1 ▸ inside
      | false =>
          obtain ⟨before, c, given, rest, error, split, called, _⟩ := performed.part rfl
          rw [called] at inside
          rw [split]
          simp only [List.mem_append, List.mem_cons, List.not_mem_nil, or_false] at inside ⊢
          exact inside.imp_right .inl
    obtain ⟨c, listed, given⟩ := List.mem_filterMap.mp planned
    obtain ⟨_, _, rfl⟩ := Option.map_eq_some_iff.mp given
    exact course_roles accepted member m listed
  exact split_effects roles

omit accepted in
theorem refused_run (passed : passes e h trigger (visible e payload))
    (nothing : chosen? e h payload trigger m = none) :
    ∃ n asked, tryFire e h trigger payload m = (false, n, asked) ∧
      h.Refuses (visible e payload) (e.model.candidatesOn m.state trigger) m.data n.data ∧
      callsIn asked = h.asks (visible e payload) (e.model.candidatesOn m.state trigger) ∧
      n.state = m.state ∧ n.history = m.history ∧ exitedIn asked = [] ∧ enteredIn asked = [] ∧
      failuresIn asked = [] := by
  have outcome := select_outcome e h m.state (visible e payload)
    (e.model.candidatesOn m.state trigger) m
  rcases selected : select e h m.state (visible e payload) (e.model.candidatesOn m.state trigger) m
    with ⟨found, n, asked⟩
  rw [chosen?, if_pos passed, selected] at nothing
  obtain rfl : found = none := nothing
  rw [selected] at outcome
  rcases outcome with ⟨_, refuses, called⟩ | ⟨_, _, _, _, found, _⟩
  · have still := (select_still e h m.state (visible e payload) _).of_eq selected
    refine ⟨n, asked, ?_, refuses, called, still⟩
    rw [tryFire_eq, if_pos passed, Run.bind_apply, selected]
    show (false, n, asked ++ []) = (false, n, asked)
    rw [List.append_nil]
  · cases found

omit accepted in
theorem chosen_run {t : Transition} (chosen : chosen? e h payload trigger m = some t) :
    ∃ n asked refused rest ready,
      tryFire e h trigger payload m =
          ((conclude e h m.state (visible e payload) (some t) n).1,
            (conclude e h m.state (visible e payload) (some t) n).2.1,
            asked ++ (conclude e h m.state (visible e payload) (some t) n).2.2) ∧
      e.model.candidatesOn m.state trigger = refused ++ t :: rest ∧
      h.Refuses (visible e payload) refused m.data ready ∧
      h.verdict (visible e payload) t ready = (true, n.data) ∧
      callsIn asked = h.asks (visible e payload) (refused ++ [t]) ∧
      n.state = m.state ∧ n.history = m.history ∧ exitedIn asked = [] ∧ enteredIn asked = [] ∧
      failuresIn asked = [] := by
  unfold chosen? at chosen
  split at chosen
  · next passed =>
      have outcome := select_outcome e h m.state (visible e payload)
        (e.model.candidatesOn m.state trigger) m
      rcases selected : select e h m.state (visible e payload)
        (e.model.candidatesOn m.state trigger) m with ⟨found, n, asked⟩
      rw [selected] at chosen outcome
      obtain rfl : found = some t := chosen
      rcases outcome with
        ⟨found, _⟩ | ⟨u, refused, rest, ready, found, split, refuses, allows, called⟩
      · cases found
      · obtain rfl := Option.some.inj found
        have still := (select_still e h m.state (visible e payload) _).of_eq selected
        refine ⟨n, asked, refused, rest, ready, ?_, split, refuses, allows, called, still⟩
        rw [tryFire_eq, if_pos passed, Run.bind_apply, selected]
  · cases chosen

theorem tryFire_nothing (nothing : chosen? e h payload trigger m = none) :
    (tryFire e h trigger payload m).1 = false ∧
      (tryFire e h trigger payload m).2.1.state = m.state ∧
      (tryFire e h trigger payload m).2.1.history = m.history ∧
      exitedIn (tryFire e h trigger payload m).2.2 = [] ∧
      enteredIn (tryFire e h trigger payload m).2.2 = [] ∧
      effectsIn (tryFire e h trigger payload m).2.2 = [] ∧
      failuresIn (tryFire e h trigger payload m).2.2 = [] := by
  cases passed : passes e h trigger (visible e payload) with
  | false =>
      rw [tryFire_eq, passed]
      exact ⟨rfl, rfl, rfl, rfl, rfl, rfl, rfl⟩
  | true =>
      obtain ⟨n, asked, run, _, called, state, history, exited, entered, failures⟩ :=
        refused_run h trigger payload passed nothing
      have listed : ∀ t ∈ e.model.candidatesOn m.state trigger, t ∈ e.model.transitions :=
        fun _ candidate => (candidate_registered accepted candidate).1
      have roles := asks_roles h (visible e payload) accepted listed
      rw [run]
      exact ⟨rfl, state, history, exited, entered, (split_guards (called ▸ roles)).2, failures⟩

variable (settled : Settled e m) {t : Transition}
include settled

theorem conclude_followed (state : String) (member : t ∈ e.model.transitions) :
    (course e t m).Followed h payload e.model.hierarchy m
      (conclude e h state payload (some t) m) := by
  obtain ⟨performed, done, broken⟩ := transfer_followed accepted settled member h payload
  rcases transferred : transfer e h payload t m with ⟨taken, n, trace⟩
  rw [transferred] at performed done broken
  have still := tell_still e h (attemptOf state payload t) (.after taken)
  have quiet := (tell_computes e h (attemptOf state payload t) (.after taken) n).2
  have step : conclude e h state payload (some t) m =
      (taken, (tell e h (attemptOf state payload t) (.after taken) n).2.1,
        trace ++ ((tell e h (attemptOf state payload t) (.after taken) n).2.2 ++ [])) := by
    rw [conclude, Run.bind_apply, transferred]
    rfl
  rw [step]
  refine ⟨?_, fun holds => ?_, fun fails => ?_⟩
  · simpa [quiet, still.failures] using performed
  · obtain ⟨state, history, exited, entered⟩ := done holds
    simpa [still.state, still.history, still.exited, still.entered] using
      ⟨state, history, exited, entered⟩
  · simpa [still.state, still.history] using broken fails

theorem tryFire_chosen (chosen : chosen? e h payload trigger m = some t) :
    t ∈ e.model.candidatesOn m.state trigger ∧
      (course e t m).Walked e.model.hierarchy m (tryFire e h trigger payload m) ∧
      h.Performed (visible e payload) (course e t m).calls (tryFire e h trigger payload m).1
        (effectsIn (tryFire e h trigger payload m).2.2)
        (failuresIn (tryFire e h trigger payload m).2.2) ∧
      ∃ refused rest ready last, e.model.candidatesOn m.state trigger = refused ++ t :: rest ∧
        h.Refuses (visible e payload) refused m.data ready ∧
        h.verdict (visible e payload) t ready = (true, last) ∧
        guardsIn (tryFire e h trigger payload m).2.2 =
          h.asks (visible e payload) (refused ++ [t]) := by
  obtain ⟨n, asked, refused, rest, ready, run, split, refuses, allows, called, state, history,
    exited, entered, failures⟩ := chosen_run h trigger payload chosen
  have candidate : t ∈ e.model.candidatesOn m.state trigger := by simp [split]
  have member := (candidate_registered accepted candidate).1
  have listed (u : Transition) (inside : u ∈ refused ++ [t]) : u ∈ e.model.transitions := by
    have consulted : u ∈ e.model.candidatesOn m.state trigger := by
      rw [split, List.append_cons]
      exact List.mem_append_left rest inside
    exact (candidate_registered accepted consulted).1
  have guards := split_guards (called ▸ asks_roles h (visible e payload) accepted listed)
  obtain ⟨performed, done, broken⟩ := conclude_followed h (visible e payload) accepted
    (settled.of_same state history) m.state member
  obtain ⟨effects, unguarded⟩ := performed_effects h (visible e payload) accepted member performed
  rw [course_congr t state history] at performed done broken
  rw [run]
  refine ⟨candidate, ⟨fun holds => ?_, fun fails => ?_⟩, ?_, refused, rest, ready, n.data, split,
    refuses, allows, ?_⟩
  · simpa [exited, entered, history] using done holds
  · simpa [state, history] using broken fails
  · simpa [guards.2, failures, effects] using performed
  · simpa [guards.1, unguarded] using called

end Accepted

end Statewright.Execution
