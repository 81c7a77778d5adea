import Statewright.Proofs.Execution.Session

/-!
# Foresight

Asking whether a trigger would be taken foretells what firing it does, as long as guards leave the
data alone: the answer is yes just when a transition is selected, and what was foretold then fails
only through an effect of that transition.
-/

namespace Statewright

variable {σ υ ω : Type} (h : Host σ υ ω) (payload : Option υ)

def Host.permits (data : σ) (t : Transition) : Bool := (h.verdict payload t data).1

/-- The guard of the transition, if it has one, leaves the data as they are. -/
def Host.Discreet (t : Transition) : Prop :=
  ∀ guard, t.guard = some guard → ∀ given data, (h.call guard given data).2 = data

variable {h} {t : Transition} {candidates : List Transition}

theorem Host.Discreet.verdict_eq (discreet : h.Discreet t) (data : σ) :
    h.verdict payload t data = (h.permits payload data t, data) := by
  refine Prod.ext rfl ?_
  cases guarded : t.guard with
  | none => simp [Host.verdict, guarded]
  | some guard =>
      cases allotted : h.given? guard payload with
      | none => simp [Host.verdict, guarded, allotted]
      | some given =>
          have kept := discreet guard guarded given data
          rcases answered : h.call guard given data with ⟨answer, next⟩
          rw [answered] at kept
          cases answer <;> simpa [Host.verdict, guarded, allotted, answered] using kept

theorem Host.Refuses.discreet {payload : Option υ} {data last : σ}
    (refuses : h.Refuses payload candidates data last) (discreet : ∀ t ∈ candidates, h.Discreet t) :
    last = data ∧ ∀ t ∈ candidates, h.permits payload data t = false := by
  induction refuses with
  | nil => simp
  | cons refused rest ih =>
      obtain ⟨first, others⟩ := List.forall_mem_cons.mp discreet
      rw [first.verdict_eq] at refused
      obtain ⟨denied, rfl⟩ := Prod.mk.inj refused
      obtain ⟨rfl, denials⟩ := ih others
      exact ⟨rfl, List.forall_mem_cons.mpr ⟨denied, denials⟩⟩

namespace Execution

theorem wouldTake_discreet (discreet : h.Discreet t) (m : Machine σ ω) :
    ∃ asked, wouldTake h payload t m = (h.permits payload m.data t, m, asked) := by
  cases guarded : t.guard with
  | none => exact ⟨[], by simp [wouldTake, guarded, Host.permits, Host.verdict, Run.pure_apply]⟩
  | some guard =>
      cases allotted : h.given? guard payload with
      | none =>
          refine ⟨[], ?_⟩
          simp [wouldTake, guarded, Host.allows, allotted, Host.permits, Host.verdict,
            Run.pure_apply]
      | some given =>
          have kept := discreet guard guarded given m.data
          rcases answered : h.call guard given m.data with ⟨answer, data⟩
          obtain rfl : data = m.data := by rw [← kept, answered]
          simp only [wouldTake, guarded, Host.allows, allotted, Host.permits, Host.verdict,
            Run.bind_apply, Host.invoke, answered]
          cases answer with
          | holds => exact ⟨_, rfl⟩
          | refuses => exact ⟨_, rfl⟩
          | fails error => cases fallible : guard.fallible <;> exact ⟨_, rfl⟩

theorem any_discreet (discreet : ∀ t ∈ candidates, h.Discreet t) (m : Machine σ ω) :
    ∃ asked, Run.any (wouldTake h payload) candidates m =
      (candidates.any (h.permits payload m.data), m, asked) := by
  induction candidates with
  | nil => exact ⟨[], rfl⟩
  | cons t rest ih =>
      obtain ⟨first, others⟩ := List.forall_mem_cons.mp discreet
      obtain ⟨asked, here⟩ := wouldTake_discreet payload first m
      obtain ⟨more, later⟩ := ih others
      cases allowed : h.permits payload m.data t with
      | true => exact ⟨asked ++ [], by simp [Run.any, Run.bind_apply, here, allowed, Run.pure_apply]⟩
      | false => exact ⟨asked ++ more, by simp [Run.any, Run.bind_apply, here, allowed, later]⟩

theorem any_consulted (candidates : List Transition) :
    (Run.any (wouldTake h payload) (consulted candidates) : Run σ υ ω Bool) =
      Run.any (wouldTake h payload) candidates := by
  induction candidates with
  | nil => rfl
  | cons t rest ih =>
      cases guard : t.guard with
      | none => simp [consulted, Run.any, wouldTake, guard]
      | some g => simp [consulted, Run.any, guard, ih]

theorem select_discreet (e : Emission) (state : String)
    (discreet : ∀ t ∈ candidates, h.Discreet t) (m : Machine σ ω) :
    (select e h state payload candidates m).1 = candidates.find? (h.permits payload m.data) := by
  rcases select_outcome e h state payload candidates m with
    ⟨nothing, refuses, _⟩ | ⟨t, refused, rest, asked, found, split, refuses, allows, _⟩
  · obtain ⟨_, denials⟩ := refuses.discreet discreet
    rw [nothing, eq_comm, List.find?_eq_none]
    exact fun t member => by simp [denials t member]
  · have selected : h.Discreet t := discreet t (by simp [split])
    obtain ⟨rfl, denials⟩ := refuses.discreet fun u member => discreet u (by simp [split, member])
    rw [selected.verdict_eq] at allows
    rw [found, split, eq_comm, List.find?_eq_some_iff_append]
    refine ⟨(Prod.mk.inj allows).1, refused, rest, rfl, fun u member => ?_⟩
    simp [denials u member]

variable {e : Emission} (accepted : e.Accepted) (trigger : String)
include accepted

theorem canFire_chosen (discreet : ∀ t ∈ e.model.transitions, h.Discreet t) (m : Machine σ ω) :
    ∃ asked, canFire e h trigger payload m = ((chosen? e h payload trigger m).isSome, m, asked) := by
  have each : ∀ t ∈ e.model.candidatesOn m.state trigger, h.Discreet t := fun t candidate =>
    discreet t (candidate_registered accepted candidate).1
  obtain ⟨asked, asking⟩ := any_discreet (visible e payload) each m
  have selecting := select_discreet (visible e payload) e m.state each m
  unfold canFire chosen?
  split
  · refine ⟨asked, ?_⟩
    simp only [any_consulted, selecting, List.isSome_find?]
    exact asking
  · exact ⟨[], rfl⟩

/-- Firing does what was foretold, unless an effect of the selected transition fails. -/
theorem canFire_foretells {m : Machine σ ω} (reachable : Reachable e h m)
    (discreet : ∀ t ∈ e.model.transitions, h.Discreet t) :
    let foretold := canFire e h trigger payload m
    let fired := tryFire e h trigger payload m
    foretold.2.1 = m ∧
      (fired.1 = true → foretold.1 = true) ∧
      (foretold.1 = true → fired.1 = true ∨
        ∃ t ∈ e.model.candidatesOn m.state trigger, chosen? e h payload trigger m = some t ∧
          ∃ c ∈ (course e t m).calls, c.role ≠ .guard ∧ ∃ given error,
            h.given? c (visible e payload) = some given ∧ failuresIn fired.2.2 = [(c, error)] ∧
              ∃ data, (h.call c given data).1 = .fails error) := by
  intro foretold fired
  obtain ⟨asked, question⟩ := canFire_chosen payload accepted trigger discreet m
  simp only [foretold, question, true_and]
  cases chosen : chosen? e h payload trigger m with
  | none => simpa using (tryFire_nothing h trigger payload accepted chosen).1
  | some t =>
      refine ⟨fun _ => rfl, fun _ => ?_⟩
      obtain ⟨candidate, _, performed, _⟩ :=
        tryFire_chosen h trigger payload accepted (reachable_settled accepted reachable) chosen
      cases taken : fired.1 with
      | true => exact .inl rfl
      | false =>
          obtain ⟨before, c, given, rest, error, split, _, failed, _, fails⟩ :=
            performed.part taken
          have planned : (c, given) ∈ h.calls (visible e payload) (course e t m).calls := by
            simp [split]
          obtain ⟨c', listed, allotted⟩ := List.mem_filterMap.mp planned
          obtain ⟨given', handed, same⟩ := Option.map_eq_some_iff.mp allotted
          obtain ⟨rfl, rfl⟩ := Prod.mk.inj same
          have registered := (candidate_registered accepted candidate).1
          exact .inr ⟨t, candidate, rfl, c', listed, course_roles accepted registered m listed,
            given', error, handed, failed, fails⟩

omit accepted in
theorem lamp_foretold :
    let m : Machine Bool Unit := start lamp "High" true
    (canFire lamp lampHost "Power" none m).1 = true ∧
      (tryFire lamp lampHost "Power" none m).1 = false ∧
      ∃ t, chosen? lamp lampHost none "Power" m = some t ∧
        ∃ c ∈ (course lamp t m).calls, (lampHost.call c none true).1 = .fails "jammed" := by
  intro m
  have reachable : Reachable lamp lampHost m := ⟨"High", by decide, true, [], rfl⟩
  have discreet : ∀ t ∈ lamp.model.transitions, lampHost.Discreet t := fun _ _ _ _ _ _ => rfl
  obtain ⟨_, _, foretold⟩ :=
    canFire_foretells none lamp_accepted "Power" reachable discreet
  have asked : (canFire lamp lampHost "Power" none m).1 = true := by decide +kernel
  have refused : (tryFire lamp lampHost "Power" none m).1 = false := by decide +kernel
  rcases foretold asked with taken | ⟨t, _, chosen, c, listed, effect, _, _, _, _, _, _⟩
  · exact absurd taken (by simp [refused])
  · refine ⟨asked, refused, t, chosen, c, listed, ?_⟩
    simp [lampHost, effect]

end Execution

end Statewright
