import Statewright.Proofs.Execution.Narration

/-!
# Failure

A trigger that is rejected leaves the machine in its state. What a failed transition records stays
within the active path, and nobody can tell: machines whose histories differ there only answer all
further calls alike.
-/

namespace Statewright.Execution

variable {σ υ ω : Type} {e : Emission}

/-- Two machines that differ in extensions and in slots of active states at most. -/
structure Twins (e : Emission) (m n : Machine σ ω) : Prop where
  first : Settled e m
  second : Settled e n
  state : n.state = m.state
  data : n.data = m.data
  outside : e.isHierarchical →
    m.history.AgreeOutside n.history e.model.hierarchy (e.stateIndex m.state)

/-- What a user sees of a call: its reply, what was left, entered and called, the state and the
data. -/
def Step.observed (step : Step σ υ ω) : Reply × List (TraceEntry υ) × String × σ :=
  (step.reply, untold step.trace, step.after.state, step.after.data)

theorem tryFire_steady (h : Host σ υ ω) (payload : Option υ) (trigger : String) :
    Steady (tryFire e h trigger payload) :=
  (steady_closed h).tryFire payload tell_steady (fun _ => rfl)
    (fun given t => .of_unheard (transfer_unheard e h given t)) trigger

theorem Twins.of_same {m n m' n' : Machine σ ω} (twins : Twins e m n) (state : m'.state = m.state)
    (history : m'.history = m.history) (state' : n'.state = n.state)
    (history' : n'.history = n.history) (data : n'.data = m'.data) : Twins e m' n' := by
  obtain ⟨first, second, same, _, outside⟩ := twins
  refine ⟨first.of_same state history, second.of_same state' history', ?_, data, fun nested => ?_⟩
  · rw [state, state', same]
  · rw [state, history, history']
    exact outside nested

section Accepted

variable (accepted : e.Accepted) {m n : Machine σ ω} (twins : Twins e m n) {h : Host σ υ ω}
include accepted twins

theorem twin_move (nested : e.isHierarchical) {t : Transition} {trigger : String}
    (candidate : t ∈ e.model.candidatesOn m.state trigger) :
    (moveOf e t n).1 = (moveOf e t m).1 ∧
      (moveOf e t m).2.AgreeOutside (moveOf e t n).2 e.model.hierarchy
        (moveOf e t m).1.leaf := by
  obtain ⟨first, second, state, _, outside⟩ := twins
  have member := (candidate_registered accepted candidate).1
  have aimed := target_place accepted member
  have active := candidate_active accepted nested first.known candidate
  have moves := (accepted.tables nested).move_congr (first.sound nested) first.place
    (second.sound nested) active aimed (first.final nested) (outside nested) (first.size nested)
    (second.size nested)
  rw [moveOf, state]
  exact moves

theorem twin_course {t : Transition} {trigger : String}
    (candidate : t ∈ e.model.candidatesOn m.state trigger) : course e t n = course e t m := by
  unfold course
  split
  · rw [twins.state]
  · split
    · next nested => rw [(twin_move accepted twins nested candidate).1]
    · rfl

theorem twin_transfer (payload : Option υ) {t : Transition} {trigger : String}
    (candidate : t ∈ e.model.candidatesOn m.state trigger) :
    transfer e h payload t n = follow e h payload t (moveOf e t m).1 n := by
  rw [transfer_follow, follow, follow]
  split
  · rfl
  · split
    · next nested => rw [(twin_move accepted twins nested candidate).1]
    · rfl

theorem twin_conclude (state : String) (payload : Option υ) {t : Transition} {trigger : String}
    (candidate : t ∈ e.model.candidatesOn m.state trigger) :
    Run.Alike (conclude e h state payload (some t) m) (conclude e h state payload (some t) n) := by
  have uniform : (follow e h payload t (moveOf e t m).1 >>= fun taken =>
      tell e h (attemptOf state payload t) (.after taken) >>= fun _ => pure taken).Uniform :=
    (follow_uniform e h payload t _).bind fun taken =>
      (tell_still e h (attemptOf state payload t) (.after taken)).uniform.bind fun _ => .pure taken
  have one : conclude e h state payload (some t) m = _ :=
    Run.bind_congr_at (transfer_follow e h payload m t) _
  have other : conclude e h state payload (some t) n = _ :=
    Run.bind_congr_at (twin_transfer accepted twins payload candidate) _
  rw [one, other]
  exact uniform m n twins.data.symm

omit accepted in
theorem twin_chosen (trigger : String) (payload : Option υ) :
    chosen? e h payload trigger n = chosen? e h payload trigger m := by
  have alike := (select_still e h m.state (visible e payload)
    (e.model.candidatesOn m.state trigger)).uniform n m twins.data
  rw [chosen?, chosen?, twins.state, alike.1]

theorem twin_tryFire (trigger : String) (payload : Option υ) :
    Run.Alike (tryFire e h trigger payload m) (tryFire e h trigger payload n) := by
  cases passed : passes e h trigger (visible e payload) with
  | false =>
      rw [tryFire_eq, tryFire_eq, passed]
      exact ⟨rfl, twins.data.symm, rfl⟩
  | true =>
      have still := select_still e h m.state (visible e payload)
        (e.model.candidatesOn m.state trigger)
      have alike := still.uniform m n twins.data.symm
      have outcome := select_outcome e h m.state (visible e payload)
        (e.model.candidatesOn m.state trigger) m
      rcases one : select e h m.state (visible e payload) (e.model.candidatesOn m.state trigger) m
        with ⟨found, m₁, asked⟩
      rcases other : select e h m.state (visible e payload) (e.model.candidatesOn m.state trigger) n
        with ⟨found', n₁, asked'⟩
      obtain ⟨state, history, _⟩ := still.of_eq one
      obtain ⟨state', history', _⟩ := still.of_eq other
      rw [one, other] at alike
      obtain ⟨rfl, data, same⟩ := alike
      rw [tryFire_eq, tryFire_eq, if_pos passed, if_pos passed, twins.state, Run.bind_apply,
        Run.bind_apply, one, other]
      cases found with
      | none =>
          refine ⟨rfl, data, ?_⟩
          show untold (asked ++ []) = untold (asked' ++ [])
          simpa using same
      | some t =>
          rw [one] at outcome
          rcases outcome with ⟨found, _⟩ | ⟨u, refused, rest, _, found, split, _⟩
          · cases found
          obtain rfl := Option.some.inj found
          have candidate : t ∈ e.model.candidatesOn m₁.state trigger := by simp [state, split]
          have ready : Twins e m₁ n₁ := twins.of_same state history state' history' data.symm
          obtain ⟨answer, last, trace⟩ :=
            twin_conclude accepted ready m.state (visible e payload) candidate (h := h)
          exact ⟨answer, last, by simp [same, trace]⟩

theorem twin_walked {t : Transition} {trigger : String}
    (candidate : t ∈ e.model.candidatesOn m.state trigger)
    {one other : Bool × Machine σ ω × List (TraceEntry υ)}
    (walked : (course e t m).Walked e.model.hierarchy m one)
    (walked' : (course e t n).Walked e.model.hierarchy n other) (alike : Run.Alike one other) :
    Twins e one.2.1 other.2.1 := by
  have member := (candidate_registered accepted candidate).1
  have same := twin_course accepted twins candidate
  refine ⟨walked_settled accepted twins.first member walked,
    walked_settled accepted twins.second member walked', ?_, alike.2.1.symm, fun nested => ?_⟩
  · cases taken : one.1 with
    | false =>
        rw [(walked.broken taken).1, (walked'.broken (alike.1 ▸ taken)).1, twins.state]
    | true => rw [(walked.done taken).1, (walked'.done (alike.1 ▸ taken)).1, same]
  · have wf := accepted.tables nested
    cases taken : one.1 with
    | false =>
        obtain ⟨state, prior, inside, history⟩ := walked.broken taken
        obtain ⟨_, prior', inside', history'⟩ := walked'.broken (alike.1 ▸ taken)
        have recorded {left : List Nat} (past : History) (part : left <+: (course e t m).left) :=
          wf.recordAll_outside past fun i within =>
            (course_left accepted twins.first (part.subset within)).1
        rw [state, history, history']
        intro i apart
        rw [recorded n.history (same ▸ inside') i apart, twins.outside nested i apart,
          recorded m.history inside i apart]
    | true =>
        obtain ⟨state, history, _⟩ := walked.done taken
        obtain ⟨_, history', _⟩ := walked'.done (alike.1 ▸ taken)
        rw [state, history, history']
        cases internal : t.internal with
        | true =>
            rw [course_internal internal, course_internal internal]
            exact twins.outside nested
        | false =>
            obtain ⟨_, agree⟩ := twin_move accepted twins nested candidate
            rw [course_nested nested internal, course_nested nested internal, courseThrough,
              index_stateAt (move_arrival accepted twins.first member nested).1]
            exact agree

theorem twin_after (trigger : String) (payload : Option υ) :
    Twins e (tryFire e h trigger payload m).2.1 (tryFire e h trigger payload n).2.1 := by
  have alike := twin_tryFire accepted twins (h := h) trigger payload
  have same := twin_chosen twins (h := h) trigger payload
  cases chosen : chosen? e h payload trigger m with
  | none =>
      obtain ⟨_, state, history, _⟩ := tryFire_nothing h trigger payload accepted chosen
      obtain ⟨_, state', history', _⟩ :=
        tryFire_nothing h trigger payload accepted (same.trans chosen)
      exact twins.of_same state history state' history' alike.2.1.symm
  | some t =>
      obtain ⟨candidate, walked, _⟩ := tryFire_chosen h trigger payload accepted twins.first chosen
      obtain ⟨_, walked', _⟩ :=
        tryFire_chosen h trigger payload accepted twins.second (same.trans chosen)
      exact twin_walked accepted twins candidate walked walked' alike

theorem twin_step (call : Call σ υ ω) :
    (stepOf e h n call).observed = (stepOf e h m call).observed ∧
      Twins e (stepOf e h m call).after (stepOf e h n call).after := by
  cases fires : call.fires? with
  | none =>
      obtain ⟨r, still, same⟩ := call_still (h := h) (e := e) fires m.state
      obtain ⟨reply, data, trace⟩ := still.uniform m n twins.data.symm
      simp only [Step.observed, stepOf, same m rfl, same n twins.state]
      constructor
      · rw [reply, data, trace, still.state, still.state, twins.state]
      · exact twins.of_same (still.state m) (still.history m) (still.state n) (still.history n)
          data.symm
  | some attempt =>
      obtain ⟨trigger, payload⟩ := attempt
      have alike := twin_tryFire accepted twins (h := h) trigger payload
      have next := twin_after accepted twins (h := h) trigger payload
      have reply : (call.run e h n).1 = (call.run e h m).1 := by
        cases call with
        | tryFire trigger payload =>
            cases fires
            rw [Call.run, Run.return_apply, Run.return_apply, alike.1]
        | fire trigger payload =>
            cases fires
            rw [Call.run, Run.return_apply, Run.return_apply, fire_apply, fire_apply, alike.1,
              twins.state]
        | _ => cases fires
      have run := (call_fires (h := h) (e := e) fires m).1
      have run' := (call_fires (h := h) (e := e) fires n).1
      simp only [Step.observed, stepOf, reply, run, run']
      exact ⟨by rw [alike.2.1, alike.2.2, next.state], next⟩

theorem twin_session (calls : List (Call σ υ ω)) :
    (session e h n calls).map Step.observed = (session e h m calls).map Step.observed := by
  induction calls generalizing m n with
  | nil => rfl
  | cons call rest ih =>
      obtain ⟨same, next⟩ := twin_step accepted twins (h := h) call
      exact congrArg₂ List.cons same (ih next)

end Accepted

/-- A rejected trigger leaves the state; of one candidate's effects those up to the first failure
ran, and what is recorded of them stays unseen. -/
theorem rejection_unobservable (accepted : e.Accepted) (h : Host σ υ ω) {m : Machine σ ω}
    (reachable : Reachable e h m) :
    (∀ trigger payload, (tryFire e h trigger payload m).1 = false →
      let given := visible e payload
      let trace := (tryFire e h trigger payload m).2.2
      let n := (tryFire e h trigger payload m).2.1
      n.state = m.state ∧
        (fire e h trigger payload m).1 =
          .error { state := m.state, trigger, payloadType := payload.map h.typeName } ∧
        n.extensions.length = m.extensions.length ∧
        (if e.isHierarchical then
          m.history.AgreeOutside n.history e.model.hierarchy (e.stateIndex m.state)
        else n.history = m.history) ∧
        ((chosen? e h payload trigger m = none ∧ effectsIn trace = [] ∧ failuresIn trace = []) ∨
          ∃ t ∈ e.model.candidatesOn m.state trigger, chosen? e h payload trigger m = some t ∧
            ∃ before c allotted rest error,
              h.calls given (course e t m).calls = before ++ (c, allotted) :: rest ∧
              effectsIn trace = before ++ [(c, allotted)] ∧ failuresIn trace = [(c, error)] ∧
              c.fallible ∧ ∃ data, (h.call c allotted data).1 = .fails error)) ∧
      ∀ n, Reachable e h n → n.state = m.state → n.data = m.data →
        (e.isHierarchical →
          m.history.AgreeOutside n.history e.model.hierarchy (e.stateIndex m.state)) →
        ∀ calls,
          (session e h n calls).map Step.observed = (session e h m calls).map Step.observed := by
  have settled := reachable_settled accepted reachable
  constructor
  · intro trigger payload rejected given trace n
    have refused : (fire e h trigger payload m).1 =
        .error { state := m.state, trigger, payloadType := payload.map h.typeName } := by
      rw [fire_apply, rejected]
      rfl
    have crew := tryFire_steady (e := e) h payload trigger m
    cases chosen : chosen? e h payload trigger m with
    | none =>
        obtain ⟨_, state, history, _, _, effects, failures⟩ :=
          tryFire_nothing h trigger payload accepted chosen
        refine ⟨state, refused, crew, ?_, .inl ⟨rfl, effects, failures⟩⟩
        split
        · exact fun i _ => congrArg (History.lastActive? · i) history
        · exact history
    | some t =>
        obtain ⟨candidate, walked, performed, _⟩ :=
          tryFire_chosen h trigger payload accepted settled chosen
        obtain ⟨state, prior, inside, history⟩ := walked.broken rejected
        refine ⟨state, refused, crew, ?_, .inr ⟨t, candidate, rfl, performed.part rejected⟩⟩
        split
        · next nested =>
            simp only [n, history]
            exact (accepted.tables nested).recordAll_outside m.history fun i within =>
              (course_left accepted settled (inside.subset within)).1
        · next flat =>
            rw [course_flat flat, List.prefix_nil] at inside
            exact history.trans (by rw [inside]; rfl)
  · intro n reached state data outside calls
    have twins : Twins e m n :=
      ⟨settled, reachable_settled accepted reached, state, data, outside⟩
    exact twin_session accepted twins calls

theorem lamp_stays_on :
    let m := after lamp lampHost (lampOff true) brighten
    let n := (tryFire lamp lampHost "Power" none m).2.1
    n.state = m.state ∧
      (fire lamp lampHost "Power" none m).1 = .error ⟨m.state, "Power", none⟩ ∧
      ∀ calls, (session lamp lampHost n calls).map Step.observed =
        (session lamp lampHost m calls).map Step.observed := by
  intro m n
  have declared : "Off" ∈ lamp.model.states.map StateModel.name := by decide
  have reachable : Reachable lamp lampHost m := ⟨"Off", declared, true, brighten, rfl⟩
  have reached : Reachable lamp lampHost n := by
    have fires : (Call.tryFire "Power" none : Call Bool Unit Unit).fires? = some ("Power", none) :=
      rfl
    exact ⟨"Off", declared, true, flash, (congrArg Prod.fst (call_fires fires m).1).symm⟩
  obtain ⟨rejects, unseen⟩ := rejection_unobservable lamp_accepted lampHost reachable
  obtain ⟨state, refused, _, outside, _⟩ := rejects "Power" none (by decide +kernel)
  exact ⟨state, refused, unseen n reached state (by decide +kernel) fun _ => outside⟩

end Statewright.Execution
