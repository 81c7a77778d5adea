import Statewright.Proofs.Execution.Session

/-!
# Active paths

Among nested states, a transition that is taken leaves what the old active path has below the scope
and enters what the new one has below it. Over a session entries and exits therefore balance.
-/

namespace Statewright.Execution

variable {σ υ ω : Type} {e : Emission}

def keptNames (e : Emission) (t : Transition) : List String :=
  let scope := e.model.hierarchy.scope? (e.stateIndex t.source) (e.stateIndex t.target)
  (e.model.hierarchy.keptPath scope).map (stateAt e)

def enteredOver (log : List (Step σ υ ω)) : List String := log.flatMap fun s => enteredIn s.trace

def exitedOver (log : List (Step σ υ ω)) : List String := log.flatMap fun s => exitedIn s.trace

def activity (e : Emission) (m : Machine σ ω) (state : String) : Int :=
  if state ∈ activePath e m then 1 else 0

theorem childless {state : String} (known : state ∈ e.model.states.map StateModel.name)
    (final : e.model.hierarchy.entryChild? (e.stateIndex state) = none) :
    ∀ s ∈ e.model.states, s.parent ≠ some state := by
  intro s member parent
  obtain ⟨_, place⟩ := stateAt_stateIndex known
  obtain ⟨owner, here, named, _⟩ := state?_stateAt place
  rw [(stateAt_stateIndex known).1] at named
  have child : s ∈ e.model.childrenOf owner.name :=
    Model.mem_childrenOf.mpr ⟨member, named.symm ▸ parent⟩
  have composite : e.model.isComposite owner.name := by
    simpa [Model.isComposite] using List.ne_nil_of_mem child
  simpa [final] using (Model.entryChild?_place here).mpr composite

theorem internal_still {t : Transition} {m n : Machine σ ω} {trace : List (TraceEntry υ)}
    (internal : t.internal) (walked : (course e t m).Walked e.model.hierarchy m (true, n, trace)) :
    n.state = m.state ∧ exitedIn trace = [] ∧ enteredIn trace = [] := by
  obtain ⟨state, _, exited, entered⟩ := walked.done rfl
  rw [course_internal internal] at state exited entered
  exact ⟨state, exited, entered⟩

section Accepted

variable (accepted : e.Accepted) (nested : e.isHierarchical) {m : Machine σ ω}
  (settled : Settled e m)
include accepted nested settled

theorem activePath_nodup : (activePath e m).Nodup := by
  have wf := accepted.tables nested
  have listed {i : Nat} (member : i ∈ e.model.hierarchy.activePath (e.stateIndex m.state)) :
      e.model.IsPlace i := wf.chain_listed settled.place (List.mem_reverse.mp member)
  refine List.Nodup.map_on ?_ (List.nodup_reverse.mpr (wf.chain_nodup _))
  exact fun i left j right same => stateAt_inj (listed left) (listed right) same

theorem activity_eq (state : String) :
    activity e m state = ((activePath e m).count state : Int) := by
  rw [(activePath_nodup accepted nested settled).count, activity]
  split <;> rfl

theorem taken_paths {t : Transition} {trigger : String} {n : Machine σ ω}
    {trace : List (TraceEntry υ)} (candidate : t ∈ e.model.candidatesOn m.state trigger)
    (external : t.internal = false)
    (walked : (course e t m).Walked e.model.hierarchy m (true, n, trace)) :
    activePath e m = keptNames e t ++ (exitedIn trace).reverse ∧
      activePath e n = keptNames e t ++ enteredIn trace := by
  have wf := accepted.tables nested
  have member := (candidate_registered accepted candidate).1
  have active := candidate_active accepted nested settled.known candidate
  have aimed := target_place accepted member
  have before : e.model.hierarchy.activePath (e.stateIndex m.state) = _ ++
      (moveOf e t m).1.exits.reverse := wf.move_before m.history active
  have behind : e.model.hierarchy.activePath (moveOf e t m).1.leaf = _ ++
      (moveOf e t m).1.entries := wf.move_after (settled.sound nested) settled.place aimed
  have place := (move_arrival accepted settled member nested).1
  rw [course_nested nested external] at walked
  obtain ⟨state, _, exited, entered⟩ := walked.done rfl
  constructor
  · rw [exited, activePath, before, List.map_append, List.map_reverse]
    rfl
  · rw [entered, activePath, state, courseThrough, index_stateAt place, behind, List.map_append]
    rfl

variable {h : Host σ υ ω}

theorem step_paths (call : Call σ υ ω) (quiet : failuresIn (stepOf e h m call).trace = []) :
    ∃ kept, activePath e m = kept ++ (exitedIn (stepOf e h m call).trace).reverse ∧
      activePath e (stepOf e h m call).after = kept ++ enteredIn (stepOf e h m call).trace := by
  have unmoved (state : (stepOf e h m call).after.state = m.state)
      (exited : exitedIn (stepOf e h m call).trace = [])
      (entered : enteredIn (stepOf e h m call).trace = []) :
      ∃ kept, activePath e m = kept ++ (exitedIn (stepOf e h m call).trace).reverse ∧
        activePath e (stepOf e h m call).after = kept ++ enteredIn (stepOf e h m call).trace :=
    ⟨activePath e m, by simp [exited], by simp [activePath, state, entered]⟩
  rcases call_outcome (h := h) accepted settled call with
    ⟨_, state, _, exited, entered⟩ | ⟨trigger, _, t, _, _, candidate, walked, taken⟩
  · exact unmoved state exited entered
  · rw [taken quiet] at walked
    cases internal : t.internal with
    | false => exact ⟨_, taken_paths accepted nested settled candidate internal walked⟩
    | true =>
        obtain ⟨state, exited, entered⟩ := internal_still internal walked
        exact unmoved state exited entered

theorem step_balanced (call : Call σ υ ω) (quiet : failuresIn (stepOf e h m call).trace = [])
    (state : String) :
    ((enteredIn (stepOf e h m call).trace).count state : Int) -
        (exitedIn (stepOf e h m call).trace).count state =
      activity e (stepOf e h m call).after state - activity e m state := by
  obtain ⟨kept, before, behind⟩ := step_paths accepted nested settled call quiet
  rw [activity_eq accepted nested settled,
    activity_eq accepted nested (step_settled accepted settled call), before, behind]
  simp only [List.count_append, List.count_reverse]
  omega

theorem session_balanced (calls : List (Call σ υ ω))
    (quiet : ∀ step ∈ session e h m calls, failuresIn step.trace = []) (state : String) :
    ((enteredOver (session e h m calls)).count state : Int) -
        (exitedOver (session e h m calls)).count state =
      activity e (after e h m calls) state - activity e m state := by
  induction calls generalizing m with
  | nil => simp [session, enteredOver, exitedOver, after]
  | cons call rest ih =>
      have first := step_balanced accepted nested settled call
        (quiet _ List.mem_cons_self) state
      have later := ih (step_settled accepted settled call)
        fun step member => quiet step (List.mem_cons_of_mem _ member)
      simp only [session, enteredOver, exitedOver, List.flatMap_cons, List.count_append] at later ⊢
      have same : after e h m (call :: rest) = after e h (stepOf e h m call).after rest := rfl
      rw [same]
      omega

end Accepted

/-- The current state has no children, slots hold children, what a transition leaves and enters are
the ends of two active paths, and over a session without failures entries and exits balance. -/
theorem session_consistent (accepted : e.Accepted) (nested : e.isHierarchical) (h : Host σ υ ω)
    {state : String} (declared : state ∈ e.model.states.map StateModel.name) (data : σ)
    (calls : List (Call σ υ ω)) :
    let first : Machine σ ω := start e state data
    let m := after e h first calls
    (∀ s ∈ e.model.states, s.parent ≠ some m.state) ∧
      (∀ i c, m.history.lastActive? i = some c → ∃ composite child,
        e.model.states[i]? = some composite ∧ e.model.states[c]? = some child ∧
          child.parent = some composite.name) ∧
      (∀ trigger payload, (tryFire e h trigger payload m).1 = true →
        ∃ t, chosen? e h payload trigger m = some t ∧
          if t.internal then
            (tryFire e h trigger payload m).2.1.state = m.state ∧
              exitedIn (tryFire e h trigger payload m).2.2 = [] ∧
              enteredIn (tryFire e h trigger payload m).2.2 = []
          else
            activePath e m =
                keptNames e t ++ (exitedIn (tryFire e h trigger payload m).2.2).reverse ∧
              activePath e (tryFire e h trigger payload m).2.1 =
                keptNames e t ++ enteredIn (tryFire e h trigger payload m).2.2) ∧
      ((∀ step ∈ session e h first calls, failuresIn step.trace = []) → ∀ s,
        ((enteredOver (session e h first calls)).count s : Int) -
            (exitedOver (session e h first calls)).count s =
          activity e m s - activity e first s) := by
  intro first m
  have begun : Settled e first := start_settled accepted declared data
  have settled : Settled e m := after_settled accepted begun calls
  refine ⟨childless settled.known (settled.final nested),
    fun i c remembered => Model.parent?_eq_some (settled.sound nested i c remembered).1, ?_,
    session_balanced accepted nested begun calls⟩
  intro trigger payload taken
  cases chosen : chosen? e h payload trigger m with
  | none =>
      have rejected := (tryFire_nothing h trigger payload accepted chosen).1
      rw [taken] at rejected
      cases rejected
  | some t =>
      obtain ⟨candidate, walked, _⟩ := tryFire_chosen h trigger payload accepted settled chosen
      refine ⟨t, rfl, ?_⟩
      rcases ran : tryFire e h trigger payload m with ⟨holds, n, trace⟩
      rw [ran] at taken walked
      obtain rfl : holds = true := taken
      split
      · next internal => exact internal_still internal walked
      · next external =>
          exact taken_paths accepted nested settled candidate (by simpa using external) walked

theorem lamp_balanced :
    let log := session lamp lampHost (lampOff false) brighten
    (∀ s ∈ lamp.model.states, s.parent ≠ some "High") ∧
      ∀ s, ((enteredOver log).count s : Int) - (exitedOver log).count s =
        activity lamp (after lamp lampHost (lampOff false) brighten) s -
          activity lamp (lampOff false) s := by
  have declared : "Off" ∈ lamp.model.states.map StateModel.name := by decide
  have quiet : ((session lamp lampHost (lampOff false) brighten).all fun step =>
      (failuresIn step.trace).isEmpty) = true := by decide +kernel
  have state : (after lamp lampHost (lampOff false) brighten).state = "High" := by decide +kernel
  obtain ⟨leaf, _, _, balanced⟩ :=
    session_consistent lamp_accepted rfl lampHost declared false brighten
  rw [← state]
  exact ⟨leaf, balanced fun step member =>
    List.isEmpty_iff.mp (List.all_eq_true.mp quiet step member)⟩

end Statewright.Execution
