import Statewright.Proofs.Execution.Session

/-!
# Flat machines

Where no state has a parent, each state is a root without children: a transition leaves its source,
enters its target and records nothing. The code for nested states then does what the code for plain
states does, and a machine runs the same with either.
-/

namespace Statewright

variable {σ υ ω α : Type}

def Emission.flattened (e : Emission) : Emission :=
  { e with model := { e.model with config := { e.model.config with hierarchy := false } } }

theorem Emission.flattened_emitted {e : Emission} (emitted : e.model.emission = .ok e) :
    e.flattened.model.emission = .ok e.flattened := by
  obtain ⟨variant, chosen, parts⟩ := Model.emission_eq_ok.mp emitted
  refine Model.emission_eq_ok.mpr ⟨variant, chosen, ?_⟩
  exact congrArg (fun other => { e.flattened with
    variant := other.variant, payload := other.payload }) parts

theorem Run.all_singleton (step : α → Run σ υ ω Bool) (a : α) : Run.all step [a] = step a := by
  have known : ∀ holds : Bool, (if holds then pure true else pure false : Run σ υ ω Bool) =
      pure holds := by
    intro holds
    cases holds <;> rfl
  simp [Run.all, known]

namespace Hierarchy

variable {h : Hierarchy} (roots : ∀ i, h.parent? i = none)
include roots

theorem scope_roots (source target : Nat) : h.scope? source target = none := by
  unfold scope?
  split
  · exact roots source
  · next apart =>
      rw [ancestorsOrSelf_root (roots source)]
      simp [isIn, ancestorsOrSelf_root (roots target), apart]

theorem exitPath_root (leaf : Nat) : h.exitPath leaf none = [leaf] := by
  rw [exitPath, ancestorsOrSelf_root (roots leaf)]
  rfl

theorem record_root (past : History) (child : Nat) : past.record h child = past := by
  rw [History.record, roots child]

theorem move_roots (leaves : ∀ i, h.entryChild? i = none) (past : History) (source target : Nat) :
    h.move past source source target = (⟨none, [source], [target], target⟩, past) := by
  have resolved : h.resolveEntry past target = target :=
    descend_of_leaf past _ false (leaves target)
  simp [move, scope_roots roots, exitPath_root roots, entryPath, record_root roots, resolved]

end Hierarchy

namespace Execution

section Parentless

variable {e : Emission} (parentless : ∀ s ∈ e.model.states, s.parent = none)
include parentless

theorem ancestors_parentless (state : String) : e.model.ancestors state = [] := by
  unfold Model.ancestors
  cases found : e.model.state? state with
  | none => rfl
  | some s => simp [parentless s (List.mem_of_find?_eq_some found), Model.parentChain]

theorem effectiveTransitions_flattened :
    e.flattened.model.effectiveTransitions = e.model.effectiveTransitions := by
  funext state
  have alone : e.model.effectiveTransitions state = e.model.transitionsFrom state := by
    simp [Model.effectiveTransitions, ancestors_parentless parentless]
  rw [alone]
  exact List.append_nil _

theorem candidatesOn_flattened : e.flattened.model.candidatesOn = e.model.candidatesOn := by
  funext state trigger
  rw [Model.candidatesOn, effectiveTransitions_flattened parentless, Model.candidatesOn]

theorem handledTriggers_flattened :
    e.flattened.model.handledTriggers = e.model.handledTriggers := by
  funext state
  rw [Model.handledTriggers, effectiveTransitions_flattened parentless, Model.handledTriggers]

theorem sortedTriggers_flattened : e.flattened.model.sortedTriggers = e.model.sortedTriggers := by
  funext state
  rw [Model.sortedTriggers, handledTriggers_flattened parentless]
  rfl

theorem definedTriggers_flattened :
    e.flattened.model.definedTriggers = e.model.definedTriggers := by
  funext state
  rw [Model.definedTriggers, handledTriggers_flattened parentless]
  rfl

section Questions

variable (h : Host σ υ ω)

theorem canFire_flattened (trigger : String) (payload : Option υ) :
    canFire e.flattened h trigger payload = canFire e h trigger payload := by
  rw [canFire, canFire, candidatesOn_flattened parentless]
  rfl

theorem permittedAmong_flattened (state : String) (triggers : List String) :
    permittedAmong e.flattened h state triggers = permittedAmong e h state triggers := by
  induction triggers with
  | nil => rfl
  | cons trigger rest ih =>
      rw [permittedAmong, permittedAmong, ih, candidatesOn_flattened parentless]

theorem permittedTriggers_flattened :
    permittedTriggers e.flattened h = permittedTriggers e h := by
  rw [permittedTriggers, permittedTriggers, sortedTriggers_flattened parentless]
  exact bind_congr fun state => permittedAmong_flattened parentless h state _

end Questions

/-! ## Transfers -/

section Transfers

variable (accepted : e.Accepted) (h : Host σ υ ω) (payload : Option υ)
include accepted

theorem leave_root {state : String} (known : state ∈ e.model.states.map StateModel.name) :
    leave e h payload (e.stateIndex state) =
      departing h payload state ((e.model.state? state).bind StateModel.onExit) := by
  obtain ⟨named, place⟩ := stateAt_stateIndex known
  have callback := walkCallback_eq (fun unused s known => (accepted.quiet unused s known).2) place
  funext m
  have roots := Hierarchy.record_root (Model.parentless_root parentless) m.history
  rw [leave, Run.bind_apply, callback, named]
  simp only [Run.change, roots]
  rfl

omit parentless in
theorem enter_eq {state : String} (known : state ∈ e.model.states.map StateModel.name) :
    enter e h payload (e.stateIndex state) =
      arriving h payload state ((e.model.state? state).bind StateModel.onEntry) := by
  obtain ⟨named, place⟩ := stateAt_stateIndex known
  have callback := walkCallback_eq (fun unused s known => (accepted.quiet unused s known).1) place
  rw [enter, callback, named]
  rfl

theorem transfer_flattened {m : Machine σ ω} {t : Transition} {trigger : String}
    (candidate : t ∈ e.model.candidatesOn m.state trigger) :
    transfer e.flattened h payload t m = transfer e h payload t m := by
  obtain ⟨member, level, _⟩ := candidate_registered accepted candidate
  obtain ⟨source, target⟩ := accepted.ends t member
  have leaves : t.source = m.state := by
    simpa [levels, ancestors_parentless parentless] using level
  unfold transfer
  split
  · rfl
  · show flatTransfer e h payload t m = _
    split
    · have moved : (moveOf e t m).1 =
          ⟨none, [e.stateIndex t.source], [e.stateIndex t.target], e.stateIndex t.target⟩ := by
        rw [moveOf, ← leaves, Hierarchy.move_roots (Model.parentless_root parentless)
          (Model.parentless_leaf parentless)]
      rw [nestedTransfer_eq, moved, traverse, Run.all_singleton, Run.all_singleton,
        leave_root parentless accepted h payload source, enter_eq accepted h payload target,
        (stateAt_stateIndex target).1, flatTransfer_eq]
    · rfl

omit parentless accepted in
theorem select_flattened (state : String) (candidates : List Transition) :
    select e.flattened h state payload candidates = select e h state payload candidates := by
  induction candidates with
  | nil => rfl
  | cons t rest ih =>
      rw [select, select, ih]
      rfl

omit parentless accepted in
theorem select_candidate (state : String) (candidates : List Transition) {m : Machine σ ω}
    {t : Transition} (found : t ∈ (select e h state payload candidates m).1) : t ∈ candidates := by
  rcases select_outcome e h state payload candidates m with
    ⟨nothing, _⟩ | ⟨u, refused, rest, _, chosen, split, _⟩
  · simp [nothing] at found
  · obtain rfl : u = t := by simpa [chosen] using found
    simp [split]

theorem conclude_flattened {m : Machine σ ω} {trigger : String} {found : Option Transition}
    (candidate : ∀ t ∈ found, t ∈ e.model.candidatesOn m.state trigger) (state : String) :
    conclude e.flattened h state payload found m = conclude e h state payload found m := by
  cases found with
  | none => rfl
  | some t =>
      have transferred := transfer_flattened parentless accepted h payload (candidate t rfl)
      exact Run.bind_congr_at transferred _

theorem tryFire_flattened (trigger : String) (m : Machine σ ω) :
    tryFire e.flattened h trigger payload m = tryFire e h trigger payload m := by
  let given := visible e payload
  let candidates := e.model.candidatesOn m.state trigger
  rw [tryFire_eq, tryFire_eq, select_flattened, candidatesOn_flattened parentless]
  show (if passes e h trigger given then
      (select e h m.state given candidates >>= conclude e.flattened h m.state given) m
    else (false, m, [])) = _
  have stays := (select_still e h m.state given candidates).state m
  have chosen : ∀ t ∈ (select e h m.state given candidates m).1,
      t ∈ e.model.candidatesOn (select e h m.state given candidates m).2.1.state trigger := by
    intro t found
    rw [stays]
    exact select_candidate h given m.state candidates found
  split
  · rw [Run.bind_apply, Run.bind_apply, conclude_flattened parentless accepted h given chosen]
  · rfl

theorem call_flattened (call : Call σ υ ω) (m : Machine σ ω) :
    call.run e.flattened h m = call.run e h m := by
  have states : e.flattened.model.states = e.model.states := rfl
  have defined := definedTriggers_flattened parentless
  cases call with
  | tryFire trigger payload =>
      exact Run.bind_congr_at (tryFire_flattened parentless accepted h payload trigger m) _
  | fire trigger payload =>
      have fired := tryFire_flattened parentless accepted h payload trigger m
      rw [Call.run, Call.run, Run.return_apply, Run.return_apply, fire_apply, fire_apply, fired]
  | canFire trigger payload => rw [Call.run, Call.run, canFire_flattened parentless]
  | permittedTriggers => rw [Call.run, Call.run, permittedTriggers_flattened parentless]
  | definedTriggers =>
      have same := listedTriggers_congr states defined m.state
      exact congrArg (fun triggers => (Reply.names triggers, m, [])) same
  | hasTransition trigger =>
      have same := matchesPattern_congr states defined m.state trigger
      exact congrArg (fun answer => (Reply.truth answer, m, [])) same
  | _ => rfl

end Transfers

end Parentless

end Execution

/-! ## Histories that nobody reads -/

def Run.Oblivious (r : Run σ υ ω α) : Prop :=
  ∀ m past, r { m with history := past } =
    ((r m).1, { (r m).2.1 with history := past }, (r m).2.2)

theorem oblivious_closed (h : Host σ υ ω) : Run.MoveClosed h Run.Oblivious where
  pure _ := fun _ _ => rfl
  bind first rest := by
    intro m past
    rw [Run.bind_apply, first, rest]
    rfl
  invoke _ _ := fun _ _ => rfl
  guardFailed _ _ := fun _ _ => rfl
  log _ _ := fun _ _ => rfl
  settle _ := fun _ _ => rfl

namespace Execution

theorem call_oblivious {e : Emission} (flat : e.isHierarchical = false) (h : Host σ υ ω)
    (call : Call σ υ ω) : (call.run e h).Oblivious := by
  have closed := oblivious_closed h
  have tells (a : Attempt υ) (hook : Hook) : (tell e h a hook).Oblivious := by
    intro m past
    unfold tell
    split <;> rfl
  have transfers (given : Option υ) (t : Transition) : (transfer e h given t).Oblivious := by
    unfold transfer
    split
    · exact closed.perform? _ given
    · rw [flat]
      exact closed.flatTransfer e given t
  exact call_closed closed.toClosed (fun _ _ => rfl) tells transfers (fun _ _ _ => rfl)
    fun _ _ _ _ => rfl

def Step.shown (step : Step σ υ ω) : Reply × List (TraceEntry υ) × String × σ × List ω :=
  (step.reply, step.trace, step.after.state, step.after.data, step.after.extensions)

section Parentless

variable {e : Emission} (accepted : e.Accepted)
  (parentless : ∀ s ∈ e.model.states, s.parent = none) (h : Host σ υ ω)
include accepted parentless

theorem step_flattened (call : Call σ υ ω) (m : Machine σ ω) (past : History) :
    (stepOf e.flattened h { m with history := past } call).shown = (stepOf e h m call).shown ∧
      (stepOf e.flattened h { m with history := past } call).after =
        { (stepOf e h m call).after with history := past } := by
  have lifted := call_oblivious (e := e.flattened) rfl h call m past
  rw [call_flattened parentless accepted h call m] at lifted
  simp [stepOf, Step.shown, lifted]

theorem session_flattened (calls : List (Call σ υ ω)) (m : Machine σ ω) (past : History) :
    (session e.flattened h { m with history := past } calls).map Step.shown =
      (session e h m calls).map Step.shown := by
  induction calls generalizing m with
  | nil => rfl
  | cons call rest ih =>
      obtain ⟨shown, after⟩ := step_flattened accepted parentless h call m past
      rw [session, session, List.map_cons, List.map_cons, shown, after, ih]

omit accepted in
theorem start_flattened {state : String} (declared : state ∈ e.model.states.map StateModel.name)
    (data : σ) :
    (start e.flattened state data : Machine σ ω) =
      { start e state data with history := History.ofSize 0 } := by
  have resolved (past : History) :
      e.model.hierarchy.resolveEntry past (e.stateIndex state) = e.stateIndex state :=
    Hierarchy.descend_of_leaf past _ false (Model.parentless_leaf parentless _)
  have flat : e.flattened.isHierarchical = false := rfl
  cases nested : e.isHierarchical <;>
    simp [start, nested, flat, resolved, (stateAt_stateIndex declared).1]

/-- A machine without parents runs the same whether it is emitted for nested states or for plain
ones. -/
theorem nesting_unnoticed {state : String}
    (declared : state ∈ e.model.states.map StateModel.name) (data : σ)
    (calls : List (Call σ υ ω)) :
    e.flattened.model.emission = .ok e.flattened ∧
      (session e.flattened h (start e.flattened state data) calls).map Step.shown =
        (session e h (start e state data) calls).map Step.shown := by
  constructor
  · obtain ⟨_, _, _, emitted⟩ := accepted
    exact Emission.flattened_emitted emitted
  · rw [start_flattened parentless declared]
    exact session_flattened accepted parentless h calls (start e state data) (History.ofSize 0)

end Parentless

section PlainLamp

open Declaration

def plainLampFacts : MachineFacts :=
  { lampFacts with
    declarations :=
      [⟨.machine { state := some (.word "State"), trigger := some (.word "Trigger"),
                   hierarchy := true }, ⟨1, 0⟩⟩,
       ⟨.state { state := lampReference "On", onExit := some "cool" }, ⟨1, 0⟩⟩,
       ⟨.transition ⟨lampReference "Off", lampReference "Power", lampReference "On", none, none⟩,
         ⟨1, 0⟩⟩,
       ⟨.transition ⟨lampReference "On", lampReference "Boost", lampReference "On", none, none⟩,
         ⟨1, 0⟩⟩,
       ⟨.transition ⟨lampReference "On", lampReference "Power", lampReference "Off", none, none⟩,
         ⟨1, 0⟩⟩] }

def plainLamp : Emission where
  model :=
    { name := "Lamp"
      module := some "lamp"
      states :=
        [{ name := "Off" },
         { name := "On"
           onExit := some { name := "cool", role := .onExit, fallible := true } },
         { name := "Low" }, { name := "High" }]
      triggers := ["Power", "Boost"]
      transitions :=
        [{ source := "Off", trigger := "Power", target := "On" },
         { source := "On", trigger := "Boost", target := "On" },
         { source := "On", trigger := "Power", target := "Off" }]
      config := { variant := .basic, hasEntryExit := true, hierarchy := true } }
  variant := .basic
  payload := .none

theorem plainLamp_accepted : plainLamp.Accepted := ⟨plainLampFacts, lampModule, rfl, rfl⟩

theorem plain_lamp_either_way :
    plainLamp.isHierarchical ∧ (∀ s ∈ plainLamp.model.states, s.parent = none) ∧
      ∀ jammed calls,
        (session plainLamp.flattened lampHost (start plainLamp.flattened "Off" jammed) calls).map
            Step.shown =
          (session plainLamp lampHost (start plainLamp "Off" jammed) calls).map Step.shown := by
  have parentless : ∀ s ∈ plainLamp.model.states, s.parent = none := by
    simp [plainLamp]
  refine ⟨rfl, parentless, fun jammed calls => ?_⟩
  have declared : "Off" ∈ plainLamp.model.states.map StateModel.name := by decide
  exact (nesting_unnoticed plainLamp_accepted parentless lampHost declared jammed calls).2

end PlainLamp

end Execution

end Statewright
