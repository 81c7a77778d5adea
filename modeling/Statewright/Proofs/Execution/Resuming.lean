import Mathlib.Data.List.Induction
import Statewright.Proofs.Execution.Paths

/-!
# Resuming

What entering a composite state resumes is decided when it is left for the last time: transitions
that fail and transitions elsewhere have no part in it.
-/

namespace Statewright.Execution

variable {σ υ ω : Type} {e : Emission}

def resume (e : Emission) (m : Machine σ ω) (state : String) : String :=
  stateAt e (e.model.hierarchy.resolveEntry m.history (e.stateIndex state))

def pathTo (e : Emission) (state : String) : List String :=
  (e.model.hierarchy.activePath (e.stateIndex state)).map (stateAt e)

def Step.leaves (step : Step σ υ ω) (state : String) : Bool :=
  step.committed && (exitedIn step.trace).contains state

/-- The leaf that was active when a state was left by the last transition that left it. -/
def lastLeft? (state : String) (log : List (Step σ υ ω)) : Option String :=
  (log.reverse.find? (·.leaves state)).map (·.before.state)

theorem lastLeft?_snoc (state : String) (log : List (Step σ υ ω)) (step : Step σ υ ω) :
    lastLeft? state (log ++ [step]) =
      if step.leaves state then some step.before.state else lastLeft? state log := by
  unfold lastLeft?
  cases leaves : step.leaves state <;> simp [leaves]

/-- What the history knows of a state that is not active: nothing if it never was, else the way
back to the leaf it was left from. -/
def Remembered (e : Emission) (log : List (Step σ υ ω)) (m : Machine σ ω) (c : Nat) : Prop :=
  c ∉ e.model.hierarchy.ancestorsOrSelf (e.stateIndex m.state) →
    ((∀ step ∈ log, stateAt e c ∉ activePath e step.before) ∧ m.history.lastActive? c = none) ∨
      (∃ step ∈ log, stateAt e c ∈ activePath e step.before) ∧
        ∃ leaf, lastLeft? (stateAt e c) log = some (stateAt e leaf) ∧ e.model.IsPlace leaf ∧
          e.model.hierarchy.entryChild? leaf = none ∧ c ∈ e.model.hierarchy.ancestorsOrSelf leaf ∧
          m.history.Retraces e.model.hierarchy leaf c

section Accepted

variable (accepted : e.Accepted) (nested : e.isHierarchical) {m : Machine σ ω} {h : Host σ υ ω}
include accepted nested

theorem active_iff (settled : Settled e m) {c : Nat} (place : e.model.IsPlace c) :
    stateAt e c ∈ activePath e m ↔
      c ∈ e.model.hierarchy.ancestorsOrSelf (e.stateIndex m.state) := by
  have wf := accepted.tables nested
  constructor
  · intro active
    obtain ⟨i, member, same⟩ := List.mem_map.mp active
    have inside := List.mem_reverse.mp member
    exact stateAt_inj (wf.chain_listed settled.place inside) place same ▸ inside
  · exact fun inside => List.mem_map_of_mem (List.mem_reverse.mpr inside)

variable (settled : Settled e m)
include settled

theorem left_step (call : Call σ υ ω) {c : Nat}
    (active : c ∈ e.model.hierarchy.ancestorsOrSelf (e.stateIndex m.state))
    (gone : c ∉ e.model.hierarchy.ancestorsOrSelf
      (e.stateIndex (stepOf e h m call).after.state)) :
    (stepOf e h m call).leaves (stateAt e c) ∧
      (stepOf e h m call).after.history.Retraces e.model.hierarchy (e.stateIndex m.state) c := by
  have wf := accepted.tables nested
  have moved : (stepOf e h m call).after.state ≠ m.state := fun same => gone (same ▸ active)
  rcases call_outcome (h := h) accepted settled call with
    ⟨_, state, _⟩ | ⟨trigger, _, t, _, _, candidate, walked, _⟩
  · exact absurd state moved
  · cases committed : (stepOf e h m call).committed with
    | false => exact absurd (walked.broken committed).1 moved
    | true =>
        obtain ⟨state, history, exited, _⟩ := walked.done committed
        cases internal : t.internal with
        | true =>
            rw [course_internal internal] at state
            exact absurd state moved
        | false =>
            have member := (candidate_registered accepted candidate).1
            have source := candidate_active accepted nested settled.known candidate
            have aimed := target_place accepted member
            rw [course_nested nested internal] at state history exited
            have index := index_stateAt (move_arrival accepted settled member nested).1
            have above (s : Nat) (found : e.model.hierarchy.scope? (e.stateIndex t.source)
                (e.stateIndex t.target) = some s) := wf.scope_active source s found
            have left : c ∈ (moveOf e t m).1.exits := by
              rcases wf.exit_or_above above active with left | ⟨s, found, upper⟩
              · exact left
              · have kept := wf.scope_entered (settled.sound nested) settled.place aimed s found
                refine absurd (wf.ancestor_trans upper kept) ?_
                rwa [state, courseThrough, index] at gone
            constructor
            · simp only [Step.leaves, committed, Bool.true_and, List.contains_iff_mem]
              exact exited ▸ List.mem_map_of_mem left
            · rw [history]
              exact wf.recordAll_retraces m.history above left (settled.size nested)

theorem unleft_step (call : Call σ υ ω) {c : Nat} (place : e.model.IsPlace c)
    (inactive : c ∉ e.model.hierarchy.ancestorsOrSelf (e.stateIndex m.state)) :
    (stepOf e h m call).leaves (stateAt e c) = false := by
  rw [Step.leaves, Bool.and_eq_false_iff]
  rcases call_outcome (h := h) accepted settled call with
    ⟨committed, _⟩ | ⟨_, _, t, _, _, _, walked, _⟩
  · exact .inl committed
  · cases committed : (stepOf e h m call).committed with
    | false => exact .inl rfl
    | true =>
        obtain ⟨_, _, exited, _⟩ := walked.done committed
        refine .inr ?_
        simp only [exited]
        cases internal : t.internal with
        | true => simp [course_internal internal, courseThrough]
        | false =>
            rw [course_nested nested internal]
            refine Bool.eq_false_iff.mpr fun member => inactive ?_
            obtain ⟨i, left, same⟩ := List.mem_map.mp (List.contains_iff_mem.mp member)
            obtain ⟨inside, placed⟩ := move_exits accepted settled nested left
            exact stateAt_inj placed place same ▸ inside

theorem resume_step (call : Call σ υ ω) {c : Nat} (place : e.model.IsPlace c)
    (inactive : c ∉ e.model.hierarchy.ancestorsOrSelf (e.stateIndex m.state)) :
    e.model.hierarchy.resolveEntry (stepOf e h m call).after.history c =
      e.model.hierarchy.resolveEntry m.history c := by
  have wf := accepted.tables nested
  have outside := step_outside (h := h) accepted settled nested call
  refine wf.descend_congr (settled.sound nested) place (fun i below _ => outside i fun active => ?_)
    _ false
  exact inactive (wf.ancestor_trans below active)

theorem remembered_step {log : List (Step σ υ ω)} {c : Nat} (place : e.model.IsPlace c)
    (remembered : Remembered e log m c) (call : Call σ υ ω) :
    Remembered e (log ++ [stepOf e h m call]) (stepOf e h m call).after c := by
  have wf := accepted.tables nested
  intro gone
  rw [lastLeft?_snoc]
  by_cases active : c ∈ e.model.hierarchy.ancestorsOrSelf (e.stateIndex m.state)
  · obtain ⟨leaves, retraces⟩ := left_step accepted nested settled call active gone
    have shown : stateAt e c ∈ activePath e (stepOf e h m call).before :=
      (active_iff accepted nested settled place).mpr active
    refine .inr ⟨⟨_, List.mem_append_right log List.mem_cons_self, shown⟩, e.stateIndex m.state, ?_,
      settled.place, settled.final nested, active, retraces⟩
    rw [if_pos leaves]
    exact congrArg some settled.named.symm
  · have outside := step_outside (h := h) accepted settled nested call
    rw [unleft_step accepted nested settled call place active]
    rcases remembered active with
      ⟨never, empty⟩ | ⟨⟨step, member, shown⟩, leaf, last, listed, final, inside, retraces⟩
    · refine .inl ⟨fun step member => ?_, (outside c active).trans empty⟩
      rcases List.mem_append.mp member with old | new
      · exact never step old
      · rw [List.mem_singleton.mp new]
        exact fun shown => active ((active_iff accepted nested settled place).mp shown)
    · refine .inr ⟨⟨step, List.mem_append_left _ member, shown⟩, leaf, last, listed, final, inside,
        fun x p member up below => ?_⟩
      -- no slot below the state is one of an active state
      have apart := outside p fun upper => active (wf.ancestor_trans below upper)
      exact apart.trans (retraces x p member up below)

theorem remembered_session {c : Nat} (place : e.model.IsPlace c)
    (fresh : m.history.lastActive? c = none) (calls : List (Call σ υ ω)) :
    Remembered e (session e h m calls) (after e h m calls) c := by
  induction calls using List.reverseRecOn with
  | nil => exact fun _ => .inl ⟨by simp [session], fresh⟩
  | append_singleton calls call ih =>
      rw [session_snoc, after_snoc]
      exact remembered_step accepted nested (after_settled accepted settled calls) place ih call

end Accepted

section Named

variable {m : Machine σ ω} {C : StateModel}

theorem listed_place (listed : e.model.state? C.name = some C) :
    e.model.states[e.stateIndex C.name]? = some C ∧ e.model.IsPlace (e.stateIndex C.name) ∧
      stateAt e (e.stateIndex C.name) = C.name := by
  have known := List.mem_map_of_mem (f := StateModel.name) (List.mem_of_find?_eq_some listed)
  obtain ⟨named, place⟩ := stateAt_stateIndex known
  obtain ⟨s, here, _, first, _⟩ := state?_stateAt place
  rw [named, listed] at first
  cases first
  exact ⟨here, place, named⟩

variable (accepted : e.Accepted) (nested : e.isHierarchical) (settled : Settled e m)
  (listed : e.model.state? C.name = some C) (composite : e.model.isComposite C.name)
include accepted nested settled listed composite

theorem resume_initial (forgets : C.history = .none ∨
      m.history.lastActive? (e.stateIndex C.name) = none) :
    ∃ child, e.model.entryChild? C.name = some child ∧
      resume e m C.name = stateAt e (e.model.hierarchy.resolveUnder m.history (C.history = .deep)
        (e.stateIndex child.name)) := by
  obtain ⟨here, place, _⟩ := listed_place listed
  obtain ⟨i, entry⟩ := Option.isSome_iff_exists.mp ((Model.entryChild?_place here).mpr composite)
  have step := (accepted.tables nested).resolveUnder_step (settled.sound nested) place entry false
  rw [Model.entryChild?_eq, here] at entry
  obtain ⟨child, chosen, found⟩ := Option.bind_eq_some_iff.mp entry
  refine ⟨child, chosen, ?_⟩
  have mode : e.model.hierarchy.modeUnder false (e.stateIndex C.name) = C.history :=
    Model.mode_eq here
  have next : m.history.nextEntry C.history (e.stateIndex C.name) i = i := by
    rcases forgets with off | empty
    · simp [History.nextEntry, off]
    · simp [History.nextEntry, empty]
  rw [resume, Hierarchy.resolveEntry_eq, step, mode, next, stateIndex_eq found]

variable {leaf : Nat} (place : e.model.IsPlace leaf)
  (final : e.model.hierarchy.entryChild? leaf = none)
  (inside : e.stateIndex C.name ∈ e.model.hierarchy.ancestorsOrSelf leaf)
  (retraces : m.history.Retraces e.model.hierarchy leaf (e.stateIndex C.name))
include place final inside retraces

omit composite place in
theorem resume_deep (deep : C.history = .deep) : resume e m C.name = stateAt e leaf := by
  obtain ⟨here, _, _⟩ := listed_place listed
  have mode := (Model.mode_eq here).trans deep
  have resumed := (accepted.tables nested).resolveEntry_deep (settled.sound nested) final retraces
    inside mode
  exact congrArg (stateAt e) resumed

theorem resume_shallow (shallow : C.history = .shallow) :
    ∃ child ∈ e.model.childrenOf C.name, child.name ∈ pathTo e (stateAt e leaf) ∧
      resume e m C.name = resume e m child.name := by
  have wf := accepted.tables nested
  obtain ⟨here, _, _⟩ := listed_place listed
  have mode := (Model.mode_eq here).trans shallow
  obtain ⟨x, member, up, same⟩ := wf.resolveEntry_shallow (settled.sound nested) final retraces
    inside ((Model.entryChild?_place here).mpr composite) mode
  obtain ⟨child, there, named, _, index⟩ := state?_stateAt (wf.chain_listed place member)
  obtain ⟨owner, other, owned, found, parent⟩ := Model.parent?_eq_some up
  obtain rfl := Option.some.inj (here.symm.trans owned)
  obtain rfl := Option.some.inj (there.symm.trans found)
  refine ⟨child, Model.mem_childrenOf.mpr ⟨List.mem_of_getElem? there, parent⟩, ?_, ?_⟩
  · rw [named, pathTo, index_stateAt place]
    exact List.mem_map_of_mem (List.mem_reverse.mpr member)
  · rw [resume, resume, named, index, same]

end Named

/-- What a composite state that is not active resumes: with history, what was active when it was
last left; else, or if it never was active, its entry child. -/
theorem resumption_after_session (accepted : e.Accepted) (nested : e.isHierarchical)
    (h : Host σ υ ω) {state : String} (declared : state ∈ e.model.states.map StateModel.name)
    (data : σ) (calls : List (Call σ υ ω)) {C : StateModel}
    (listed : e.model.state? C.name = some C) (composite : e.model.isComposite C.name) :
    let first : Machine σ ω := start e state data
    let m := after e h first calls
    let log := session e h first calls
    C.name ∉ activePath e m →
      ((∃ step ∈ log, C.name ∈ activePath e step.before) →
        ∃ leaf, lastLeft? C.name log = some leaf ∧
          (C.history = .deep → resume e m C.name = leaf) ∧
          (C.history = .shallow → ∃ child ∈ e.model.childrenOf C.name,
            child.name ∈ pathTo e leaf ∧ resume e m C.name = resume e m child.name)) ∧
        ((∀ step ∈ log, C.name ∉ activePath e step.before) ∨ C.history = .none →
          ∃ child, e.model.entryChild? C.name = some child ∧
            resume e m C.name = stateAt e (e.model.hierarchy.resolveUnder m.history
              (C.history = .deep) (e.stateIndex child.name))) ∧
        ∀ call, resume e (stepOf e h m call).after C.name = resume e m C.name := by
  intro first m log inactive
  have begun : Settled e first := start_settled accepted declared data
  have settled : Settled e m := after_settled accepted begun calls
  obtain ⟨_, place, named⟩ := listed_place listed
  have fresh : first.history.lastActive? (e.stateIndex C.name) = none :=
    History.lastActive?_ofSize _ _
  have outside : e.stateIndex C.name ∉
      e.model.hierarchy.ancestorsOrSelf (e.stateIndex m.state) := fun member =>
    inactive (named ▸ (active_iff accepted nested settled place).mpr member)
  have remembered := remembered_session accepted nested begun place fresh calls outside
  rw [named] at remembered
  refine ⟨fun ⟨step, member, active⟩ => ?_, fun forgets => ?_, fun call => ?_⟩
  · rcases remembered with ⟨never, _⟩ | ⟨_, leaf, last, leafPlace, final, inside, retraces⟩
    · exact absurd active (never step member)
    · refine ⟨stateAt e leaf, last, ?_, ?_⟩
      · exact resume_deep accepted nested settled listed final inside retraces
      · exact resume_shallow accepted nested settled listed composite leafPlace final inside
          retraces
  · refine resume_initial accepted nested settled listed composite ?_
    rcases forgets with never | off
    · rcases remembered with ⟨_, empty⟩ | ⟨⟨step, member, active⟩, _⟩
      · exact .inr empty
      · exact absurd active (never step member)
    · exact .inl off
  · exact congrArg (stateAt e) (resume_step accepted nested settled call place outside)

theorem lamp_resumes_high :
    lastLeft? "On" (session lamp lampHost (lampOff false) flash) = some "High" ∧
      ∃ child ∈ lamp.model.childrenOf "On", child.name ∈ pathTo lamp "High" ∧
        resume lamp (after lamp lampHost (lampOff false) flash) "On" =
          resume lamp (after lamp lampHost (lampOff false) flash) child.name := by
  have declared : "Off" ∈ lamp.model.states.map StateModel.name := by decide
  have off : lampOn.name ∉ activePath lamp (after lamp lampHost (lampOff false) flash) := by
    decide +kernel
  have once : ((session lamp lampHost (lampOff false) flash).any fun step =>
      (activePath lamp step.before).contains lampOn.name) = true := by decide +kernel
  have last : lastLeft? "On" (session lamp lampHost (lampOff false) flash) = some "High" := by
    decide +kernel
  obtain ⟨step, member, active⟩ := List.any_eq_true.mp once
  obtain ⟨leaf, found, _, shallow⟩ :=
    (resumption_after_session lamp_accepted rfl lampHost declared false flash (C := lampOn) rfl rfl
      off).1 ⟨step, member, List.contains_iff_mem.mp active⟩
  obtain rfl := Option.some.inj (last.symm.trans found)
  exact ⟨last, shallow rfl⟩

end Statewright.Execution
