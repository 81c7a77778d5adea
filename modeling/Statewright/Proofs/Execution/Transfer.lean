import Mathlib.Data.List.Basic
import Statewright.Proofs.Build.Tables
import Statewright.Proofs.Execution.Closure
import Statewright.Proofs.Hierarchy.Move

/-!
# Transfers

Taking a transition follows the course that its ends and the history lay out beforehand. Once the
move is fixed, nothing but the data decides what its callbacks do.
-/

namespace Statewright

variable {σ υ ω : Type}

namespace Host

variable (h : Host σ υ ω) (payload : Option υ)

theorem inspected_fallible {c : Callback} (inspected : c.resultUse = .inspected) : c.fallible := by
  unfold Callback.resultUse at inspected
  split at inspected
  · simp at inspected
  · split at inspected
    · assumption
    · simp at inspected

theorem perform?_followed (table : Hierarchy) (c : Option Callback) (m : Machine σ ω) :
    Execution.Course.Followed ⟨[], [], c.toList, [], m.state⟩ h payload table m
      (h.perform? c payload m) := by
  cases c with
  | none =>
      refine ⟨⟨fun _ => ⟨rfl, rfl⟩, ?_⟩, fun _ => ⟨rfl, rfl, rfl, rfl⟩, ?_⟩ <;> intro fails <;>
        cases fails
  | some c =>
      simp only [perform?, perform]
      cases allotted : h.given? c payload with
      | none =>
          refine ⟨⟨fun _ => ⟨?_, rfl⟩, ?_⟩, fun _ => ⟨rfl, rfl, rfl, rfl⟩, ?_⟩
          · simp [calls, allotted, Run.pure_apply, callsIn]
          all_goals
            intro fails
            cases fails
      | some given =>
          have planned : h.calls payload [c] = [(c, given)] := by simp [calls, allotted]
          rcases answered : h.call c given m.data with ⟨answer, data⟩
          simp only [Run.bind_apply, invoke, answered, Option.toList_some]
          have well (data : σ) :
              Execution.Course.Followed ⟨[], [], [c], [], m.state⟩ h payload table m
                (true, { m with data }, [.called c given]) := by
            refine ⟨⟨fun _ => ⟨planned.symm, rfl⟩, ?_⟩, fun _ => ⟨rfl, rfl, rfl, rfl⟩, ?_⟩ <;>
              intro fails <;> cases fails
          cases answer with
          | holds => exact well data
          | refuses => exact well data
          | fails error =>
              cases used : c.resultUse with
              | ignored => exact well data
              | dropped => exact well data
              | inspected =>
                  refine ⟨⟨?_, fun _ => ?_⟩, ?_, fun _ => ⟨rfl, [], List.nil_prefix, rfl⟩⟩
                  · intro holds
                    cases holds
                  · exact ⟨[], c, given, [], error, planned, rfl, rfl, inspected_fallible used,
                      m.data, by rw [answered]⟩
                  · intro holds
                    cases holds

end Host

namespace Execution

variable (e : Emission) (h : Host σ υ ω) (payload : Option υ)

section Names

variable {e}

theorem stateIndex_eq {name : String} {i : Nat} (found : e.model.stateIndex? name = some i) :
    e.stateIndex name = i := by
  simp [Emission.stateIndex, found]

theorem state?_stateAt {i : Nat} (place : e.model.IsPlace i) :
    ∃ s, e.model.states[i]? = some s ∧ s.name = stateAt e i ∧
      e.model.state? (stateAt e i) = some s ∧ e.stateIndex (stateAt e i) = i := by
  obtain ⟨name, found⟩ := place
  obtain ⟨s, here, rfl, first⟩ := Model.stateIndex?_eq_some found
  have named : stateAt e i = s.name := by simp [stateAt, here]
  rw [named]
  exact ⟨s, here, rfl, first, stateIndex_eq found⟩

theorem stateAt_stateIndex {name : String} (known : name ∈ e.model.states.map StateModel.name) :
    stateAt e (e.stateIndex name) = name ∧ e.model.IsPlace (e.stateIndex name) := by
  obtain ⟨s, member, rfl⟩ := List.mem_map.mp known
  obtain ⟨i, found⟩ := Option.isSome_iff_exists.mp (Model.stateIndex?_isSome member)
  obtain ⟨t, here, same, _⟩ := Model.stateIndex?_eq_some found
  rw [stateIndex_eq found]
  exact ⟨by simp [stateAt, here, same], s.name, found⟩

theorem index_stateAt {i : Nat} (place : e.model.IsPlace i) : e.stateIndex (stateAt e i) = i := by
  obtain ⟨_, _, _, _, index⟩ := state?_stateAt place
  exact index

theorem stateAt_known {i : Nat} (place : e.model.IsPlace i) :
    stateAt e i ∈ e.model.states.map StateModel.name := by
  obtain ⟨s, here, named, _, _⟩ := state?_stateAt place
  exact List.mem_map.mpr ⟨s, List.mem_of_getElem? here, named⟩

theorem stateAt_inj {i j : Nat} (left : e.model.IsPlace i) (right : e.model.IsPlace j)
    (same : stateAt e i = stateAt e j) : i = j := by
  rw [← index_stateAt left, same, index_stateAt right]

theorem walkCallback_eq {callbackOf : StateModel → Option Callback}
    (silent : e.model.config.hasEntryExit = false → ∀ s ∈ e.model.states, callbackOf s = none)
    {i : Nat} (place : e.model.IsPlace i) :
    walkCallback e callbackOf i = (e.model.state? (stateAt e i)).bind callbackOf := by
  obtain ⟨s, here, _, first, _⟩ := state?_stateAt place
  rw [walkCallback, here, first]
  split
  · rfl
  · next unused =>
      simpa using (silent (by simpa using unused) s (List.mem_of_getElem? here)).symm

theorem walkCallbacks_eq {callbackOf : StateModel → Option Callback}
    (silent : e.model.config.hasEntryExit = false → ∀ s ∈ e.model.states, callbackOf s = none)
    {places : List Nat} (listed : ∀ i ∈ places, e.model.IsPlace i) :
    places.filterMap (walkCallback e callbackOf) =
      (places.map (stateAt e)).filterMap fun s => (e.model.state? s).bind callbackOf := by
  rw [List.filterMap_map]
  exact List.filterMap_congr fun i member => walkCallback_eq silent (listed i member)

end Names

/-! ## The course of a transition -/

def moveOf (t : Transition) (m : Machine σ ω) : Hierarchy.Move × History :=
  e.model.hierarchy.move m.history (e.stateIndex m.state) (e.stateIndex t.source)
    (e.stateIndex t.target)

def courseThrough (t : Transition) (left : List Nat) (exited entered : List String)
    (arrival : String) : Course where
  left
  exited
  calls :=
    (exited.filterMap fun s => (e.model.state? s).bind StateModel.onExit) ++ t.action.toList ++
      entered.filterMap fun s => (e.model.state? s).bind StateModel.onEntry
  entered
  arrival

def course (t : Transition) (m : Machine σ ω) : Course :=
  if t.internal then courseThrough e t [] [] [] m.state
  else if e.isHierarchical then
    let move := (moveOf e t m).1
    courseThrough e t move.exits (move.exits.map (stateAt e)) (move.entries.map (stateAt e))
      (stateAt e move.leaf)
  else courseThrough e t [] [t.source] [t.target] t.target

variable {e} in
theorem course_internal {t : Transition} {m : Machine σ ω} (internal : t.internal) :
    course e t m = courseThrough e t [] [] [] m.state := if_pos internal

variable {e} in
theorem course_nested {t : Transition} {m : Machine σ ω} (nested : e.isHierarchical)
    (external : t.internal = false) :
    course e t m =
      courseThrough e t (moveOf e t m).1.exits ((moveOf e t m).1.exits.map (stateAt e))
        ((moveOf e t m).1.entries.map (stateAt e)) (stateAt e (moveOf e t m).1.leaf) := by
  simp [course, external, nested]

variable {e} in
theorem course_flat {t : Transition} {m : Machine σ ω} (flat : ¬e.isHierarchical) :
    (course e t m).left = [] := by
  unfold course
  rw [if_neg flat]
  split <;> rfl

def departing (state : String) (c : Option Callback) : Run σ υ ω Bool := do
  Run.log (.exited state)
  h.perform? c payload

def arriving (state : String) (c : Option Callback) : Run σ υ ω Bool := do
  Run.log (.entered state)
  h.perform? c payload

def settling (state : String) : Run σ υ ω Bool := do
  Run.change fun m => { m with state }
  pure true

variable (table : Hierarchy) (m : Machine σ ω)

theorem departing_followed (s : String) (c : Option Callback) :
    Course.Followed ⟨[], [s], c.toList, [], m.state⟩ h payload table m
      (departing h payload s c m) := by
  obtain ⟨⟨well, failed⟩, done, broken⟩ := h.perform?_followed payload table c m
  refine ⟨⟨well, failed⟩, fun taken => ?_, broken⟩
  obtain ⟨state, history, exited, entered⟩ := done taken
  exact ⟨state, history, congrArg (s :: ·) exited, entered⟩

theorem arriving_followed (s : String) (c : Option Callback) :
    Course.Followed ⟨[], [], c.toList, [s], m.state⟩ h payload table m
      (arriving h payload s c m) := by
  obtain ⟨⟨well, failed⟩, done, broken⟩ := h.perform?_followed payload table c m
  refine ⟨⟨well, failed⟩, fun taken => ?_, broken⟩
  obtain ⟨state, history, exited, entered⟩ := done taken
  exact ⟨state, history, exited, congrArg (s :: ·) entered⟩

theorem settling_followed (s : String) :
    Course.Followed ⟨[], [], [], [], s⟩ h payload table m (settling s m) := by
  refine ⟨⟨fun _ => ⟨rfl, rfl⟩, ?_⟩, fun _ => ⟨rfl, rfl, rfl, rfl⟩, ?_⟩ <;> intro fails <;>
    cases fails

theorem leave_followed (place : Nat) :
    Course.Followed
      ⟨[place], [stateAt e place], (walkCallback e StateModel.onExit place).toList, [], m.state⟩
      h payload e.model.hierarchy m (leave e h payload place m) := by
  have departed := departing_followed h payload e.model.hierarchy
    { m with history := m.history.record e.model.hierarchy place } (stateAt e place)
    (walkCallback e StateModel.onExit place)
  obtain ⟨performed, done, broken⟩ := departed
  refine ⟨performed, done, fun fails => ?_⟩
  obtain ⟨state, prior, inside, history⟩ := broken fails
  obtain rfl := List.prefix_nil.mp inside
  exact ⟨state, [place], List.prefix_rfl, history⟩

theorem filterMap_cons_toList {α β : Type} (f : α → Option β) (a : α) (rest : List α) :
    (a :: rest).filterMap f = (f a).toList ++ rest.filterMap f := by
  cases found : f a <;> simp [found]

theorem leaveAll_followed (places : List Nat) :
    Course.Followed
      ⟨places, places.map (stateAt e), places.filterMap (walkCallback e StateModel.onExit), [],
        m.state⟩
      h payload e.model.hierarchy m (Run.all (leave e h payload) places m) := by
  induction places generalizing m with
  | nil => exact settling_followed h payload e.model.hierarchy m m.state
  | cons place places ih =>
      have first := leave_followed e h payload m place
      rw [filterMap_cons_toList]
      exact first.then _ rfl fun holds => (first.walked.done holds).1 ▸ ih _

theorem enterAll_followed (places : List Nat) :
    Course.Followed ⟨[], [], places.filterMap (walkCallback e StateModel.onEntry),
      places.map (stateAt e), m.state⟩ h payload table m
      (Run.all (enter e h payload) places m) := by
  induction places generalizing m with
  | nil => exact settling_followed h payload table m m.state
  | cons place places ih =>
      have first := arriving_followed h payload table m (stateAt e place)
        (walkCallback e StateModel.onEntry place)
      rw [filterMap_cons_toList]
      exact first.then _ rfl fun holds => (first.walked.done holds).1 ▸ ih _

/-! ## Whole transfers -/

def traverse (t : Transition) (move : Hierarchy.Move) : Run σ υ ω Bool :=
  (Run.all (leave e h payload) move.exits).andThen
    ((h.perform? t.action payload).andThen
      ((Run.all (enter e h payload) move.entries).andThen (settling (stateAt e move.leaf))))

theorem nestedTransfer_eq (t : Transition) :
    nestedTransfer e h payload t m = traverse e h payload t (moveOf e t m).1 m := by
  refine Run.andThen_congr fun left => Run.andThen_congr fun acted => ?_
  have history := ((leaveAll_followed e h payload m _).walked.done left).2.1
  have kept := ((h.perform?_followed payload e.model.hierarchy t.action _).walked.done acted).2.1
  -- the leaf is looked up behind the exits and the action, and only the exits were recorded
  have entering (n : Machine σ ω) (behind : n.history = (moveOf e t m).2) :
      (Run.all (enter e h payload) (e.model.hierarchy.entryPath
        (e.model.hierarchy.scope? (e.stateIndex t.source) (e.stateIndex t.target))
        (e.model.hierarchy.resolveEntry n.history (e.stateIndex t.target)))).andThen
          (settling (stateAt e
            (e.model.hierarchy.resolveEntry n.history (e.stateIndex t.target)))) n =
        (Run.all (enter e h payload) (moveOf e t m).1.entries).andThen
          (settling (stateAt e (moveOf e t m).1.leaf)) n := by
    rw [behind]
    rfl
  exact entering _ (kept.trans history)

theorem flatTransfer_eq (t : Transition) :
    flatTransfer e h payload t =
      (departing h payload t.source ((e.model.state? t.source).bind StateModel.onExit)).andThen
        ((h.perform? t.action payload).andThen
          ((arriving h payload t.target
            ((e.model.state? t.target).bind StateModel.onEntry)).andThen (settling t.target))) := by
  simp [flatTransfer, Run.andThen, departing, arriving, settling, bind_assoc]

theorem traverse_followed (t : Transition) (move : Hierarchy.Move) :
    Course.Followed ⟨move.exits, move.exits.map (stateAt e),
      move.exits.filterMap (walkCallback e StateModel.onExit) ++ t.action.toList ++
        move.entries.filterMap (walkCallback e StateModel.onEntry),
      move.entries.map (stateAt e), stateAt e move.leaf⟩ h payload e.model.hierarchy m
      (traverse e h payload t move m) := by
  have left := leaveAll_followed e h payload m move.exits
  have followed := left.then
    ((h.perform? t.action payload).andThen
      ((Run.all (enter e h payload) move.entries).andThen (settling (stateAt e move.leaf)))) rfl
    fun _ =>
      (h.perform?_followed payload e.model.hierarchy t.action _).then _ rfl fun _ =>
        (enterAll_followed e h payload e.model.hierarchy _ move.entries).then _ rfl fun _ =>
          settling_followed h payload e.model.hierarchy _ (stateAt e move.leaf)
  simpa [Course.then, traverse] using followed

theorem flatTransfer_followed (t : Transition) :
    (courseThrough e t [] [t.source] [t.target] t.target).Followed h payload table m
      (flatTransfer e h payload t m) := by
  have followed := (departing_followed h payload table m t.source
      ((e.model.state? t.source).bind StateModel.onExit)).then
    ((h.perform? t.action payload).andThen
      ((arriving h payload t.target ((e.model.state? t.target).bind StateModel.onEntry)).andThen
        (settling t.target))) rfl
    fun _ =>
      (h.perform?_followed payload table t.action _).then _ rfl fun _ =>
        (arriving_followed h payload table _ t.target
          ((e.model.state? t.target).bind StateModel.onEntry)).then _ rfl fun _ =>
            settling_followed h payload table _ t.target
  rw [flatTransfer_eq]
  simpa [Course.then, courseThrough, filterMap_cons_toList] using followed

theorem perform_course (t : Transition) :
    (courseThrough e t [] [] [] m.state).Followed h payload table m
      (h.perform? t.action payload m) := by
  simpa [courseThrough] using h.perform?_followed payload table t.action m

/-- The transfer of a transition whose move is known beforehand. -/
def follow (e : Emission) (h : Host σ υ ω) (payload : Option υ) (t : Transition)
    (move : Hierarchy.Move) : Run σ υ ω Bool :=
  if t.internal then h.perform? t.action payload
  else if e.isHierarchical then traverse e h payload t move
  else flatTransfer e h payload t

theorem transfer_follow (t : Transition) :
    transfer e h payload t m = follow e h payload t (moveOf e t m).1 m := by
  unfold transfer follow
  split
  · rfl
  · split
    · exact nestedTransfer_eq e h payload m t
    · rfl

end Execution

namespace Run.MoveClosed

open Execution

variable {h : Host σ υ ω} {P : {α : Type} → Run σ υ ω α → Prop} (closed : Run.MoveClosed h P)
  (e : Emission) (payload : Option υ)
include closed

theorem departing (state : String) (c : Option Callback) : P (departing h payload state c) :=
  closed.bind (closed.log _ rfl) fun _ => closed.perform? c payload

theorem arriving (state : String) (c : Option Callback) : P (arriving h payload state c) :=
  closed.bind (closed.log _ rfl) fun _ => closed.perform? c payload

theorem settling (state : String) : P (settling state) :=
  closed.bind (closed.settle state) fun _ => closed.pure true

theorem flatTransfer (t : Transition) : P (flatTransfer e h payload t) := by
  rw [flatTransfer_eq]
  exact closed.andThen (closed.departing payload _ _) (closed.andThen (closed.perform? _ payload)
    (closed.andThen (closed.arriving payload _ _) (closed.settling _)))

variable (record : ∀ place,
  P (Run.change fun m => { m with history := m.history.record e.model.hierarchy place }))
include record

theorem traverse (t : Transition) (move : Hierarchy.Move) : P (traverse e h payload t move) :=
  closed.andThen
    (closed.all (fun place => closed.bind (record place) fun _ => closed.departing payload _ _) _)
    (closed.andThen (closed.perform? _ payload)
      (closed.andThen (closed.all (fun _ => closed.arriving payload _ _) _) (closed.settling _)))

theorem follow (t : Transition) (move : Hierarchy.Move) : P (follow e h payload t move) := by
  unfold Execution.follow
  split
  · exact closed.perform? _ payload
  · split
    · exact closed.traverse e payload record t move
    · exact closed.flatTransfer e payload t

end Run.MoveClosed

theorem Execution.follow_uniform (e : Emission) (h : Host σ υ ω) (payload : Option υ)
    (t : Transition) (move : Hierarchy.Move) : (follow e h payload t move).Uniform :=
  (uniform_closed h).follow e payload (fun _ _ _ same => ⟨rfl, same, rfl⟩) t move

end Statewright
