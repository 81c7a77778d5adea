import Statewright.Proofs.Execution.Candidates

/-!
# Settled machines

A machine that is started settles in a state without children, and transfers keep it settled: they
follow their course, which leaves active states only and ends in a state without children.
-/

namespace Statewright.Execution

variable {σ υ ω : Type} {e : Emission}

structure Settled (e : Emission) (m : Machine σ ω) : Prop where
  known : m.state ∈ e.model.states.map StateModel.name
  final : e.isHierarchical → e.model.hierarchy.entryChild? (e.stateIndex m.state) = none
  size : e.isHierarchical → m.history.slots.length = e.model.hierarchy.size
  sound : e.isHierarchical → m.history.Sound e.model.hierarchy e.model.IsPlace

namespace Settled

variable {m n : Machine σ ω}

theorem of_same (settled : Settled e m) (state : n.state = m.state)
    (history : n.history = m.history) : Settled e n := by
  obtain ⟨known, final, size, sound⟩ := settled
  constructor
  · rwa [state]
  · rwa [state]
  · rwa [history]
  · rwa [history]

theorem place (settled : Settled e m) : e.model.IsPlace (e.stateIndex m.state) :=
  (stateAt_stateIndex settled.known).2

theorem named (settled : Settled e m) : stateAt e (e.stateIndex m.state) = m.state :=
  (stateAt_stateIndex settled.known).1

theorem recordAll (settled : Settled e m) (state : n.state = m.state) {left : List Nat}
    (history : n.history = m.history.recordAll e.model.hierarchy left)
    (listed : ∀ i ∈ left, e.model.IsPlace i) : Settled e n := by
  constructor
  · rw [state]
    exact settled.known
  · rw [state]
    exact settled.final
  · intro nested
    rw [history, History.recordAll_size, settled.size nested]
  · intro nested
    rw [history]
    exact (settled.sound nested).recordAll left listed

end Settled

section Accepted

variable (accepted : e.Accepted)
include accepted

theorem start_settled {state : String} (declared : state ∈ e.model.states.map StateModel.name)
    (data : σ) : Settled e (start e state data : Machine σ ω) := by
  obtain ⟨named, place⟩ := stateAt_stateIndex declared
  cases nested : e.isHierarchical with
  | false => constructor <;> simp_all [start]
  | true =>
      have wf := accepted.tables nested
      have fresh :
          (History.ofSize e.model.states.length).Sound e.model.hierarchy e.model.IsPlace := by
        intro s c remembered
        simp [History.lastActive?_ofSize] at remembered
      have below := wf.descend_below fresh place (2 * e.model.hierarchy.entryChildren.length + 1)
        false
      constructor
      · simp only [start, nested, if_true]
        exact stateAt_known below.1
      · intro _
        simp only [start, nested, if_true]
        rw [Hierarchy.resolveEntry, index_stateAt below.1]
        exact wf.resolveUnder_leaf fresh place false
      · intro _
        simp [start, nested, Model.hierarchy_size, History.ofSize]
      · intro _
        simpa only [start, nested, if_true] using fresh

theorem target_place {t : Transition} (member : t ∈ e.model.transitions) :
    e.model.IsPlace (e.stateIndex t.target) :=
  (stateAt_stateIndex (accepted.ends t member).2).2

variable {m : Machine σ ω} (settled : Settled e m) {t : Transition}
  (member : t ∈ e.model.transitions)
include settled

theorem move_exits (nested : e.isHierarchical) {i : Nat} (left : i ∈ (moveOf e t m).1.exits) :
    i ∈ e.model.hierarchy.ancestorsOrSelf (e.stateIndex m.state) ∧ e.model.IsPlace i := by
  have inside := Hierarchy.WellFormed.exit_mem left
  exact ⟨inside, (accepted.tables nested).chain_listed settled.place inside⟩

include member

theorem move_arrival (nested : e.isHierarchical) :
    e.model.IsPlace (moveOf e t m).1.leaf ∧
      e.model.hierarchy.entryChild? (moveOf e t m).1.leaf = none := by
  obtain ⟨place, _, final⟩ := (accepted.tables nested).move_leaf (settled.sound nested)
    settled.place (target_place accepted member)
  exact ⟨place, final⟩

theorem move_entries (nested : e.isHierarchical) {i : Nat}
    (entered : i ∈ (moveOf e t m).1.entries) : e.model.IsPlace i :=
  (accepted.tables nested).chain_listed (move_arrival accepted settled member nested).1
    (Hierarchy.WellFormed.exit_mem (List.mem_reverse.mp entered))

theorem transfer_followed (h : Host σ υ ω) (payload : Option υ) :
    (course e t m).Followed h payload e.model.hierarchy m (transfer e h payload t m) := by
  unfold transfer course
  split
  · exact perform_course e h payload _ m t
  · split
    · next nested =>
        rw [nestedTransfer_eq, courseThrough]
        have silent := accepted.quiet
        have exits := walkCallbacks_eq (fun unused s known => (silent unused s known).2) fun i =>
          And.right ∘ move_exits accepted settled (t := t) nested (i := i)
        have entries := walkCallbacks_eq (fun unused s known => (silent unused s known).1) fun i =>
          move_entries accepted settled member nested (i := i)
        rw [← exits, ← entries]
        exact traverse_followed e h payload m t (moveOf e t m).1
    · exact flatTransfer_followed e h payload _ m t

omit member in
theorem course_left {i : Nat} (left : i ∈ (course e t m).left) :
    i ∈ e.model.hierarchy.ancestorsOrSelf (e.stateIndex m.state) ∧ e.model.IsPlace i := by
  unfold course at left
  split at left
  · simp [courseThrough] at left
  · split at left
    · next nested => exact move_exits accepted settled nested left
    · simp [courseThrough] at left

theorem course_arrival :
    (course e t m).arrival ∈ e.model.states.map StateModel.name ∧
      (e.isHierarchical →
        e.model.hierarchy.entryChild? (e.stateIndex (course e t m).arrival) = none) := by
  unfold course
  split
  · exact ⟨settled.known, settled.final⟩
  · split
    · next nested =>
        obtain ⟨place, final⟩ := move_arrival accepted settled member nested
        refine ⟨stateAt_known place, fun _ => ?_⟩
        exact (congrArg _ (index_stateAt place)).trans final
    · next flat => exact ⟨(accepted.ends t member).2, fun nested => absurd nested flat⟩

theorem walked_settled {result : Bool × Machine σ ω × List (TraceEntry υ)}
    (walked : (course e t m).Walked e.model.hierarchy m result) : Settled e result.2.1 := by
  cases taken : result.1 with
  | false =>
      obtain ⟨state, prior, inside, history⟩ := walked.broken taken
      exact settled.recordAll state history fun i left =>
        (course_left accepted settled (inside.subset left)).2
  | true =>
      obtain ⟨state, history, _, _⟩ := walked.done taken
      obtain ⟨known, final⟩ := course_arrival accepted settled member
      constructor
      · rwa [state]
      · rwa [state]
      · intro nested
        rw [history, History.recordAll_size, settled.size nested]
      · intro nested
        rw [history]
        exact (settled.sound nested).recordAll _ fun i left => (course_left accepted settled left).2

end Accepted

end Statewright.Execution
