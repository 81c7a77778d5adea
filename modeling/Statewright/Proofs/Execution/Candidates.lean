import Mathlib.Data.List.Nodup
import Statewright.Proofs.Execution.Transfer

/-!
# Candidates

The candidates of a state on a trigger are the transitions registered for the trigger on the levels
of the state, itself first and then its ancestors, at most one for each level.
-/

namespace Statewright.Execution

variable (e : Emission)

/-- The state and, where states are nested, its ancestors, innermost first. -/
def levels (state : String) : List String :=
  state :: if e.isHierarchical then (e.model.ancestors state).map StateModel.name else []

def registered? (trigger level : String) : Option Transition :=
  e.model.transitions.find? fun t => t.source == level && t.trigger == trigger

variable {e}

theorem parentChain_names (n : Nat) {name : String} {i : Nat}
    (found : e.model.stateIndex? name = some i) :
    (e.model.parentChain n (some name)).map StateModel.name =
      (e.model.hierarchy.climb n i).map (stateAt e) := by
  have places := congrArg (List.map fun state => (state.map StateModel.name).getD "")
    (e.model.parentChain_places n found)
  rw [List.map_map, List.map_map] at places
  exact places

theorem ancestors_names (wf : e.model.hierarchy.WellFormed e.model.IsPlace) {name : String}
    {i : Nat} (found : e.model.stateIndex? name = some i) :
    name :: (e.model.ancestors name).map StateModel.name =
      (e.model.hierarchy.ancestorsOrSelf i).map (stateAt e) := by
  obtain ⟨s, _, rfl, first⟩ := Model.stateIndex?_eq_some found
  have chain := parentChain_names (e.model.states.length + 2) found
  have bound := wf.climb_length_le (e.model.hierarchy.size + 2) i (wf.lt_size ⟨s.name, found⟩)
  have whole : e.model.hierarchy.climb (e.model.hierarchy.size + 2) i =
      e.model.hierarchy.ancestorsOrSelf i :=
    Hierarchy.climb_stable _ i (Nat.le_succ_of_le bound)
  rw [← Model.hierarchy_size, whole] at chain
  rw [← chain, Model.ancestors, Model.parentChain, first, Model.hierarchy_size]
  rfl

section Accepted

variable (accepted : e.Accepted) {state : String}
include accepted

theorem levels_eq (nested : e.isHierarchical)
    (known : state ∈ e.model.states.map StateModel.name) :
    levels e state =
      (e.model.hierarchy.ancestorsOrSelf (e.stateIndex state)).map (stateAt e) := by
  obtain ⟨s, member, rfl⟩ := List.mem_map.mp known
  obtain ⟨i, found⟩ := Option.isSome_iff_exists.mp (Model.stateIndex?_isSome member)
  rw [stateIndex_eq found, ← ancestors_names (accepted.tables nested) found, levels, if_pos nested]

theorem levels_nodup (known : state ∈ e.model.states.map StateModel.name) :
    (levels e state).Nodup := by
  cases nested : e.isHierarchical with
  | false => simp [levels, nested]
  | true =>
      have wf := accepted.tables nested
      have listed {i : Nat} :
          i ∈ e.model.hierarchy.ancestorsOrSelf (e.stateIndex state) → e.model.IsPlace i :=
        wf.chain_listed (stateAt_stateIndex known).2
      rw [levels_eq accepted nested known]
      exact (wf.chain_nodup _).map_on fun i left j right same =>
        stateAt_inj (listed left) (listed right) same

omit accepted in
theorem filter_eq_find? {α : Type} (p : α → Bool) {l : List α}
    (alone : l.Pairwise fun a b => ¬(p a ∧ p b)) : l.filter p = (l.find? p).toList := by
  induction l with
  | nil => rfl
  | cons a l ih =>
      obtain ⟨here, later⟩ := List.pairwise_cons.mp alone
      cases holds : p a with
      | false => simpa [holds] using ih later
      | true =>
          have others : l.filter p = [] :=
            List.filter_eq_nil_iff.mpr fun b member also => here b member ⟨holds, also⟩
          simp [holds, others]

theorem transitionsFrom_filter (level trigger : String) :
    (e.model.transitionsFrom level).filter (·.trigger == trigger) =
      (registered? e trigger level).toList := by
  rw [Model.transitionsFrom, List.filter_filter, registered?, ← filter_eq_find?]
  · exact List.filter_congr fun t _ => Bool.and_comm _ _
  · refine accepted.distinct.imp fun {t u} apart both => apart ?_
    simp only [Bool.and_eq_true, beq_iff_eq] at both
    exact ⟨both.1.1.trans both.2.1.symm, both.1.2.trans both.2.2.symm⟩

theorem candidatesOn_eq (state trigger : String) :
    e.model.candidatesOn state trigger = (levels e state).filterMap (registered? e trigger) := by
  have effective : e.model.effectiveTransitions state =
      (levels e state).flatMap e.model.transitionsFrom := by
    cases nested : e.isHierarchical <;>
      simp_all [Model.effectiveTransitions, levels, Emission.isHierarchical, List.flatMap_map]
  rw [Model.candidatesOn, effective, List.filter_flatMap, List.filterMap_eq_flatMap_toList]
  exact congrArg (fun f => (levels e state).flatMap f)
    (funext fun level => transitionsFrom_filter accepted level trigger)

variable {trigger : String} {t : Transition}

theorem candidate_registered (candidate : t ∈ e.model.candidatesOn state trigger) :
    t ∈ e.model.transitions ∧ t.source ∈ levels e state ∧ t.trigger = trigger := by
  rw [candidatesOn_eq accepted] at candidate
  obtain ⟨level, member, found⟩ := List.mem_filterMap.mp candidate
  have ends : t.source = level ∧ t.trigger = trigger := by
    simpa using List.find?_some found
  exact ⟨List.mem_of_find?_eq_some found, ends.1.symm ▸ member, ends.2⟩

theorem candidate_active (nested : e.isHierarchical)
    (known : state ∈ e.model.states.map StateModel.name)
    (candidate : t ∈ e.model.candidatesOn state trigger) :
    e.stateIndex t.source ∈ e.model.hierarchy.ancestorsOrSelf (e.stateIndex state) := by
  have level := (candidate_registered accepted candidate).2.1
  rw [levels_eq accepted nested known] at level
  obtain ⟨i, member, named⟩ := List.mem_map.mp level
  have place := (accepted.tables nested).chain_listed (stateAt_stateIndex known).2 member
  rwa [← named, index_stateAt place]

end Accepted

end Statewright.Execution
