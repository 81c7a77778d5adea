import Mathlib.Data.List.NodupEquivFin
import Statewright.Proofs.Check.Reachability
import Statewright.Proofs.Execution.Session

/-!
# Confinement

A set of states that neither transitions nor entries nor parents lead out of is never left: active
states lie in it, and so does whatever the history remembers. The states reached from the first one
are such a set, so that none of the others is ever active.
-/

namespace Statewright

namespace Model

variable (m : Model)

def unreachedPlaces : List Nat :=
  Check.unreachedFrom (m.states.map StateModel.name) m.edges 0

theorem unreachable_eq :
    m.unreachable = m.unreachedPlaces.map fun i =>
      .unreachable ((m.states[i]?.map StateModel.name).getD "") := by
  unfold unreachable
  cases states : m.states with
  | nil => simp [unreachedPlaces, Check.unreachableStates, Check.unreachedFrom, states]
  | cons first others =>
      have begins : ((first :: others).map StateModel.name).head?.bind
          ((first :: others).map StateModel.name).idxOf? = some 0 := by
        simp [List.idxOf?_cons]
      rw [Check.unreachableStates_eq begins, ← states]
      exact List.map_congr_left fun i _ => by rw [List.getElem?_map]

theorem idxOf?_names (name : String) :
    (m.states.map StateModel.name).idxOf? name = m.stateIndex? name := by
  rw [List.idxOf?, List.findIdx?_map]
  rfl

def Leads (i j : Nat) : Prop := Check.Linked (m.states.map StateModel.name) m.edges i j

variable {m}

theorem leads_of_edge {source target : String} {i j : Nat} (edge : (source, target) ∈ m.edges)
    (here : m.stateIndex? source = some i) (there : m.stateIndex? target = some j) :
    m.Leads i j :=
  ⟨(source, target), edge, (m.idxOf?_names source).trans here, (m.idxOf?_names target).trans there⟩

theorem leads_entry (nested : m.config.hierarchy) {s c : Nat} (place : m.IsPlace s)
    (entry : m.hierarchy.entryChild? s = some c) : m.Leads s c := by
  obtain ⟨name, found⟩ := place
  obtain ⟨owner, here, rfl, _⟩ := stateIndex?_eq_some found
  rw [entryChild?_eq, here] at entry
  obtain ⟨child, chosen, there⟩ := Option.bind_eq_some_iff.mp entry
  rw [Option.bind_some] at chosen
  refine leads_of_edge (List.mem_append_right _ ?_) found there
  rw [if_pos nested]
  exact List.mem_flatMap.mpr ⟨owner, List.mem_of_getElem? here, by simp [chosen]⟩

theorem leads_parent (nested : m.config.hierarchy) {s p : Nat} (place : m.IsPlace s)
    (up : m.hierarchy.parent? s = some p) : m.Leads s p := by
  obtain ⟨name, found⟩ := place
  obtain ⟨child, here, rfl, _⟩ := stateIndex?_eq_some found
  rw [parent?_eq, here] at up
  obtain ⟨above, parent, there⟩ := Option.bind_eq_some_iff.mp up
  rw [Option.bind_some] at parent
  refine leads_of_edge (List.mem_append_right _ ?_) found there
  rw [if_pos nested]
  exact List.mem_flatMap.mpr ⟨child, List.mem_of_getElem? here, by simp [parent]⟩

end Model

namespace Execution

variable {σ υ ω : Type} {e : Emission}

theorem stateIndex?_known {name : String} (known : name ∈ e.model.states.map StateModel.name) :
    e.model.stateIndex? name = some (e.stateIndex name) := by
  obtain ⟨s, member, rfl⟩ := List.mem_map.mp known
  obtain ⟨i, found⟩ := Option.isSome_iff_exists.mp (Model.stateIndex?_isSome member)
  rw [found, stateIndex_eq found]

/-! ## Closed sets -/

structure Closed (e : Emission) (Inside : Nat → Prop) : Prop where
  edges : ∀ t ∈ e.model.transitions,
    Inside (e.stateIndex t.source) → Inside (e.stateIndex t.target)
  entries : e.isHierarchical → ∀ s c, e.model.IsPlace s →
    e.model.hierarchy.entryChild? s = some c → Inside s → Inside c
  parents : e.isHierarchical → ∀ s p, e.model.IsPlace s →
    e.model.hierarchy.parent? s = some p → Inside s → Inside p

structure Confined (e : Emission) (Inside : Nat → Prop) (m : Machine σ ω) : Prop where
  active : ∀ i ∈ e.model.hierarchy.ancestorsOrSelf (e.stateIndex m.state), Inside i
  remembered : ∀ s c, m.history.lastActive? s = some c → Inside c

variable {Inside : Nat → Prop}

theorem Confined.of_same {m n : Machine σ ω} (confined : Confined e Inside m)
    (state : n.state = m.state) (history : n.history = m.history) : Confined e Inside n := by
  obtain ⟨active, remembered⟩ := confined
  constructor
  · rwa [state]
  · rwa [history]

theorem recordAll_inside {past : History} {table : Hierarchy} {left : List Nat}
    (remembered : ∀ s c, past.lastActive? s = some c → Inside c) (inside : ∀ i ∈ left, Inside i) :
    ∀ s c, (past.recordAll table left).lastActive? s = some c → Inside c := by
  induction left generalizing past with
  | nil => exact remembered
  | cons x left ih =>
      refine ih (fun s c here => ?_) fun i member => inside i (List.mem_cons_of_mem x member)
      rw [History.lastActive?_record] at here
      split at here
      · exact Option.some.inj here ▸ inside x List.mem_cons_self
      · exact remembered s c here

section Accepted

variable (accepted : e.Accepted)
include accepted

theorem reached_closed :
    Closed e (Relation.ReflTransGen e.model.Leads 0) := by
  constructor
  · intro t member path
    obtain ⟨source, target⟩ := accepted.ends t member
    have edge : (t.source, t.target) ∈ e.model.edges :=
      List.mem_append_left _ (List.mem_map_of_mem member)
    exact path.tail
      (Model.leads_of_edge edge (stateIndex?_known source) (stateIndex?_known target))
  · exact fun nested s c place entry path => path.tail (Model.leads_entry nested place entry)
  · exact fun nested s p place up path => path.tail (Model.leads_parent nested place up)

theorem places_closed : Closed e e.model.IsPlace where
  edges _ member _ := target_place accepted member
  entries nested _ _ _ entry _ := (accepted.tables nested).entry_listed entry
  parents nested _ _ _ up _ := (accepted.tables nested).parent_listed up

variable (closed : Closed e Inside)

theorem source_active {state trigger : String} {t : Transition}
    (known : state ∈ e.model.states.map StateModel.name)
    (candidate : t ∈ e.model.candidatesOn state trigger) :
    e.stateIndex t.source ∈ e.model.hierarchy.ancestorsOrSelf (e.stateIndex state) := by
  by_cases nested : e.isHierarchical
  · exact candidate_active accepted nested known candidate
  · have level := (candidate_registered accepted candidate).2.1
    have same : t.source = state := by simpa [levels, nested] using level
    rw [Hierarchy.ancestorsOrSelf_root (Model.parentless_root (accepted.parentless nested) _), same]
    exact List.mem_singleton_self _

include closed

theorem above_inside {s : Nat} (place : e.model.IsPlace s) (inside : Inside s) :
    ∀ i ∈ e.model.hierarchy.ancestorsOrSelf s, Inside i := by
  by_cases nested : e.isHierarchical
  · have wf := accepted.tables nested
    refine fun i above => wf.ancestor_induction (motive := Inside) s inside ?_ above
    exact fun x p member up => closed.parents nested x p (wf.chain_listed place member) up
  · rw [Hierarchy.ancestorsOrSelf_root (Model.parentless_root (accepted.parentless nested) _)]
    simpa using inside

theorem descend_inside (nested : e.isHierarchical) {past : History}
    (sound : past.Sound e.model.hierarchy e.model.IsPlace)
    (remembered : ∀ s c, past.lastActive? s = some c → Inside c) (n : Nat) (deep : Bool) {s : Nat}
    (place : e.model.IsPlace s) (inside : Inside s) :
    Inside (e.model.hierarchy.descend past n deep s) := by
  induction n generalizing deep s with
  | zero => exact inside
  | succ n ih =>
      rw [Hierarchy.descend]
      cases entry : e.model.hierarchy.entryChild? s with
      | none => exact inside
      | some initial =>
          have child := (accepted.tables nested).nextEntry_child sound place entry
            (e.model.hierarchy.modeUnder deep s)
          refine ih _ child.2 ?_
          have initially := closed.entries nested s initial place entry inside
          unfold History.nextEntry
          split
          · exact initially
          · cases slot : past.lastActive? s with
            | none => exact initially
            | some c => exact remembered s c slot

/-! ## Runs -/

theorem start_confined {state : String} (declared : state ∈ e.model.states.map StateModel.name)
    (inside : Inside (e.stateIndex state)) (data : σ) :
    Confined e Inside (start e state data : Machine σ ω) := by
  obtain ⟨_, place⟩ := stateAt_stateIndex declared
  have settled : Settled e (start e state data : Machine σ ω) :=
    start_settled accepted declared data
  have empty (n s c : Nat) (slot : (History.ofSize n).lastActive? s = some c) : Inside c := by
    simp [History.lastActive?_ofSize] at slot
  refine ⟨above_inside accepted closed settled.place ?_, empty _⟩
  by_cases nested : e.isHierarchical
  · have fresh :
        (History.ofSize e.model.states.length).Sound e.model.hierarchy e.model.IsPlace := by
      intro s c slot
      simp [History.lastActive?_ofSize] at slot
    have below := (accepted.tables nested).descend_below fresh place
      (2 * e.model.hierarchy.entryChildren.length + 1) false
    simp only [start, nested, if_true]
    rw [Hierarchy.resolveEntry, index_stateAt below.1]
    exact descend_inside accepted closed nested fresh (empty _) _ _ place inside
  · simpa [start, nested] using inside

variable {m : Machine σ ω} (settled : Settled e m) (confined : Confined e Inside m)
include settled confined

theorem arrival_inside {t : Transition} {trigger : String}
    (candidate : t ∈ e.model.candidatesOn m.state trigger) :
    Inside (e.stateIndex (course e t m).arrival) := by
  have member := (candidate_registered accepted candidate).1
  have source := confined.active _ (source_active accepted settled.known candidate)
  have target := closed.edges t member source
  unfold course
  split
  · have self : e.stateIndex m.state ∈
        e.model.hierarchy.ancestorsOrSelf (e.stateIndex m.state) := by
      simp [Hierarchy.ancestorsOrSelf, Hierarchy.climb]
    exact confined.active _ self
  · split
    · next nested =>
        have wf := accepted.tables nested
        have place := (move_arrival accepted settled member nested).1
        have exits : ∀ i ∈ (moveOf e t m).1.exits, Inside i := fun i left =>
          confined.active i (move_exits accepted settled nested left).1
        show Inside (e.stateIndex (stateAt e (moveOf e t m).1.leaf))
        rw [index_stateAt place]
        exact descend_inside accepted closed nested
          (wf.move_sound (settled.sound nested) settled.place)
          (recordAll_inside confined.remembered exits) _ _ (target_place accepted member) target
    · exact target

theorem walked_confined {t : Transition} {trigger : String}
    (candidate : t ∈ e.model.candidatesOn m.state trigger)
    {result : Bool × Machine σ ω × List (TraceEntry υ)}
    (walked : (course e t m).Walked e.model.hierarchy m result) :
    Confined e Inside result.2.1 := by
  have member := (candidate_registered accepted candidate).1
  have left : ∀ i ∈ (course e t m).left, Inside i := fun i passed =>
    confined.active i (course_left accepted settled passed).1
  cases taken : result.1 with
  | false =>
      obtain ⟨state, prior, part, history⟩ := walked.broken taken
      constructor
      · rw [state]
        exact confined.active
      · rw [history]
        exact recordAll_inside confined.remembered fun i passed => left i (part.subset passed)
  | true =>
      obtain ⟨state, history, _⟩ := walked.done taken
      have known := (course_arrival accepted settled member).1
      constructor
      · rw [state]
        exact above_inside accepted closed (stateAt_stateIndex known).2
          (arrival_inside accepted closed settled confined candidate)
      · rw [history]
        exact recordAll_inside confined.remembered left

variable {h : Host σ υ ω}

theorem step_confined (call : Call σ υ ω) : Confined e Inside (stepOf e h m call).after := by
  rcases call_outcome (h := h) accepted settled call with
    ⟨_, state, history, _⟩ | ⟨_, _, t, _, _, candidate, walked, _⟩
  · exact confined.of_same state history
  · exact walked_confined accepted closed settled confined candidate walked

theorem after_confined (calls : List (Call σ υ ω)) : Confined e Inside (after e h m calls) := by
  induction calls generalizing m with
  | nil => exact confined
  | cons call rest ih =>
      exact ih (step_settled accepted settled call)
        (step_confined accepted closed settled confined call)

end Accepted

theorem two_le_count {names : List String} {name : String} {i j : Nat} (apart : i ≠ j)
    (here : names[i]? = some name) (there : names[j]? = some name) : 2 ≤ names.count name := by
  obtain ⟨below, rfl⟩ := List.getElem?_eq_some_iff.mp here
  obtain ⟨bound, same⟩ := List.getElem?_eq_some_iff.mp there
  apply List.duplicate_iff_two_le_count.mp
  apply List.duplicate_iff_exists_distinct_get.mpr
  rcases Nat.lt_or_gt_of_ne apart with before | behind
  · exact ⟨⟨i, below⟩, ⟨j, bound⟩, before, rfl, same.symm⟩
  · exact ⟨⟨j, bound⟩, ⟨i, below⟩, behind, same.symm, rfl⟩

theorem stateAt_listed {i : Nat} (below : i < e.model.states.length) :
    (e.model.states.map StateModel.name)[i]? = some (stateAt e i) := by
  simp [stateAt, below]

/-- What is reported as unreachable is never active in a machine that starts in the first state:
none of the places reported, and no state of a reported name that is declared once. -/
theorem unreachable_never_active (accepted : e.Accepted) (h : Host σ υ ω) {first : StateModel}
    (begins : e.model.states.head? = some first) (data : σ) (calls : List (Call σ υ ω)) :
    let m := after e h (start e first.name data) calls
    e.model.unreachable = e.model.unreachedPlaces.map (fun i => .unreachable (stateAt e i)) ∧
      (∀ i ∈ e.model.unreachedPlaces,
        i ∉ e.model.hierarchy.activePath (e.stateIndex m.state)) ∧
      ∀ name, .unreachable name ∈ e.model.unreachable →
        (e.model.states.map StateModel.name).count name = 1 → name ∉ activePath e m := by
  intro m
  have closed := reached_closed accepted
  have declared : first.name ∈ e.model.states.map StateModel.name :=
    List.mem_map_of_mem (List.mem_of_mem_head? begins)
  obtain ⟨others, states⟩ := List.head?_eq_some_iff.mp begins
  have zero : e.stateIndex first.name = 0 :=
    stateIndex_eq (by simp [Model.stateIndex?, states, List.findIdx?_cons])
  have begun : Settled e (start e first.name data : Machine σ ω) :=
    start_settled accepted declared data
  have confined : Confined e (Relation.ReflTransGen e.model.Leads 0) m :=
    after_confined accepted closed begun
      (start_confined accepted closed declared (zero ▸ .refl) data) calls
  have settled : Settled e m := after_settled accepted begun calls
  have idle : ∀ i ∈ e.model.unreachedPlaces,
      i ∉ e.model.hierarchy.activePath (e.stateIndex m.state) := by
    intro i reported active
    have below : 0 < (e.model.states.map StateModel.name).length := by simp [states]
    exact ((Check.mem_unreachedFrom below).mp reported).2
      (confined.active i (List.mem_reverse.mp active))
  refine ⟨e.model.unreachable_eq, idle, fun name reported once active => ?_⟩
  obtain ⟨j, path, rfl⟩ := List.mem_map.mp active
  rw [e.model.unreachable_eq] at reported
  obtain ⟨i, place, same⟩ := List.mem_map.mp reported
  have named : stateAt e i = stateAt e j := Finding.unreachable.inj same
  have apart : i ≠ j := fun alike => idle i place (alike ▸ path)
  have below : i < e.model.states.length := by simpa using (List.mem_filter.mp place).1
  have bound : j < e.model.states.length :=
    (above_inside accepted (places_closed accepted) settled.place settled.place j
      (List.mem_reverse.mp path)).lt
  have twice := two_le_count apart (named ▸ stateAt_listed below) (stateAt_listed bound)
  omega

section SpareLamp

open Declaration

def spareLampFacts : MachineFacts :=
  { lampFacts with
    declarations := lampFacts.declarations ++
      [⟨.state { state := lampReference "Spare", parent := some (lampReference "On") }, ⟨1, 0⟩⟩] }

def spareLampModule : ModuleFacts :=
  { lampModule with
    enums :=
      [⟨"State", ["Off", "On", "Low", "High", "Spare"].map lampMember⟩,
       ⟨"Trigger", ["Power", "Boost"].map lampMember⟩] }

def spareLamp : Emission :=
  { lamp with
    model := { lamp.model with
      states := lamp.model.states ++ [{ name := "Spare", parent := some "On" }] } }

theorem spareLamp_accepted : spareLamp.Accepted := ⟨spareLampFacts, spareLampModule, rfl, rfl⟩

theorem spare_never_lit :
    spareLamp.model.states.head? = some { name := "Off" } ∧
      spareLamp.model.unreachable = [.unreachable "Spare"] ∧
      ∀ calls, "Spare" ∉
        activePath spareLamp (after spareLamp lampHost (start spareLamp "Off" false) calls) := by
  have places : spareLamp.model.unreachedPlaces = [4] := by decide +kernel
  have reported : spareLamp.model.unreachable = [.unreachable "Spare"] := by
    rw [spareLamp.model.unreachable_eq, places]
    rfl
  have begins : spareLamp.model.states.head? = some { name := "Off" } := rfl
  refine ⟨begins, reported, fun calls => ?_⟩
  obtain ⟨_, _, idle⟩ :=
    unreachable_never_active spareLamp_accepted lampHost begins false calls
  exact idle "Spare" (reported ▸ List.mem_singleton_self _) (by decide)

end SpareLamp

end Execution

end Statewright
