import Statewright.Proofs.Build.Acceptance
import Statewright.Proofs.Hierarchy.Ancestors

/-!
# Tables of accepted machines

The tables of an accepted machine with nested states are well formed on the places that names stand
for, and say the same as the names of parents and children do.
-/

namespace Statewright

open Build

namespace Model

variable {m : Model}

/-- The place of the first state of some name. -/
def IsPlace (m : Model) (i : Nat) : Prop := ∃ name, m.stateIndex? name = some i

theorem stateIndex?_eq_some {name : String} {i : Nat} (found : m.stateIndex? name = some i) :
    ∃ s, m.states[i]? = some s ∧ s.name = name ∧ m.state? name = some s := by
  obtain ⟨bound, here, before⟩ := List.findIdx?_eq_some_iff_getElem.mp found
  refine ⟨m.states[i], List.getElem?_eq_getElem bound, by simpa using here, ?_⟩
  exact List.find?_eq_some_iff_getElem.mpr
    ⟨here, i, bound, rfl, fun j earlier => by simpa using before j earlier⟩

theorem stateIndex?_isSome {s : StateModel} (member : s ∈ m.states) :
    (m.stateIndex? s.name).isSome := by
  refine List.findIdx?_isSome.trans ?_
  exact List.any_eq_true.mpr ⟨s, member, by simp⟩

theorem stateIndex?_eq_none {name : String} (missing : m.stateIndex? name = none) :
    m.state? name = none :=
  List.find?_eq_none.mpr fun s member => by
    simpa using List.findIdx?_eq_none_iff.mp missing s member

theorem IsPlace.lt {i : Nat} (place : m.IsPlace i) : i < m.states.length := by
  obtain ⟨name, found⟩ := place
  obtain ⟨s, here, _⟩ := stateIndex?_eq_some found
  exact (List.getElem?_eq_some_iff.mp here).1

theorem hierarchy_size (m : Model) : m.hierarchy.size = m.states.length := by
  simp [Hierarchy.size, hierarchy, parentTable]

theorem parent?_eq (m : Model) (i : Nat) :
    m.hierarchy.parent? i = (m.states[i]?.bind StateModel.parent).bind m.stateIndex? := by
  cases here : m.states[i]? <;> simp [Hierarchy.parent?, hierarchy, parentTable, here]

theorem parentChain_places (m : Model) (n : Nat) {name : String} {i : Nat}
    (found : m.stateIndex? name = some i) :
    (m.parentChain n (some name)).map some = (m.hierarchy.climb n i).map (m.states[·]?) := by
  induction n generalizing name i with
  | zero => rfl
  | succ n ih =>
      obtain ⟨s, here, rfl, first⟩ := stateIndex?_eq_some found
      have up : m.hierarchy.parent? i = s.parent.bind m.stateIndex? := by
        simp [parent?_eq, here]
      rw [parentChain, first, Hierarchy.climb, up]
      refine congrArg₂ List.cons here.symm ?_
      cases parent : s.parent with
      | none => cases n <;> rfl
      | some p =>
          cases known : m.stateIndex? p with
          | none =>
              have missing := stateIndex?_eq_none known
              cases n <;> simp [parentChain, missing, known]
          | some j => simpa [known] using ih known

theorem entryChild?_eq (m : Model) (i : Nat) :
    m.hierarchy.entryChild? i =
      (m.states[i]?.bind fun s => m.entryChild? s.name).bind fun c => m.stateIndex? c.name := by
  cases here : m.states[i]? <;> simp [Hierarchy.entryChild?, hierarchy, entryTable, here]

theorem mode_eq {i : Nat} {s : StateModel} (here : m.states[i]? = some s) :
    m.hierarchy.mode i = s.history := by
  simp [Hierarchy.mode, hierarchy, here]

theorem mem_childrenOf {name : String} {c : StateModel} :
    c ∈ m.childrenOf name ↔ c ∈ m.states ∧ c.parent = some name := by
  simp [childrenOf]

theorem entryChild?_mem {name : String} {c : StateModel} (entry : m.entryChild? name = some c) :
    c ∈ m.childrenOf name := by
  rcases Option.or_eq_some_iff.mp entry with initial | ⟨_, first⟩
  · exact List.mem_of_find?_eq_some initial
  · exact List.mem_of_mem_head? first

theorem entryChild?_isSome {name : String} {c : StateModel} (child : c ∈ m.childrenOf name) :
    (m.entryChild? name).isSome := by
  unfold entryChild?
  cases children : m.childrenOf name with
  | nil => simp [children] at child
  | cons first others => simp

theorem entryChild?_place {i : Nat} {s : StateModel} (here : m.states[i]? = some s) :
    (m.hierarchy.entryChild? i).isSome ↔ m.isComposite s.name := by
  rw [entryChild?_eq, here]
  constructor
  · intro some_
    obtain ⟨c, entry⟩ := Option.isSome_iff_exists.mp (Option.isSome_of_isSome_bind some_)
    simpa [isComposite] using List.ne_nil_of_mem (entryChild?_mem entry)
  · intro composite
    obtain ⟨c, child⟩ := List.exists_mem_of_ne_nil (m.childrenOf s.name)
      (by simpa [isComposite] using composite)
    obtain ⟨c, entry⟩ := Option.isSome_iff_exists.mp (entryChild?_isSome child)
    simpa [entry] using stateIndex?_isSome (mem_childrenOf.mp (entryChild?_mem entry)).1

theorem stateIndex?_nested
    (first : m.states.Pairwise fun s t => s.name = t.name → t.parent = none) {i : Nat}
    {s : StateModel} (here : m.states[i]? = some s) (nested : s.parent.isSome) :
    m.stateIndex? s.name = some i := by
  obtain ⟨bound, rfl⟩ := List.getElem?_eq_some_iff.mp here
  refine List.findIdx?_eq_some_iff_getElem.mpr ⟨bound, by simp, fun j before same => ?_⟩
  have alone := List.pairwise_iff_getElem.mp first j i (Nat.lt_trans before bound) bound before
    (by simpa using same)
  simp [alone] at nested

theorem parent?_eq_some {i c : Nat} (up : m.hierarchy.parent? c = some i) :
    ∃ composite child, m.states[i]? = some composite ∧ m.states[c]? = some child ∧
      child.parent = some composite.name := by
  rw [parent?_eq] at up
  obtain ⟨name, named, found⟩ := Option.bind_eq_some_iff.mp up
  obtain ⟨child, here, parent⟩ := Option.bind_eq_some_iff.mp named
  obtain ⟨composite, there, rfl, _⟩ := stateIndex?_eq_some found
  exact ⟨composite, child, there, here, parent⟩

section Parentless

variable (parentless : ∀ s ∈ m.states, s.parent = none)
include parentless

theorem parentless_root (i : Nat) : m.hierarchy.parent? i = none := by
  rw [parent?_eq]
  cases here : m.states[i]? with
  | none => rfl
  | some s => simp [parentless s (List.mem_of_getElem? here)]

theorem parentless_leaf (i : Nat) : m.hierarchy.entryChild? i = none := by
  rw [entryChild?_eq, Option.bind_eq_none_iff]
  intro child entry
  obtain ⟨s, _, chosen⟩ := Option.bind_eq_some_iff.mp entry
  obtain ⟨member, parent⟩ := mem_childrenOf.mp (entryChild?_mem chosen)
  simp [parentless child member] at parent

end Parentless

theorem wellFormed (first : m.states.Pairwise fun s t => s.name = t.name → t.parent = none)
    (acyclic : WellFounded fun p s => m.hierarchy.parent? s = some p) :
    m.hierarchy.WellFormed m.IsPlace := by
  refine
    { acyclic, lt_size := ?_, entry_length := ?_, parent_listed := ?_, entry_listed := ?_
      entry_parent := ?_, entry_of_parent := ?_ }
  · intro s place
    exact hierarchy_size m ▸ place.lt
  · rw [hierarchy_size]
    simp [hierarchy, entryTable]
  · intro s p up
    rw [parent?_eq] at up
    obtain ⟨name, _, found⟩ := Option.bind_eq_some_iff.mp up
    exact ⟨name, found⟩
  · intro s c entry
    rw [entryChild?_eq] at entry
    obtain ⟨child, _, found⟩ := Option.bind_eq_some_iff.mp entry
    exact ⟨child.name, found⟩
  · rintro s c ⟨name, found⟩ entry
    obtain ⟨owner, here, rfl, _⟩ := stateIndex?_eq_some found
    rw [entryChild?_eq, here] at entry
    obtain ⟨child, chosen, place⟩ := Option.bind_eq_some_iff.mp entry
    obtain ⟨member, parent⟩ := mem_childrenOf.mp (entryChild?_mem chosen)
    obtain ⟨i, bound, rfl⟩ := List.getElem_of_mem member
    have alone := stateIndex?_nested first (List.getElem?_eq_getElem bound) (by simp [parent])
    rw [place, Option.some.injEq] at alone
    rw [parent?_eq, alone, List.getElem?_eq_getElem bound]
    simpa [parent] using found
  · intro s c _ up
    obtain ⟨composite, child, here, inside, parent⟩ := parent?_eq_some up
    refine (entryChild?_place here).mpr ?_
    have listed := mem_childrenOf.mpr ⟨List.mem_of_getElem? inside, parent⟩
    simpa [isComposite] using List.ne_nil_of_mem listed

end Model

theorem Build.nestedStates_parent {cx : Setting} {d : Draft} {s p : Nat}
    (up : (finish cx d).hierarchy.parent? s = some p) :
    Check.parentPlace? (nestedStates d) s = some p := by
  rw [Model.parent?_eq] at up
  obtain ⟨name, named, found⟩ := Option.bind_eq_some_iff.mp up
  obtain ⟨state, here, parent⟩ := Option.bind_eq_some_iff.mp named
  have listed : d.states[s]? = some state := here
  have place : Check.placeOf? (nestedStates d) name = some p := by
    rw [Check.placeOf?, nestedStates, List.findIdx?_map]
    exact found
  have above : (nestedStates d)[s]?.bind Check.Nested.parent = some name := by
    simp [nestedStates, listed, parent]
  rw [Check.parentPlace?, above]
  exact place

namespace Emission.Accepted

variable {e : Emission} (accepted : e.Accepted)
include accepted

theorem drafted : ∃ cx d, e.model = finish cx d ∧
    d.Orderly (cx.stateEnum.members.map EnumMember.name) ∧
    (e.isHierarchical → Check.circularHierarchy (nestedStates d) = []) := by
  obtain ⟨machine, facts, built, _⟩ := accepted
  obtain ⟨cx, report, clean, model⟩ := build_eq_some built
  refine ⟨cx, draft cx report, model, draft_orderly cx report, fun nested => ?_⟩
  have on : isNested cx (draft cx report) = true := by
    rw [isHierarchical, model] at nested
    exact nested
  exact checkNesting_clean on clean

theorem firstNested :
    e.model.states.Pairwise fun s t => s.name = t.name → t.parent = none := by
  obtain ⟨cx, d, model, orderly, _⟩ := accepted.drafted
  exact model ▸ orderly.firstNested

theorem distinct :
    e.model.transitions.Pairwise fun t u => ¬(t.source = u.source ∧ t.trigger = u.trigger) := by
  obtain ⟨cx, d, model, orderly, _⟩ := accepted.drafted
  exact model ▸ orderly.distinct

theorem edgeRoles : ∀ t ∈ e.model.transitions,
    (∀ c ∈ t.guard, c.role = .guard) ∧ ∀ c ∈ t.action, c.role = .action := by
  obtain ⟨cx, d, model, orderly, _⟩ := accepted.drafted
  exact model ▸ orderly.edgeRoles

theorem walkRoles : ∀ s ∈ e.model.states,
    (∀ c ∈ s.onEntry, c.role = .onEntry) ∧ ∀ c ∈ s.onExit, c.role = .onExit := by
  obtain ⟨cx, d, model, orderly, _⟩ := accepted.drafted
  exact model ▸ orderly.walkRoles

theorem ends : ∀ t ∈ e.model.transitions,
    t.source ∈ e.model.states.map StateModel.name ∧
      t.target ∈ e.model.states.map StateModel.name := by
  obtain ⟨cx, d, model, orderly, _⟩ := accepted.drafted
  have names := orderly.stateNames
  rw [model]
  exact names.symm ▸ orderly.ends

theorem quiet : e.model.config.hasEntryExit = false →
    ∀ s ∈ e.model.states, s.onEntry = none ∧ s.onExit = none := by
  obtain ⟨cx, d, model, orderly, _⟩ := accepted.drafted
  exact model ▸ orderly.quiet

theorem parentless (flat : ¬e.isHierarchical) : ∀ s ∈ e.model.states, s.parent = none := by
  obtain ⟨cx, d, model, _⟩ := accepted.drafted
  rw [isHierarchical, model] at flat
  rw [model]
  have plain : isNested cx d = false := by simpa [finish] using flat
  simp only [isNested, Bool.or_eq_false_iff, List.any_eq_false, Option.isSome_iff_ne_none, ne_eq,
    Decidable.not_not] at plain
  exact plain.2

theorem tables (nested : e.isHierarchical) :
    e.model.hierarchy.WellFormed e.model.IsPlace := by
  refine Model.wellFormed accepted.firstNested ?_
  obtain ⟨cx, d, model, _, clean⟩ := accepted.drafted
  rw [model]
  exact Subrelation.wf nestedStates_parent (Check.parents_acyclic (clean nested))

end Emission.Accepted

end Statewright
