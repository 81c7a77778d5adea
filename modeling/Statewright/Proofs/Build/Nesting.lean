import Statewright.Proofs.Build.Growth
import Statewright.Proofs.Build.Tables

/-!
# Entry children

Where the rules on nested states find no error, a composite state is entered through the one child
marked for it, or through its first child. For the latter it needs a history, and lacks one only if
an orphan passes for one of its children.
-/

namespace Statewright

open Grammar Declaration

namespace Check

theorem compositeEntry_clean {states : List Nested}
    (quiet : ∀ f ∈ compositeEntry states, f.isError = false) {s : Nested} (member : s ∈ states)
    (composite : isComposite states s.name) :
    ((childrenOf states s.name).filter (·.initial) = [] ∧ s.history ≠ .none) ∨
      ∃ child, (childrenOf states s.name).filter (·.initial) = [child] := by
  rcases marked : (childrenOf states s.name).filter (·.initial) with
    _ | ⟨child, _ | ⟨second, others⟩⟩
  · refine .inl ⟨marked, fun forgetful => ?_⟩
    have reported : .noEntryChild s.name ∈ compositeEntry states :=
      List.mem_filterMap.mpr ⟨s, member, by simp [composite, marked, forgetful]⟩
    cases quiet _ reported
  · exact .inr ⟨child, marked⟩
  · have reported : .severalInitial s.name ((child :: second :: others).map Nested.name) ∈
        compositeEntry states :=
      List.mem_filterMap.mpr ⟨s, member, by simp [composite, marked]⟩
    cases quiet _ reported

end Check

namespace Build

def Draft.orphanText? (d : Draft) (name : String) : Option String :=
  (d.orphans.find? (·.1 == name)).map (·.2)

theorem Draft.orphanText?_mem {d : Draft} {name text : String}
    (found : d.orphanText? name = some text) : (name, text) ∈ d.orphans := by
  obtain ⟨orphan, here, rfl⟩ := Option.map_eq_some_iff.mp found
  have named : orphan.1 = name := by simpa using List.find?_some here
  exact named ▸ List.mem_of_find?_eq_some here

def nestedState (d : Draft) (s : StateModel) : Check.Nested where
  name := s.name
  parent := s.parent.or (d.orphanText? s.name)
  initial := s.initial
  history := s.history

theorem nestedStates_eq (d : Draft) : nestedStates d = d.states.map (nestedState d) := rfl

theorem isComposite_iff {d : Draft} {name : String} :
    Check.isComposite (nestedStates d) name ↔
      ∃ s ∈ d.states, s.parent.or (d.orphanText? s.name) = some name := by
  rw [Check.isComposite, Bool.not_eq_true', List.isEmpty_eq_false_iff_exists_mem]
  simp only [Check.childrenOf, nestedStates_eq, List.mem_filter, List.mem_map]
  constructor
  · rintro ⟨_, ⟨s, inside, rfl⟩, above⟩
    exact ⟨s, inside, beq_iff_eq.mp above⟩
  · rintro ⟨s, inside, above⟩
    exact ⟨_, ⟨s, inside, rfl⟩, beq_iff_eq.mpr above⟩

section Quiet

variable {cx : Setting} {d : Draft} (quiet : ∀ f ∈ nestingFindings d, f.isError = false)
include quiet

theorem nested_known {s : StateModel} {p : String} (member : s ∈ d.states)
    (above : (nestedState d s).parent = some p) : ((finish cx d).stateIndex? p).isSome := by
  have listed : nestedState d s ∈ nestedStates d := List.mem_map_of_mem member
  have place : Check.placeOf? (nestedStates d) p = (finish cx d).stateIndex? p := by
    rw [Check.placeOf?, nestedStates_eq, List.findIdx?_map]
    rfl
  rw [← place]
  by_contra unknown
  have reported : Finding.orphan s.name p ∈ Check.orphanSubstates (nestedStates d) :=
    List.mem_filterMap.mpr ⟨nestedState d s, listed, by simp [above, unknown]; rfl⟩
  cases quiet (.orphan s.name p) (by simp [nestingFindings, reported])

theorem parent_known {s : StateModel} {p : String} (member : s ∈ d.states)
    (parent : s.parent = some p) : ((finish cx d).stateIndex? p).isSome :=
  nested_known quiet member (by simp [nestedState, parent])

theorem marked_children {s c : StateModel} (member : s ∈ d.states)
    (child : c ∈ (finish cx d).childrenOf s.name) :
    let claims := fun x : StateModel =>
      (x.parent.or (d.orphanText? x.name) == some s.name) && x.initial
    (d.states.filter claims = [] ∧ s.history ≠ .none) ∨ ∃ x, d.states.filter claims = [x] := by
  intro claims
  obtain ⟨inside, parent⟩ := Model.mem_childrenOf.mp child
  have composite : Check.isComposite (nestedStates d) s.name :=
    isComposite_iff.mpr ⟨c, inside, by simp [parent]⟩
  have marked : (Check.childrenOf (nestedStates d) s.name).filter (·.initial) =
      (d.states.filter claims).map (nestedState d) := by
    rw [Check.childrenOf, List.filter_filter, nestedStates_eq, List.filter_map]
    refine congrArg (List.map (nestedState d)) (List.filter_congr fun x _ => ?_)
    exact Bool.and_comm _ _
  have findings : ∀ f ∈ Check.compositeEntry (nestedStates d), f.isError = false := by
    intro f found
    exact quiet f (by simp [nestingFindings, found])
  rcases Check.compositeEntry_clean findings (s := nestedState d s) (List.mem_map_of_mem member)
    composite with ⟨none, remembers⟩ | ⟨one, alone⟩
  · exact .inl ⟨List.map_eq_nil_iff.mp (marked.symm.trans none), remembers⟩
  · obtain ⟨x, alone, _⟩ := List.map_eq_singleton_iff.mp (marked.symm.trans alone)
    exact .inr ⟨x, alone⟩

theorem entryChild?_choice {s c : StateModel} (member : s ∈ d.states)
    (entry : (finish cx d).entryChild? s.name = some c) :
    (c.initial ∧ ∀ o ∈ (finish cx d).childrenOf s.name, o.initial → o = c) ∨
      ((finish cx d).childrenOf s.name).head? = some c ∧
        (∀ o ∈ (finish cx d).childrenOf s.name, o.initial = false) ∧
        (s.history ≠ .none ∨
          ∃ x ∈ d.states, x.initial ∧ x.parent = none ∧ (x.name, s.name) ∈ d.orphans) := by
  have child := Model.entryChild?_mem entry
  have marked := marked_children quiet member child
  extract_lets claims at marked
  -- every marked child claims the state, but so does a marked orphan, which is no child
  have claimed {o : StateModel} (below : o ∈ (finish cx d).childrenOf s.name)
      (initial : o.initial) : o ∈ d.states.filter claims := by
    obtain ⟨inside, parent⟩ := Model.mem_childrenOf.mp below
    exact List.mem_filter.mpr ⟨inside, by simp [claims, parent, initial]⟩
  rcases Option.or_eq_some_iff.mp entry with found | ⟨unmarked, first⟩
  · have initial : c.initial = true := by simpa using List.find?_some found
    refine .inl ⟨initial, fun o below also => ?_⟩
    rcases marked with ⟨none, _⟩ | ⟨x, alone⟩
    · simp [none] at claimed
      simp [claimed child] at initial
    · have here := claimed child initial
      have there := claimed below also
      rw [alone, List.mem_singleton] at here there
      exact there.trans here.symm
  · have plain : ∀ o ∈ (finish cx d).childrenOf s.name, o.initial = false := by
      simpa using unmarked
    refine .inr ⟨first, plain, ?_⟩
    rcases marked with ⟨_, remembers⟩ | ⟨x, alone⟩
    · exact .inl remembers
    · have only : x ∈ d.states.filter claims := by simp [alone]
      obtain ⟨inside, claim⟩ := List.mem_filter.mp only
      simp only [claims, Bool.and_eq_true, beq_iff_eq] at claim
      obtain ⟨above, initial⟩ := claim
      refine .inr ⟨x, inside, initial, ?_⟩
      rcases Option.or_eq_some_iff.mp above with parent | ⟨none, text⟩
      · have below : x ∈ (finish cx d).childrenOf s.name :=
          Model.mem_childrenOf.mpr ⟨inside, parent⟩
        simp [plain x below] at initial
      · exact ⟨none, Draft.orphanText?_mem text⟩

end Quiet

end Build

end Statewright
