import Statewright.Proofs.Hierarchy.Resumption

/-!
# Descent

Entering a state turns to one of its children as long as there is one. In a well-formed table this
comes to an end by itself: no state is passed twice, and so there are fewer turns than states.
-/

namespace Statewright.Hierarchy

variable (h : Hierarchy) (past : History)

def ascend : Nat → Nat → Option Nat
  | 0, s => some s
  | n + 1, s => (h.parent? s).bind (ascend n)

def turn? (deep : Bool) (state : Nat) : Option (Bool × Nat) :=
  (h.entryChild? state).map fun initial =>
    let mode := h.modeUnder deep state
    (mode = .deep, past.nextEntry mode state initial)

/-- The walk from a state down to a leaf in so many turns; nothing bounds it but where it ends. -/
inductive Walk : Nat → Bool → Nat → Nat → Prop
  | stop {deep : Bool} {s : Nat} : h.turn? past deep s = none → Walk 0 deep s s
  | turn {n s next leaf : Nat} {deep further : Bool} :
      h.turn? past deep s = some (further, next) → Walk n further next leaf →
        Walk (n + 1) deep s leaf

variable {h past}

theorem Walk.descend {n s leaf : Nat} {deep : Bool} (walk : h.Walk past n deep s leaf) {bound : Nat}
    (enough : n ≤ bound) : h.descend past bound deep s = leaf := by
  induction walk generalizing bound with
  | stop still => exact descend_of_leaf past bound _ (Option.map_eq_none_iff.mp still)
  | turn turned _ ih =>
      cases bound with
      | zero => omega
      | succ bound =>
          obtain ⟨initial, entry, same⟩ := Option.map_eq_some_iff.mp turned
          obtain ⟨rfl, rfl⟩ := Prod.mk.inj same
          rw [Hierarchy.descend, entry]
          exact ih (Nat.le_of_succ_le_succ enough)

namespace WellFormed

variable {Listed : Nat → Prop} (wf : h.WellFormed Listed)
include wf

theorem ascend_root {s : Nat} (listed : Listed s) :
    ∃ n root, n < h.size ∧ h.ascend n s = some root ∧ h.parent? root = none := by
  -- going up shortens the chain; the size of the table does not change
  suffices holds : ∃ n root, n < (h.ancestorsOrSelf s).length ∧ h.ascend n s = some root ∧
      h.parent? root = none by
    obtain ⟨n, root, short, above⟩ := holds
    exact ⟨n, root, Nat.lt_of_lt_of_le short (wf.chain_length_le listed), above⟩
  clear listed
  induction s using wf.acyclic.induction with
  | _ s ih =>
      cases up : h.parent? s with
      | none => exact ⟨0, s, List.length_pos_of_mem (wf.self_mem s), rfl, up⟩
      | some p =>
          obtain ⟨n, root, short, above, top⟩ := ih p up
          refine ⟨n + 1, root, ?_, by simpa [ascend, up] using above, top⟩
          rw [wf.chain_of_parent up, List.length_cons]
          omega

variable (sound : past.Sound h Listed)
include sound

/-- Each turn lengthens the chain of ancestors, which the size of the table bounds. -/
theorem walk_ends {s : Nat} (listed : Listed s) (deep : Bool) :
    ∃ n leaf, n + (h.ancestorsOrSelf s).length ≤ h.size ∧ h.Walk past n deep s leaf := by
  induction room : h.size - (h.ancestorsOrSelf s).length using Nat.strong_induction_on
    generalizing s deep with
  | _ k ih =>
      have short := wf.chain_length_le listed
      cases entry : h.entryChild? s with
      | none => exact ⟨0, s, by omega, .stop (by simp [turn?, entry])⟩
      | some initial =>
          have child := wf.nextEntry_child sound listed entry (h.modeUnder deep s)
          have longer := congrArg List.length (wf.chain_of_parent child.1)
          have within := wf.chain_length_le child.2
          rw [List.length_cons] at longer
          obtain ⟨n, leaf, below, walk⟩ :=
            ih _ (by omega) child.2 (h.modeUnder deep s = .deep) rfl
          exact ⟨n + 1, leaf, by omega, .turn (by simp [turn?, entry]) walk⟩

theorem resolveEntry_walk {s : Nat} (listed : Listed s) :
    ∃ n, n < h.size ∧ h.Walk past n false s (h.resolveEntry past s) := by
  obtain ⟨n, leaf, within, walk⟩ := wf.walk_ends sound listed false
  have nonempty := List.length_pos_of_mem (wf.self_mem s)
  have enough : n ≤ 2 * h.entryChildren.length + 1 := by
    rw [wf.entry_length]
    omega
  refine ⟨n, by omega, ?_⟩
  rw [resolveEntry, walk.descend enough]
  exact walk

end WellFormed

end Statewright.Hierarchy
