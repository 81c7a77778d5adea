import Mathlib.Order.WellFounded
import Statewright.Hierarchy

/-!
# Ancestors

In a table without circles the states above a state form a chain that ends, and `ancestorsOrSelf`
is all of it. A transition then cuts the chains of the leaf it leaves and of the leaf it enters at
one and the same state.
-/

namespace Statewright.Hierarchy

variable {h : Hierarchy} {Listed : Nat → Prop}

/-- A table whose parents run in no circle and whose entries are children, on the places that
states go by. -/
structure WellFormed (h : Hierarchy) (Listed : Nat → Prop) : Prop where
  lt_size {s : Nat} : Listed s → s < h.size
  entry_length : h.entryChildren.length = h.size
  acyclic : WellFounded fun p s => h.parent? s = some p
  parent_listed {s p : Nat} : h.parent? s = some p → Listed p
  entry_listed {s c : Nat} : h.entryChild? s = some c → Listed c
  entry_parent {s c : Nat} : Listed s → h.entryChild? s = some c → h.parent? c = some s
  entry_of_parent {s c : Nat} : Listed s → h.parent? c = some s → (h.entryChild? s).isSome

theorem climb_above (n s x : Nat) (member : x ∈ h.climb n s) :
    x = s ∨ Relation.TransGen (fun p s => h.parent? s = some p) x s := by
  induction n generalizing s with
  | zero => simp [climb] at member
  | succ n ih =>
      cases up : h.parent? s with
      | none => simp_all [climb]
      | some p =>
          simp only [climb, up, List.mem_cons] at member
          rcases member with rfl | member
          · exact .inl rfl
          · rcases ih p member with rfl | above
            · exact .inr (.single up)
            · exact .inr (above.tail up)

theorem climb_stable (n s : Nat) (short : (h.climb (n + 1) s).length ≤ n) :
    h.climb (n + 1) s = h.climb n s := by
  induction n generalizing s with
  | zero => simp [climb] at short
  | succ n ih =>
      cases up : h.parent? s with
      | none => simp [climb, up]
      | some p =>
          have shorter : (h.climb (n + 1) p).length ≤ n := by simpa [climb, up] using short
          rw [climb, climb, up]
          exact congrArg (s :: ·) (ih p shorter)

theorem ancestorsOrSelf_root {s : Nat} (root : h.parent? s = none) :
    h.ancestorsOrSelf s = [s] := by
  simp [ancestorsOrSelf, climb, root]

namespace WellFormed

variable (wf : h.WellFormed Listed)
include wf

theorem climb_nodup (n s : Nat) : (h.climb n s).Nodup := by
  induction n generalizing s with
  | zero => simp [climb]
  | succ n ih =>
      cases up : h.parent? s with
      | none => simp [climb, up]
      | some p =>
          simp only [climb, up, List.nodup_cons]
          refine ⟨fun member => ?_, ih p⟩
          -- a state above itself would descend for ever
          have above : Relation.TransGen (fun p s => h.parent? s = some p) s s := by
            rcases climb_above n p s member with rfl | above
            · exact .single up
            · exact above.tail up
          exact wf.acyclic.transGen.irrefl.irrefl s above

theorem climb_lt (n s x : Nat) (bound : s < h.size) (member : x ∈ h.climb n s) : x < h.size := by
  induction n generalizing s with
  | zero => simp [climb] at member
  | succ n ih =>
      cases up : h.parent? s with
      | none => simp_all [climb]
      | some p =>
          simp only [climb, up, List.mem_cons] at member
          rcases member with rfl | member
          · exact bound
          · exact ih p (wf.lt_size (wf.parent_listed up)) member

theorem climb_length_le (n s : Nat) (bound : s < h.size) : (h.climb n s).length ≤ h.size := by
  have within : h.climb n s ⊆ List.range h.size := fun x member =>
    List.mem_range.mpr (wf.climb_lt n s x bound member)
  simpa using (wf.climb_nodup n s).length_le_of_subset within

theorem ancestorsOrSelf_eq (s : Nat) :
    h.ancestorsOrSelf s = s :: ((h.parent? s).map h.ancestorsOrSelf).getD [] := by
  cases up : h.parent? s with
  | none => simp [ancestorsOrSelf, climb, up]
  | some p =>
      have bound := wf.climb_length_le (h.size + 1) p (wf.lt_size (wf.parent_listed up))
      rw [ancestorsOrSelf, climb, up]
      exact congrArg (s :: ·) (climb_stable h.size p bound).symm

theorem self_mem (s : Nat) : s ∈ h.ancestorsOrSelf s := by simp [wf.ancestorsOrSelf_eq s]

theorem chain_nodup (s : Nat) : (h.ancestorsOrSelf s).Nodup := wf.climb_nodup _ s

theorem chain_listed {s x : Nat} (listed : Listed s) (member : x ∈ h.ancestorsOrSelf s) :
    Listed x := by
  induction s using wf.acyclic.induction with
  | _ s ih =>
      rw [wf.ancestorsOrSelf_eq] at member
      cases up : h.parent? s with
      | none => simp_all
      | some p =>
          simp only [up, Option.map_some, Option.getD_some, List.mem_cons] at member
          rcases member with rfl | member
          · exact listed
          · exact ih p up (wf.parent_listed up) member

theorem chain_length_le {s : Nat} (listed : Listed s) :
    (h.ancestorsOrSelf s).length ≤ h.size :=
  wf.climb_length_le _ s (wf.lt_size listed)

theorem chain_of_parent {s p : Nat} (up : h.parent? s = some p) :
    h.ancestorsOrSelf s = s :: h.ancestorsOrSelf p := by
  rw [wf.ancestorsOrSelf_eq s, up]
  rfl

theorem parent_mem {s p : Nat} (up : h.parent? s = some p) : p ∈ h.ancestorsOrSelf s := by
  rw [wf.chain_of_parent up]
  exact List.mem_cons_of_mem s (wf.self_mem p)

theorem ancestor_induction {motive : Nat → Prop} (s : Nat) (self : motive s)
    (up : ∀ x p, x ∈ h.ancestorsOrSelf s → h.parent? x = some p → motive x → motive p)
    {a : Nat} (member : a ∈ h.ancestorsOrSelf s) : motive a := by
  induction s using wf.acyclic.induction with
  | _ s ih =>
      have split := wf.ancestorsOrSelf_eq s
      cases parent : h.parent? s with
      | none =>
          rw [split, parent] at member
          simp only [Option.map_none, Option.getD_none, List.mem_singleton] at member
          exact member ▸ self
      | some p =>
          rw [wf.chain_of_parent parent, List.mem_cons] at member
          rcases member with rfl | member
          · exact self
          · refine ih p parent (up s p (wf.self_mem s) parent self) ?_ member
            intro x q inside
            refine up x q ?_
            rw [wf.chain_of_parent parent]
            exact List.mem_cons_of_mem s inside

theorem ancestor_suffix {a s : Nat} (member : a ∈ h.ancestorsOrSelf s) :
    h.ancestorsOrSelf a <:+ h.ancestorsOrSelf s := by
  refine wf.ancestor_induction (motive := fun a => h.ancestorsOrSelf a <:+ h.ancestorsOrSelf s) s
    (List.suffix_refl _) ?_ member
  intro x p _ up above
  rw [wf.chain_of_parent up] at above
  exact (List.suffix_cons x _).trans above

theorem ancestor_trans {a b s : Nat} (outer : a ∈ h.ancestorsOrSelf b)
    (inner : b ∈ h.ancestorsOrSelf s) : a ∈ h.ancestorsOrSelf s :=
  (wf.ancestor_suffix inner).subset outer

theorem parent_ne {s p : Nat} (up : h.parent? s = some p) : s ∉ h.ancestorsOrSelf p := by
  have distinct := wf.chain_nodup s
  rw [wf.chain_of_parent up] at distinct
  exact (List.nodup_cons.mp distinct).1

theorem ancestor_total {a b s : Nat} (left : a ∈ h.ancestorsOrSelf s)
    (right : b ∈ h.ancestorsOrSelf s) :
    a ∈ h.ancestorsOrSelf b ∨ b ∈ h.ancestorsOrSelf a := by
  rcases List.suffix_or_suffix_of_suffix (wf.ancestor_suffix left) (wf.ancestor_suffix right) with
    inside | inside
  · exact .inl (inside.subset (wf.self_mem a))
  · exact .inr (inside.subset (wf.self_mem b))

theorem child_unique {x y p s : Nat} (left : x ∈ h.ancestorsOrSelf s)
    (right : y ∈ h.ancestorsOrSelf s) (upLeft : h.parent? x = some p)
    (upRight : h.parent? y = some p) : x = y := by
  have step {x y : Nat} (upLeft : h.parent? x = some p) (upRight : h.parent? y = some p)
      (above : x ∈ h.ancestorsOrSelf y) : x = y := by
    rw [wf.chain_of_parent upRight, List.mem_cons] at above
    rcases above with same | above
    · exact same
    · exact absurd above (wf.parent_ne upLeft)
  rcases wf.ancestor_total left right with above | above
  · exact step upLeft upRight above
  · exact (step upRight upLeft above).symm

theorem child_towards {a s : Nat} (member : a ∈ h.ancestorsOrSelf s) :
    a = s ∨ ∃ x ∈ h.ancestorsOrSelf s, h.parent? x = some a := by
  refine wf.ancestor_induction
    (motive := fun a => a = s ∨ ∃ x ∈ h.ancestorsOrSelf s, h.parent? x = some a) s
    (.inl rfl) ?_ member
  intro x p inside up _
  exact .inr ⟨x, inside, up⟩

end WellFormed

end Statewright.Hierarchy
