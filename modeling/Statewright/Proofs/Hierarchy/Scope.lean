import Mathlib.Data.Finset.Card
import Mathlib.Logic.Relation
import Mathlib.Tactic.IntervalCases
import Statewright.Proofs.Hierarchy.Descent
import Statewright.Proofs.Hierarchy.Move

/-!
# Scopes

The bounded walk up from a state misses nothing, whatever the table: a way up that is longer than
the table runs in a circle. So the first state on it that the target of a transition lies in is the
innermost one that source and target have in common, and in a table without circles the states left
and entered hang below it.
-/

namespace Statewright.Hierarchy

variable {h : Hierarchy}

/-- The second state is the first one or an ancestor of it. -/
def Inside (h : Hierarchy) : Nat → Nat → Prop :=
  Relation.ReflTransGen fun s p => h.parent? s = some p

theorem ascend_add (m n s : Nat) : h.ascend (m + n) s = (h.ascend m s).bind (h.ascend n) := by
  induction m generalizing s with
  | zero => simp [ascend]
  | succ m ih =>
      rw [Nat.add_right_comm, ascend, ascend, Option.bind_assoc]
      exact Option.bind_congr fun p _ => ih p

theorem inside_iff_ascend {s a : Nat} : h.Inside s a ↔ ∃ n, h.ascend n s = some a := by
  constructor
  · intro inside
    induction inside using Relation.ReflTransGen.head_induction_on with
    | refl => exact ⟨0, rfl⟩
    | head up _ ih =>
        obtain ⟨n, above⟩ := ih
        exact ⟨n + 1, by rw [ascend, up, Option.bind_some, above]⟩
  · rintro ⟨n, above⟩
    induction n generalizing s with
    | zero => exact Option.some.inj above ▸ .refl
    | succ n ih =>
        obtain ⟨p, up, higher⟩ := Option.bind_eq_some_iff.mp above
        exact .head up (ih higher)

theorem mem_climb {n s a : Nat} : a ∈ h.climb n s ↔ ∃ k < n, h.ascend k s = some a := by
  induction n generalizing s with
  | zero => simp [climb]
  | succ n ih =>
      rw [climb, List.mem_cons, Nat.exists_lt_succ_left]
      refine or_congr (by simp [ascend, eq_comm]) ?_
      cases up : h.parent? s with
      | none => simp [ascend, up]
      | some p => simpa [ascend, up] using ih

theorem lt_size_of_parent {s p : Nat} (up : h.parent? s = some p) : s < h.size := by
  obtain ⟨_, here⟩ := List.getElem?_eq_some_iff.mp (Option.join_eq_some_iff.mp up)
  assumption

theorem ascend_short {n s a : Nat} (above : h.ascend n s = some a) :
    ∃ k ≤ h.size, h.ascend k s = some a := by
  induction n using Nat.strong_induction_on with
  | _ n ih =>
      by_cases short : n ≤ h.size
      · exact ⟨n, short, above⟩
      -- a longer way goes on from more states than the table has, so it passes one of them twice
      have passed (i : Nat) (before : i < n) : ∃ x < h.size, h.ascend i s = some x := by
        obtain ⟨d, rfl⟩ := Nat.exists_eq_add_of_lt before
        rw [Nat.add_assoc, ascend_add] at above
        obtain ⟨x, here, onward⟩ := Option.bind_eq_some_iff.mp above
        obtain ⟨p, up, _⟩ := Option.bind_eq_some_iff.mp onward
        exact ⟨x, lt_size_of_parent up, here⟩
      obtain ⟨i, first, j, second, apart, same⟩ :=
        Finset.exists_ne_map_eq_of_card_lt_of_maps_to
          (s := Finset.range (h.size + 1)) (t := Finset.range h.size) (by simp)
          (f := fun i => (h.ascend i s).getD 0) (by
            intro i member
            have := Finset.mem_range.mp member
            obtain ⟨x, below, here⟩ := passed i (by omega)
            simpa [here] using below)
      rw [Finset.mem_range] at first second
      obtain ⟨x, _, atFirst⟩ := passed i (by omega)
      obtain ⟨y, _, atSecond⟩ := passed j (by omega)
      obtain rfl : x = y := by simpa [atFirst, atSecond] using same
      have cut (i j : Nat) (order : i < j) (within : j ≤ n) (here : h.ascend i s = some x)
          (again : h.ascend j s = some x) : ∃ k ≤ h.size, h.ascend k s = some a := by
        refine ih (i + (n - j)) (by omega) ?_
        rw [ascend_add, here, ← again, ← ascend_add, Nat.add_sub_cancel' within, above]
      rcases Nat.lt_or_gt_of_ne apart with order | order
      · exact cut i j order (by omega) atFirst atSecond
      · exact cut j i order (by omega) atSecond atFirst

theorem mem_ancestorsOrSelf {s a : Nat} : a ∈ h.ancestorsOrSelf s ↔ h.Inside s a := by
  rw [ancestorsOrSelf, mem_climb, inside_iff_ascend]
  constructor
  · rintro ⟨k, _, above⟩
    exact ⟨k, above⟩
  · rintro ⟨n, above⟩
    obtain ⟨k, short, same⟩ := ascend_short above
    exact ⟨k, Nat.lt_succ_of_le short, same⟩

theorem isIn_iff {s a : Nat} : h.isIn s a ↔ h.Inside s a :=
  List.contains_iff_mem.trans mem_ancestorsOrSelf

theorem climb_pairwise (n s : Nat) : (h.climb n s).Pairwise h.Inside := by
  induction n generalizing s with
  | zero => exact .nil
  | succ n ih =>
      cases up : h.parent? s with
      | none => simp [climb, up]
      | some p =>
          rw [climb, up, List.pairwise_cons]
          refine ⟨fun a higher => ?_, ih p⟩
          obtain ⟨k, _, above⟩ := mem_climb.mp higher
          exact .head up (inside_iff_ascend.mpr ⟨k, above⟩)

theorem climb_length (h : Hierarchy) (n s : Nat) : (h.climb n s).length ≤ n := by
  induction n generalizing s with
  | zero => simp [climb]
  | succ n ih =>
      cases up : h.parent? s with
      | none => simp [climb, up]
      | some p => simpa [climb, up] using ih p

theorem exitPath_length (h : Hierarchy) (leaf : Nat) (scope : Option Nat) :
    (h.exitPath leaf scope).length ≤ h.size + 1 :=
  (List.takeWhile_sublist _).length_le.trans (h.climb_length _ leaf)

theorem inside_total {s a b : Nat} (left : h.Inside s a) (right : h.Inside s b) :
    h.Inside a b ∨ h.Inside b a :=
  Relation.ReflTransGen.total_of_right_unique
    (fun _ _ _ one other => Option.some.inj (one.symm.trans other)) left right

structure Innermost (h : Hierarchy) (s t c : Nat) : Prop where
  left : h.Inside s c
  right : h.Inside t c
  least {x : Nat} : h.Inside s x → h.Inside t x → h.Inside c x

theorem scope?_innermost {s t c : Nat} (apart : s ≠ t) (found : h.scope? s t = some c) :
    h.Innermost s t c := by
  rw [scope?, if_neg apart, List.find?_eq_some_iff_append] at found
  obtain ⟨right, before, behind, chain, outside⟩ := found
  refine ⟨mem_ancestorsOrSelf.mp (by simp [chain]), isIn_iff.mp right, fun {x} left also => ?_⟩
  have member : x ∈ h.ancestorsOrSelf s := mem_ancestorsOrSelf.mpr left
  rw [chain, List.mem_append, List.mem_cons] at member
  rcases member with early | rfl | late
  · have := outside x early
    simp [isIn_iff.mpr also] at this
  · exact .refl
  · have order := climb_pairwise (h := h) (h.size + 1) s
    rw [← ancestorsOrSelf, chain, List.pairwise_append] at order
    exact (List.pairwise_cons.mp order.2.1).1 x late

theorem scope?_eq_none_iff {s t : Nat} (apart : s ≠ t) :
    h.scope? s t = none ↔ ∀ x, ¬(h.Inside s x ∧ h.Inside t x) := by
  simp [scope?, apart, mem_ancestorsOrSelf, ← isIn_iff (s := t)]

theorem scope?_inside {s t c : Nat} (found : h.scope? s t = some c) :
    h.Inside s c ∧ h.Inside t c := by
  by_cases same : s = t
  · rw [scope?, if_pos same] at found
    exact ⟨.single found, same ▸ .single found⟩
  · exact ⟨(scope?_innermost same found).left, (scope?_innermost same found).right⟩

/-! ## Tables without circles -/

def Acyclic (h : Hierarchy) : Prop :=
  ∀ s, ¬Relation.TransGen (fun s p => h.parent? s = some p) s s

theorem no_circle_of_rank {α : Type} {r : α → α → Prop} (rank : α → Nat)
    (falls : ∀ a b, r a b → rank a > rank b) (a : α) : ¬Relation.TransGen r a a := by
  intro circle
  have lower : Relation.TransGen (· > ·) (rank a) (rank a) := circle.lift rank falls
  rw [Relation.transGen_eq_self] at lower
  exact Nat.lt_irrefl _ lower

theorem acyclic_of_rank (rank : Nat → Nat)
    (falls : ∀ s p, h.parent? s = some p → rank p < rank s) : h.Acyclic :=
  no_circle_of_rank rank falls

section Acyclic

variable (acyclic : h.Acyclic)
include acyclic

theorem Acyclic.antisymm {a b : Nat} (up : h.Inside a b) (back : h.Inside b a) : a = b := by
  rcases Relation.reflTransGen_iff_eq_or_transGen.mp up with same | proper
  · exact same.symm
  · exact absurd (proper.trans_left back) (acyclic a)

theorem Acyclic.scope?_eq_some_iff {s t c : Nat} (apart : s ≠ t) :
    h.scope? s t = some c ↔ h.Innermost s t c := by
  refine ⟨scope?_innermost apart, fun innermost => ?_⟩
  cases found : h.scope? s t with
  | none => exact absurd ⟨innermost.left, innermost.right⟩ ((scope?_eq_none_iff apart).mp found c)
  | some d =>
      have other := scope?_innermost apart found
      exact congrArg some (acyclic.antisymm (other.least innermost.left innermost.right)
        (innermost.least other.left other.right))

theorem Acyclic.scope?_comm (s t : Nat) : h.scope? s t = h.scope? t s := by
  by_cases same : s = t
  · rw [same]
  cases found : h.scope? s t with
  | none =>
      have separate := (scope?_eq_none_iff same).mp found
      exact ((scope?_eq_none_iff (Ne.symm same)).mpr fun x both => separate x both.symm).symm
  | some c =>
      have innermost := scope?_innermost same found
      exact ((acyclic.scope?_eq_some_iff (Ne.symm same)).mpr
        ⟨innermost.right, innermost.left, fun left right => innermost.least right left⟩).symm

theorem Acyclic.exit_below {leaf c x : Nat} (above : h.Inside leaf c)
    (left : x ∈ h.exitPath leaf (some c)) : ¬h.Inside c x := by
  have chain := List.takeWhile_append_dropWhile
    (p := fun s => some s != some c) (l := h.ancestorsOrSelf leaf)
  have apart : x ≠ c := by simpa using List.mem_takeWhile_imp left
  have behind : c ∈ (h.ancestorsOrSelf leaf).dropWhile fun s => some s != some c := by
    have member := mem_ancestorsOrSelf.mpr above
    rw [← chain, List.mem_append] at member
    exact member.resolve_left fun early => by simpa using List.mem_takeWhile_imp early
  have order := climb_pairwise (h := h) (h.size + 1) leaf
  rw [← ancestorsOrSelf, ← chain, List.pairwise_append] at order
  exact fun back => apart (acyclic.antisymm (order.2.2 x left c behind) back)

theorem Acyclic.exits_disjoint {s t leaf other : Nat} (leftOf : ¬h.Inside s t)
    (rightOf : ¬h.Inside t s) (inside : h.Inside leaf s) (also : h.Inside other t) :
    (h.exitPath leaf (h.scope? s t)).Disjoint (h.exitPath other (h.scope? s t)) := by
  have apart : s ≠ t := fun same => leftOf (same ▸ .refl)
  intro x left entered
  have fromLeaf : h.Inside leaf x := mem_ancestorsOrSelf.mp (WellFormed.exit_mem left)
  have fromOther : h.Inside other x := mem_ancestorsOrSelf.mp (WellFormed.exit_mem entered)
  rcases inside_total inside fromLeaf with higher | lower
  · rcases inside_total also fromOther with common | between
    · cases found : h.scope? s t with
      | none => exact (scope?_eq_none_iff apart).mp found x ⟨higher, common⟩
      | some c =>
          have innermost := scope?_innermost apart found
          rw [found] at left
          exact acyclic.exit_below (inside.trans innermost.left) left
            (innermost.least higher common)
    · exact leftOf (higher.trans between)
  · rcases inside_total also fromOther with higher | between
    · exact rightOf (higher.trans lower)
    · rcases inside_total lower between with up | up
      · exact leftOf up
      · exact rightOf up

end Acyclic

/-- The scope is the innermost state that both ends lie in, if there is one, and the parent of a
state that goes to itself. It is the same both ways, no state at or above it is left or entered,
and between two branches nothing is both left and entered. -/
theorem scope_innermost (h : Hierarchy) (acyclic : h.Acyclic) (s t : Nat) :
    h.scope? s s = h.parent? s ∧
      (s ≠ t → (∀ c, h.scope? s t = some c ↔ h.Innermost s t c) ∧
        (h.scope? s t = none ↔ ∀ x, ¬(h.Inside s x ∧ h.Inside t x))) ∧
      h.scope? s t = h.scope? t s ∧
      ∀ leaf other, h.Inside leaf s → h.Inside other t →
        (∀ c, h.scope? s t = some c →
          ∀ x ∈ h.exitPath leaf (some c) ++ h.entryPath (some c) other, ¬h.Inside c x) ∧
        (¬h.Inside s t → ¬h.Inside t s →
          (h.exitPath leaf (h.scope? s t)).Disjoint (h.entryPath (h.scope? s t) other)) := by
  refine ⟨if_pos rfl, fun apart => ⟨fun c => acyclic.scope?_eq_some_iff apart,
    scope?_eq_none_iff apart⟩, acyclic.scope?_comm s t, fun leaf other inside also => ⟨?_, ?_⟩⟩
  · intro c found x member
    obtain ⟨left, right⟩ := scope?_inside found
    rw [List.mem_append, entryPath, List.mem_reverse] at member
    rcases member with exited | entered
    · exact acyclic.exit_below (inside.trans left) exited
    · exact acyclic.exit_below (also.trans right) entered
  · intro leftOf rightOf x exited entered
    rw [entryPath, List.mem_reverse] at entered
    exact acyclic.exits_disjoint leftOf rightOf inside also exited entered

/-- The outermost state names a parent beyond the table, and the walk from its grandchild comes to
it in as many steps as it is allowed. -/
def straying : Hierarchy := ⟨[some 9, some 0, some 1, some 1], [none, none, none, none], []⟩

theorem straying_scope :
    straying.Acyclic ∧ straying.activePath 2 = [9, 0, 1, 2] ∧ straying.Innermost 2 3 1 ∧
      (straying.exitPath 2 (some 1)).Disjoint (straying.entryPath (some 1) 3) := by
  have ranked : straying.Acyclic := by
    refine acyclic_of_rank (fun s => if s = 9 then 0 else s + 1) fun s p up => ?_
    have listed : s < 4 := lt_size_of_parent up
    interval_cases s <;> cases up <;> decide
  obtain ⟨_, innermost, _, paths⟩ := scope_innermost straying ranked 2 3
  have outside (s t : Nat) (apart : t ∉ straying.ancestorsOrSelf s) : ¬straying.Inside s t :=
    fun inside => apart (mem_ancestorsOrSelf.mpr inside)
  refine ⟨ranked, by decide, ((innermost (by decide)).1 1).mp (by decide), ?_⟩
  exact (paths 2 3 .refl .refl).2 (outside 2 3 (by decide)) (outside 3 2 (by decide))

end Statewright.Hierarchy
