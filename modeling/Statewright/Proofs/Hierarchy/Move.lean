import Mathlib.Data.List.TakeWhile
import Statewright.Proofs.Hierarchy.Resumption

/-!
# Moves

A transition out of an active leaf keeps the path down to its scope, leaves what hangs below it on
the old path and enters what hangs below it on the new one. Two histories that agree outside the
active path lead to the same move, and agree outside the new active path behind it.
-/

namespace Statewright

variable {h : Hierarchy} {Listed : Nat → Prop}

/-- The slots at and below a state spell the way down to a leaf. -/
def History.Retraces (past : History) (h : Hierarchy) (leaf state : Nat) : Prop :=
  ∀ x p, x ∈ h.ancestorsOrSelf leaf → h.parent? x = some p → state ∈ h.ancestorsOrSelf p →
    past.lastActive? p = some x

def History.AgreeOutside (past other : History) (h : Hierarchy) (leaf : Nat) : Prop :=
  ∀ s, s ∉ h.ancestorsOrSelf leaf → other.lastActive? s = past.lastActive? s

namespace Hierarchy

def keptPath (h : Hierarchy) (scope : Option Nat) : List Nat := (scope.map h.activePath).getD []

namespace WellFormed

variable (wf : h.WellFormed Listed)
include wf

theorem scope_above {source target s : Nat} (found : h.scope? source target = some s) :
    s ∈ h.ancestorsOrSelf source ∧ s ∈ h.ancestorsOrSelf target := by
  unfold scope? at found
  split at found
  · next same => exact ⟨wf.parent_mem found, same ▸ wf.parent_mem found⟩
  · exact ⟨List.mem_of_find?_eq_some found,
      List.contains_iff_mem.mp (List.find?_some found)⟩

theorem chain_split {leaf : Nat} {scope : Option Nat}
    (above : ∀ s, scope = some s → s ∈ h.ancestorsOrSelf leaf) :
    h.ancestorsOrSelf leaf =
      h.exitPath leaf scope ++ (scope.map h.ancestorsOrSelf).getD [] := by
  cases scope with
  | none =>
      have whole : h.exitPath leaf none = h.ancestorsOrSelf leaf :=
        List.takeWhile_eq_self_iff.mpr fun _ _ => rfl
      simp [whole]
  | some s =>
      obtain ⟨below, split⟩ := wf.ancestor_suffix (above s rfl)
      have distinct := wf.chain_nodup leaf
      rw [← split] at distinct
      have outside : ∀ x ∈ below, (some x != some s) = true := by
        intro x member
        have apart := (List.nodup_append.mp distinct).2.2 x member s (wf.self_mem s)
        simpa using apart
      have stop : (h.ancestorsOrSelf s).takeWhile (fun x => some x != some s) = [] := by
        rw [wf.ancestorsOrSelf_eq, List.takeWhile_cons]
        simp
      rw [exitPath, ← split, List.takeWhile_append_of_pos outside, stop]
      simp

theorem activePath_exits {leaf : Nat} {scope : Option Nat}
    (above : ∀ s, scope = some s → s ∈ h.ancestorsOrSelf leaf) :
    h.activePath leaf = h.keptPath scope ++ (h.exitPath leaf scope).reverse := by
  rw [activePath, wf.chain_split above, List.reverse_append]
  cases scope <;> rfl

omit wf in
theorem exit_mem {leaf x : Nat} {scope : Option Nat} (left : x ∈ h.exitPath leaf scope) :
    x ∈ h.ancestorsOrSelf leaf :=
  (List.takeWhile_prefix _).subset left

theorem exit_or_above {leaf x : Nat} {scope : Option Nat}
    (above : ∀ s, scope = some s → s ∈ h.ancestorsOrSelf leaf)
    (member : x ∈ h.ancestorsOrSelf leaf) :
    x ∈ h.exitPath leaf scope ∨ ∃ s, scope = some s ∧ x ∈ h.ancestorsOrSelf s := by
  rw [wf.chain_split above, List.mem_append] at member
  cases scope with
  | none => simpa using member
  | some s => exact member.imp_right fun upper => ⟨s, rfl, upper⟩

/-! ## Slots behind the exits -/

theorem recordAll_outside (past : History) {leaf : Nat} {left : List Nat}
    (inside : ∀ x ∈ left, x ∈ h.ancestorsOrSelf leaf) :
    past.AgreeOutside (past.recordAll h left) h leaf := by
  intro s outside
  refine History.recordAll_frame past left s fun x member up => outside ?_
  exact wf.ancestor_trans (wf.parent_mem up) (inside x member)

theorem recordAll_exit (past : History) {leaf x p : Nat} {scope : Option Nat}
    (left : x ∈ h.exitPath leaf scope) (up : h.parent? x = some p)
    (size : past.slots.length = h.size) :
    (past.recordAll h (h.exitPath leaf scope)).lastActive? p = some x := by
  refine History.recordAll_child past _ left up ?_ fun y member other => ?_
  · exact size ▸ wf.lt_size (wf.parent_listed up)
  · exact wf.child_unique (exit_mem member) (exit_mem left) other up

theorem exits_slot {past other : History} {leaf : Nat} {scope : Option Nat}
    (pastSize : past.slots.length = h.size) (otherSize : other.slots.length = h.size) (i : Nat)
    (same : (∀ x ∈ h.exitPath leaf scope, h.parent? x ≠ some i) →
      other.lastActive? i = past.lastActive? i) :
    (other.recordAll h (h.exitPath leaf scope)).lastActive? i =
      (past.recordAll h (h.exitPath leaf scope)).lastActive? i := by
  by_cases recorded : ∃ x ∈ h.exitPath leaf scope, h.parent? x = some i
  · obtain ⟨x, left, up⟩ := recorded
    rw [wf.recordAll_exit other left up otherSize, wf.recordAll_exit past left up pastSize]
  · have apart : ∀ x ∈ h.exitPath leaf scope, h.parent? x ≠ some i :=
      fun x left up => recorded ⟨x, left, up⟩
    rw [History.recordAll_frame other _ i apart, History.recordAll_frame past _ i apart,
      same apart]

theorem unrecorded_above {leaf i : Nat} {scope : Option Nat}
    (above : ∀ s, scope = some s → s ∈ h.ancestorsOrSelf leaf)
    (apart : ∀ x ∈ h.exitPath leaf scope, h.parent? x ≠ some i)
    (member : i ∈ h.ancestorsOrSelf leaf) :
    i = leaf ∨ ∃ s x, scope = some s ∧ x ∈ h.ancestorsOrSelf s ∧ h.parent? x = some i := by
  rcases wf.child_towards member with same | ⟨x, below, up⟩
  · exact .inl same
  · rcases wf.exit_or_above above below with left | ⟨s, found, upper⟩
    · exact absurd up (apart x left)
    · exact .inr ⟨s, x, found, upper, up⟩

theorem recordAll_retraces (past : History) {leaf state : Nat} {scope : Option Nat}
    (above : ∀ s, scope = some s → s ∈ h.ancestorsOrSelf leaf)
    (left : state ∈ h.exitPath leaf scope) (size : past.slots.length = h.size) :
    (past.recordAll h (h.exitPath leaf scope)).Retraces h leaf state := by
  intro x p member up inside
  have below : state ∈ h.ancestorsOrSelf x := wf.ancestor_trans inside (wf.parent_mem up)
  rcases wf.exit_or_above above member with exited | ⟨s, rfl, upper⟩
  · exact wf.recordAll_exit past exited up size
  · -- otherwise the state would be both below the scope and at or above it
    have distinct := wf.chain_nodup leaf
    rw [wf.chain_split above] at distinct
    have apart := (List.nodup_append.mp distinct).2.2 state left state
      (wf.ancestor_trans below upper)
    exact absurd rfl apart

theorem leaf_slot {past : History} (sound : past.Sound h Listed) {leaf : Nat}
    (listed : Listed leaf) (final : h.entryChild? leaf = none) :
    past.lastActive? leaf = none := by
  cases remembered : past.lastActive? leaf with
  | none => rfl
  | some c =>
      have composite := wf.entry_of_parent listed (sound leaf c remembered).1
      simp [final] at composite

section Resuming

variable {past : History} (sound : past.Sound h Listed)
include sound

theorem resolveUnder_retraced {leaf state : Nat} (final : h.entryChild? leaf = none)
    (retraces : past.Retraces h leaf state) (member : state ∈ h.ancestorsOrSelf leaf) :
    h.resolveUnder past true state = leaf := by
  refine wf.ancestor_induction
    (motive := fun s => state ∈ h.ancestorsOrSelf s → h.resolveUnder past true s = leaf) leaf
    (fun _ => descend_of_leaf past _ true final) ?_ member (wf.self_mem state)
  intro x p inside up resumed below
  have remembered := retraces x p inside up below
  obtain ⟨initial, entry⟩ := Option.isSome_iff_exists.mp
    (wf.entry_of_parent (wf.parent_listed up) up)
  rw [wf.resolveUnder_step sound (wf.parent_listed up) entry true]
  simp only [modeUnder, History.nextEntry, remembered, Option.getD_some, if_true, decide_true,
    reduceCtorEq, if_false]
  exact resumed (wf.ancestor_trans below (wf.parent_mem up))

theorem resolveEntry_deep {leaf state : Nat} (final : h.entryChild? leaf = none)
    (retraces : past.Retraces h leaf state) (member : state ∈ h.ancestorsOrSelf leaf)
    (deep : h.mode state = .deep) : h.resolveEntry past state = leaf := by
  have resumed := wf.resolveUnder_retraced sound final retraces member
  rw [← resumed]
  simp [resolveEntry_eq, resolveUnder, descend, modeUnder, deep]

theorem resolveEntry_shallow {leaf state : Nat} (final : h.entryChild? leaf = none)
    (retraces : past.Retraces h leaf state) (member : state ∈ h.ancestorsOrSelf leaf)
    (composite : (h.entryChild? state).isSome) (shallow : h.mode state = .shallow) :
    ∃ child ∈ h.ancestorsOrSelf leaf, h.parent? child = some state ∧
      h.resolveEntry past state = h.resolveEntry past child := by
  rcases wf.child_towards member with rfl | ⟨x, inside, up⟩
  · simp [final] at composite
  · obtain ⟨initial, entry⟩ := Option.isSome_iff_exists.mp composite
    have remembered := retraces x state inside up (wf.self_mem state)
    refine ⟨x, inside, up, ?_⟩
    rw [resolveEntry_eq, wf.resolveUnder_step sound (wf.parent_listed up) entry false]
    simp [modeUnder, shallow, History.nextEntry, remembered, resolveEntry_eq]

end Resuming

theorem scope_active {leaf source target : Nat} (active : source ∈ h.ancestorsOrSelf leaf)
    (s : Nat) (found : h.scope? source target = some s) : s ∈ h.ancestorsOrSelf leaf :=
  wf.ancestor_trans (wf.scope_above found).1 active

theorem move_before (past : History) {leaf source target : Nat}
    (active : source ∈ h.ancestorsOrSelf leaf) :
    h.activePath leaf =
      h.keptPath (h.scope? source target) ++
        (h.move past leaf source target).1.exits.reverse :=
  wf.activePath_exits (wf.scope_active active)

/-- Behind the exits every slot that entering the target reads is a new one or lies outside the
path that was active. -/
theorem exits_agree {past other : History} {leaf source target : Nat}
    (active : source ∈ h.ancestorsOrSelf leaf)
    (final : h.entryChild? leaf = none) (agree : past.AgreeOutside other h leaf)
    (pastSize : past.slots.length = h.size) (otherSize : other.slots.length = h.size)
    (i : Nat) (inside : target ∈ h.ancestorsOrSelf i) (composite : (h.entryChild? i).isSome) :
    (h.move other leaf source target).2.lastActive? i =
      (h.move past leaf source target).2.lastActive? i := by
  refine wf.exits_slot pastSize otherSize i fun apart => agree i fun member => ?_
  rcases wf.unrecorded_above (wf.scope_active active) apart member with
    rfl | ⟨s, x, found, upper, up⟩
  · simp [final] at composite
  · -- the scope would lie both below and above the child of `i` that it is not left through
    have inner := wf.ancestor_trans (wf.scope_above found).2 inside
    exact wf.parent_ne up (wf.ancestor_trans upper inner)

section Moving

variable {past : History} (sound : past.Sound h Listed) {leaf source target : Nat}
  (listed : Listed leaf)
include sound listed

theorem move_sound : (h.move past leaf source target).2.Sound h Listed :=
  sound.recordAll _ fun _ left => wf.chain_listed listed (exit_mem left)

theorem move_leaf (aimed : Listed target) :
    Listed (h.move past leaf source target).1.leaf ∧
      target ∈ h.ancestorsOrSelf (h.move past leaf source target).1.leaf ∧
      h.entryChild? (h.move past leaf source target).1.leaf = none := by
  have behind : (h.move past leaf source target).2.Sound h Listed := wf.move_sound sound listed
  have below := wf.resolveUnder_below behind aimed false
  exact ⟨below.1, below.2, wf.resolveUnder_leaf behind aimed false⟩

theorem scope_entered (aimed : Listed target) (s : Nat)
    (found : h.scope? source target = some s) :
    s ∈ h.ancestorsOrSelf (h.move past leaf source target).1.leaf :=
  wf.ancestor_trans (wf.scope_above found).2 (wf.move_leaf sound listed aimed).2.1

theorem move_after (aimed : Listed target) :
    h.activePath (h.move past leaf source target).1.leaf =
      h.keptPath (h.scope? source target) ++ (h.move past leaf source target).1.entries :=
  wf.activePath_exits (wf.scope_entered sound listed aimed)

theorem move_congr {other : History} (otherSound : other.Sound h Listed)
    (active : source ∈ h.ancestorsOrSelf leaf) (aimed : Listed target)
    (final : h.entryChild? leaf = none) (agree : past.AgreeOutside other h leaf)
    (pastSize : past.slots.length = h.size) (otherSize : other.slots.length = h.size) :
    (h.move other leaf source target).1 = (h.move past leaf source target).1 ∧
      (h.move past leaf source target).2.AgreeOutside (h.move other leaf source target).2 h
        (h.move past leaf source target).1.leaf := by
  have leaves : (h.move other leaf source target).1.leaf =
      (h.move past leaf source target).1.leaf :=
    wf.descend_congr (wf.move_sound sound listed) aimed
      (wf.exits_agree active final agree pastSize otherSize) _ false
  constructor
  · simp only [move] at leaves ⊢
    rw [leaves]
  · intro i outside
    refine wf.exits_slot pastSize otherSize i fun apart => ?_
    by_cases member : i ∈ h.ancestorsOrSelf leaf
    · rcases wf.unrecorded_above (wf.scope_active active) apart member with
        rfl | ⟨s, x, found, upper, up⟩
      · rw [wf.leaf_slot sound listed final, wf.leaf_slot otherSound listed final]
      · have kept := wf.scope_entered sound listed aimed s found
        have upward := wf.ancestor_trans (wf.parent_mem up) upper
        exact absurd (wf.ancestor_trans upward kept) outside
    · exact agree i member

end Moving

end WellFormed

end Hierarchy

end Statewright
