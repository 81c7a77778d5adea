import Statewright.Proofs.Hierarchy.Ancestors

/-!
# Resumption

A history that remembers children only always leads from a state down to a leaf below it, and which
leaf that is depends on nothing but the slots at and below the state. After a chain has been left
those slots spell the way back to the leaf that was active.
-/

namespace Statewright

variable {h : Hierarchy} {Listed : Nat → Prop}

namespace History

def Sound (past : History) (h : Hierarchy) (Listed : Nat → Prop) : Prop :=
  ∀ s c, past.lastActive? s = some c → h.parent? c = some s ∧ Listed c

def recordAll (past : History) (h : Hierarchy) (left : List Nat) : History :=
  left.foldl (fun p s => p.record h s) past

theorem lastActive?_ofSize (n s : Nat) : (ofSize n).lastActive? s = none := by
  simp only [ofSize, lastActive?, List.getElem?_replicate]
  split <;> rfl

theorem record_size (past : History) (c : Nat) :
    (past.record h c).slots.length = past.slots.length := by
  unfold record
  split <;> simp

theorem lastActive?_record (past : History) (c s : Nat) :
    (past.record h c).lastActive? s =
      if h.parent? c = some s ∧ s < past.slots.length then some c else past.lastActive? s := by
  cases up : h.parent? c with
  | none => simp [record, up]
  | some p =>
      simp only [record, up, lastActive?, List.getElem?_set, Option.some.injEq]
      by_cases same : p = s
      · subst same
        by_cases bound : p < past.slots.length <;> simp [bound]
      · simp [same]

theorem recordAll_size (past : History) (left : List Nat) :
    (past.recordAll h left).slots.length = past.slots.length := by
  induction left generalizing past with
  | nil => rfl
  | cons x left ih => exact (ih (past.record h x)).trans (past.record_size x)

theorem recordAll_frame (past : History) (left : List Nat) (s : Nat)
    (apart : ∀ x ∈ left, h.parent? x ≠ some s) :
    (past.recordAll h left).lastActive? s = past.lastActive? s := by
  induction left generalizing past with
  | nil => rfl
  | cons x left ih =>
      have rest := ih (past.record h x) fun y member => apart y (List.mem_cons_of_mem x member)
      rw [recordAll, List.foldl_cons, ← recordAll, rest, lastActive?_record,
        if_neg fun both => apart x List.mem_cons_self both.1]

theorem recordAll_child (past : History) (left : List Nat) {x p : Nat} (member : x ∈ left)
    (up : h.parent? x = some p) (bound : p < past.slots.length)
    (unique : ∀ y ∈ left, h.parent? y = some p → y = x) :
    (past.recordAll h left).lastActive? p = some x := by
  induction left generalizing past with
  | nil => simp at member
  | cons y left ih =>
      rw [recordAll, List.foldl_cons, ← recordAll]
      by_cases later : x ∈ left
      · exact ih (past.record h y) later (by rwa [record_size])
          fun z inside => unique z (List.mem_cons_of_mem y inside)
      · have last : x = y := by simpa [later] using member
        subst last
        have apart : ∀ z ∈ left, h.parent? z ≠ some p := by
          intro z inside upper
          exact later (unique z (List.mem_cons_of_mem x inside) upper ▸ inside)
        rw [recordAll_frame _ _ _ apart, lastActive?_record, if_pos ⟨up, bound⟩]

theorem Sound.recordAll {past : History} (sound : past.Sound h Listed) (left : List Nat)
    (listed : ∀ x ∈ left, Listed x) : (past.recordAll h left).Sound h Listed := by
  induction left generalizing past with
  | nil => exact sound
  | cons x left ih =>
      have next : (past.record h x).Sound h Listed := by
        intro s c remembered
        rw [lastActive?_record] at remembered
        split at remembered
        · next child =>
            cases remembered
            exact ⟨child.1, listed x List.mem_cons_self⟩
        · exact sound s c remembered
      exact ih next fun y member => listed y (List.mem_cons_of_mem x member)

end History

/-! ## Where an entry leads -/

namespace Hierarchy

/-- The leaf that entering a state leads to, deep at the state itself if asked for. -/
def resolveUnder (h : Hierarchy) (past : History) (deep : Bool) (state : Nat) : Nat :=
  h.descend past (2 * h.entryChildren.length + 1) deep state

theorem resolveEntry_eq (past : History) (s : Nat) :
    h.resolveEntry past s = h.resolveUnder past false s := rfl

theorem descend_of_leaf (past : History) (n : Nat) (deep : Bool) {s : Nat}
    (leaf : h.entryChild? s = none) : h.descend past n deep s = s := by
  cases n <;> simp [descend, leaf]

theorem descend_stable (past : History) (n : Nat) (deep : Bool) (s : Nat)
    (done : h.entryChild? (h.descend past n deep s) = none) :
    h.descend past (n + 1) deep s = h.descend past n deep s := by
  induction n generalizing deep s with
  | zero => exact descend_of_leaf past 1 deep done
  | succ n ih =>
      cases child : h.entryChild? s with
      | none => simp [descend_of_leaf past _ deep child]
      | some initial =>
          rw [descend, child] at done ⊢
          conv_rhs => rw [descend, child]
          exact ih _ _ done

namespace WellFormed

variable (wf : h.WellFormed Listed) {past : History} (sound : past.Sound h Listed)
include wf sound

theorem nextEntry_child {s initial : Nat} (listed : Listed s)
    (entry : h.entryChild? s = some initial) (mode : HistoryMode) :
    h.parent? (past.nextEntry mode s initial) = some s ∧
      Listed (past.nextEntry mode s initial) := by
  have initially := And.intro (wf.entry_parent listed entry) (wf.entry_listed entry)
  unfold History.nextEntry
  split
  · exact initially
  · cases remembered : past.lastActive? s with
    | none => exact initially
    | some c => exact sound s c remembered

theorem descend_below {s : Nat} (listed : Listed s) (n : Nat) (deep : Bool) :
    Listed (h.descend past n deep s) ∧ s ∈ h.ancestorsOrSelf (h.descend past n deep s) := by
  induction n generalizing deep s with
  | zero => exact ⟨listed, wf.self_mem s⟩
  | succ n ih =>
      rw [descend]
      cases entry : h.entryChild? s with
      | none => exact ⟨listed, wf.self_mem s⟩
      | some initial =>
          have child := wf.nextEntry_child sound listed entry (h.modeUnder deep s)
          have below := ih child.2 (h.modeUnder deep s = .deep)
          exact ⟨below.1, wf.ancestor_trans (wf.parent_mem child.1) below.2⟩

theorem descend_leaf {s : Nat} (listed : Listed s) (n : Nat) (deep : Bool)
    (enough : h.size < n + (h.ancestorsOrSelf s).length) :
    h.entryChild? (h.descend past n deep s) = none := by
  induction n generalizing deep s with
  | zero =>
      have := wf.chain_length_le listed
      omega
  | succ n ih =>
      rw [descend]
      cases entry : h.entryChild? s with
      | none => exact entry
      | some initial =>
          have child := wf.nextEntry_child sound listed entry (h.modeUnder deep s)
          refine ih child.2 _ ?_
          rw [wf.chain_of_parent child.1, List.length_cons]
          omega

theorem resolveUnder_leaf {s : Nat} (listed : Listed s) (deep : Bool) :
    h.entryChild? (h.resolveUnder past deep s) = none := by
  have nonempty := List.length_pos_of_mem (wf.self_mem s)
  refine wf.descend_leaf sound listed _ deep ?_
  rw [wf.entry_length]
  omega

theorem resolveUnder_below {s : Nat} (listed : Listed s) (deep : Bool) :
    Listed (h.resolveUnder past deep s) ∧ s ∈ h.ancestorsOrSelf (h.resolveUnder past deep s) :=
  wf.descend_below sound listed _ deep

theorem resolveUnder_step {s initial : Nat} (listed : Listed s)
    (entry : h.entryChild? s = some initial) (deep : Bool) :
    h.resolveUnder past deep s =
      h.resolveUnder past (h.modeUnder deep s = .deep)
        (past.nextEntry (h.modeUnder deep s) s initial) := by
  have child := wf.nextEntry_child sound listed entry (h.modeUnder deep s)
  have enough := wf.chain_length_le child.2
  have positive := List.length_pos_of_mem
    (wf.self_mem (past.nextEntry (h.modeUnder deep s) s initial))
  have done := wf.descend_leaf sound child.2 (2 * h.entryChildren.length)
    (h.modeUnder deep s = .deep) (by rw [wf.entry_length]; omega)
  rw [resolveUnder, descend, entry]
  exact (descend_stable past _ _ _ done).symm

theorem descend_congr {other : History} {s : Nat} (listed : Listed s)
    (agree : ∀ i, s ∈ h.ancestorsOrSelf i → (h.entryChild? i).isSome →
      other.lastActive? i = past.lastActive? i) (n : Nat) (deep : Bool) :
    h.descend other n deep s = h.descend past n deep s := by
  induction n generalizing deep s with
  | zero => rfl
  | succ n ih =>
      rw [descend, descend]
      cases entry : h.entryChild? s with
      | none => rfl
      | some initial =>
          have child := wf.nextEntry_child sound listed entry (h.modeUnder deep s)
          have here := agree s (wf.self_mem s) (by simp [entry])
          simp only [History.nextEntry, here] at child ⊢
          refine ih child.2 (fun i below => agree i ?_) _
          exact wf.ancestor_trans (wf.parent_mem child.1) below

end WellFormed

end Hierarchy

end Statewright
