import Statewright.Check.Nesting

/-!
# Cycles of parents

Where no cycle is reported, every chain of parents ends.
-/

namespace Statewright.Check

theorem mem_dropWhile_ne {place : Nat} {path : List Nat} (member : place ∈ path) :
    place ∈ path.dropWhile (· != place) := by
  induction path with
  | nil => simp at member
  | cons x path ih =>
      by_cases here : x = place
      · simp [here]
      · rw [List.dropWhile_cons_of_pos (by simpa using here)]
        exact ih (by simpa [Ne.symm here] using member)

theorem extend_path {size current : Nat} {path : List Nat} (distinct : path.Nodup)
    (inside : ∀ x ∈ path, x < size) (below : current < size)
    (new : ¬path.contains current = true) :
    (path ++ [current]).Nodup ∧ ∀ x ∈ path ++ [current], x < size := by
  constructor
  · refine List.nodup_append.mpr ⟨distinct, by simp, ?_⟩
    intro x old y last same
    rw [List.mem_singleton.mp last] at same
    exact new (List.contains_iff_mem.mpr (same ▸ old))
  · intro x member
    rcases List.mem_append.mp member with old | last
    · exact inside x old
    · exact List.mem_singleton.mp last ▸ below

section Follow

variable {next : Nat → Option Nat} {size : Nat} {seen : List Nat}

theorem follow_ends (bounded : ∀ x p, next x = some p → p < size)
    (settled : ∀ x ∈ seen, Acc (fun p x => next x = some p) x) (n : Nat) (path : List Nat)
    (current : Nat) (distinct : path.Nodup) (inside : ∀ x ∈ path, x < size)
    (below : current < size) (enough : size < n + path.length)
    (unclosed : (follow next seen n path current).2 = none) :
    Acc (fun p x => next x = some p) current ∧
      ∀ x ∈ (follow next seen n path current).1,
        x ∈ path ∨ Acc (fun p x => next x = some p) x := by
  fun_induction follow next seen n path current with
  | case1 path current =>
      have within : path ⊆ List.range size := fun x member => List.mem_range.mpr (inside x member)
      have short := distinct.length_le_of_subset within
      simp only [List.length_range] at short
      omega
  | case2 n path current found =>
      exact ⟨settled current (List.contains_iff_mem.mp found), fun x member => .inl member⟩
  | case3 => cases unclosed
  | case4 n path current fresh new p step ih =>
      have longer := extend_path distinct inside below new
      have rest := ih longer.1 longer.2 (bounded current p step)
        (by simp only [List.length_append, List.length_singleton]; omega) unclosed
      have ends : Acc (fun p x => next x = some p) current :=
        Acc.intro current fun q up => by
          rw [step, Option.some.injEq] at up
          exact up ▸ rest.1
      refine ⟨ends, fun x member => ?_⟩
      rcases rest.2 x member with old | settled
      · rcases List.mem_append.mp old with old | last
        · exact .inl old
        · exact .inr (List.mem_singleton.mp last ▸ ends)
      · exact .inr settled
  | case5 n path current fresh new step =>
      have ends : Acc (fun p x => next x = some p) current :=
        Acc.intro current fun p up => by simp [step] at up
      refine ⟨ends, fun x member => ?_⟩
      rcases List.mem_append.mp member with old | last
      · exact .inl old
      · exact .inr (List.mem_singleton.mp last ▸ ends)

theorem follow_closes (bounded : ∀ x p, next x = some p → p < size) (n : Nat) (path : List Nat)
    (current place : Nat) (below : current < size)
    (closed : (follow next seen n path current).2 = some place) :
    place ∈ (follow next seen n path current).1 ∧ place < size := by
  fun_induction follow next seen n path current with
  | case1 => cases closed
  | case2 => cases closed
  | case3 n path current fresh old =>
      cases closed
      exact ⟨List.contains_iff_mem.mp old, below⟩
  | case4 n path current fresh new p step ih => exact ih (bounded current p step) closed
  | case5 => cases closed

theorem cyclesFrom_none (bounded : ∀ x p, next x = some p → p < size) (seen starts : List Nat)
    (settled : ∀ x ∈ seen, Acc (fun p x => next x = some p) x) (inside : ∀ s ∈ starts, s < size)
    (none : cyclesFrom next size seen starts = []) :
    ∀ s ∈ starts, Acc (fun p x => next x = some p) s := by
  induction starts generalizing seen with
  | nil => simp
  | cons start starts ih =>
      rw [cyclesFrom] at none
      cases closing : (follow next seen (size + 1) [] start).2 with
      | some place => simp [closing] at none
      | none =>
          have here := inside start List.mem_cons_self
          have ends := follow_ends bounded settled (size + 1) [] start List.nodup_nil (by simp) here
            (by simp) closing
          have further : ∀ x ∈ seen ++ (follow next seen (size + 1) [] start).1,
              Acc (fun p x => next x = some p) x := by
            intro x member
            rcases List.mem_append.mp member with old | passed
            · exact settled x old
            · exact (ends.2 x passed).resolve_left (by simp)
          simp only [closing] at none
          intro s member
          rcases List.mem_cons.mp member with rfl | later
          · exact ends.1
          · have within (s : Nat) (later : s ∈ starts) :=
              inside s (List.mem_cons_of_mem start later)
            exact ih _ further within none s later

theorem cyclesFrom_place (bounded : ∀ x p, next x = some p → p < size) (seen starts : List Nat)
    (inside : ∀ s ∈ starts, s < size) :
    ∀ cycle ∈ cyclesFrom next size seen starts, ∃ place ∈ cycle, place < size := by
  induction starts generalizing seen with
  | nil => simp [cyclesFrom]
  | cons start starts ih =>
      intro cycle member
      rw [cyclesFrom] at member
      have others := ih (seen ++ (follow next seen (size + 1) [] start).1)
        fun s later => inside s (List.mem_cons_of_mem start later)
      cases closing : (follow next seen (size + 1) [] start).2 with
      | none =>
          simp only [closing] at member
          exact others cycle member
      | some place =>
          simp only [closing, List.mem_cons] at member
          rcases member with rfl | member
          · obtain ⟨passed, below⟩ :=
              follow_closes bounded _ [] start place (inside start List.mem_cons_self) closing
            exact ⟨place, mem_dropWhile_ne passed, below⟩
          · exact others cycle member

end Follow

theorem placeOf?_lt {states : List Nested} {name : String} {i : Nat}
    (found : placeOf? states name = some i) : i < states.length :=
  (List.findIdx?_eq_some_iff_findIdx_eq.mp found).1

theorem parentPlace?_lt {states : List Nested} (x p : Nat)
    (up : parentPlace? states x = some p) : p < states.length := by
  obtain ⟨name, _, found⟩ := Option.bind_eq_some_iff.mp up
  exact placeOf?_lt found

theorem cyclesFrom_of_circularHierarchy {states : List Nested}
    (clean : circularHierarchy states = []) :
    cyclesFrom (parentPlace? states) states.length [] (List.range states.length) = [] := by
  cases found : cyclesFrom (parentPlace? states) states.length [] (List.range states.length) with
  | nil => rfl
  | cons cycle others =>
      have member : cycle ∈ cyclesFrom (parentPlace? states) states.length []
          (List.range states.length) := by simp [found]
      obtain ⟨place, passed, below⟩ := cyclesFrom_place parentPlace?_lt []
        (List.range states.length) (fun s inside => List.mem_range.mp inside) cycle member
      have named : states[place].name ∈ cycle.filterMap fun i => states[i]?.map Nested.name :=
        List.mem_filterMap.mpr ⟨place, passed, by simp [below]⟩
      have quiet := List.filterMap_eq_nil_iff.mp clean cycle member
      split at quiet
      · simp at quiet
      · next empty => simp [empty] at named

theorem parents_acyclic {states : List Nested} (clean : circularHierarchy states = []) :
    WellFounded fun p x => parentPlace? states x = some p := by
  constructor
  intro x
  by_cases below : x < states.length
  · exact cyclesFrom_none parentPlace?_lt [] _ (by simp) (fun s inside => List.mem_range.mp inside)
      (cyclesFrom_of_circularHierarchy clean) x (List.mem_range.mpr below)
  · refine Acc.intro x fun p up => ?_
    simp [parentPlace?, List.getElem?_eq_none (Nat.le_of_not_lt below)] at up

end Statewright.Check
