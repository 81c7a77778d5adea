import Mathlib.Data.List.Cycle
import Statewright.Proofs.Check.Cycles

/-!
# Reports of cycles

From each place the parents lead on to one place at most. Every cycle that they run in is reported
once, in their order, and nothing else is reported.
-/

namespace Statewright.Check

/-- A cycle that `next` runs in. -/
structure IsRing (next : Nat → Option Nat) (c : Cycle Nat) : Prop where
  nonempty : c ≠ Cycle.nil
  distinct : c.Nodup
  leads : c.Chain fun x p => next x = some p

variable {next : Nat → Option Nat}

theorem chain_snoc {l : List Nat} {z : Nat} :
    (l ++ [z]).IsChain (fun x p => next x = some p) ↔
      l.IsChain (fun x p => next x = some p) ∧ ∀ last ∈ l.getLast?, next last = some z := by
  simp [List.isChain_append]

theorem chain_determined {x z : Nat} {l other : List Nat}
    (chain : (x :: (l ++ [z])).IsChain fun x p => next x = some p)
    (also : (x :: (other ++ [z])).IsChain fun x p => next x = some p)
    (new : z ∉ l) (fresh : z ∉ other) : l = other := by
  induction l generalizing x other with
  | nil =>
      cases other with
      | nil => rfl
      | cons y other =>
          simp only [List.nil_append, List.cons_append, List.isChain_cons_cons] at chain also
          have same : z = y := Option.some.inj (chain.1.symm.trans also.1)
          exact absurd List.mem_cons_self (same ▸ fresh)
  | cons y l ih =>
      cases other with
      | nil =>
          simp only [List.nil_append, List.cons_append, List.isChain_cons_cons] at chain also
          have same : y = z := Option.some.inj (chain.1.symm.trans also.1)
          exact absurd List.mem_cons_self (same ▸ new)
      | cons w other =>
          simp only [List.cons_append, List.isChain_cons_cons] at chain also
          obtain rfl : y = w := Option.some.inj (chain.1.symm.trans also.1)
          rw [ih chain.2 also.2 (List.not_mem_of_not_mem_cons new)
            (List.not_mem_of_not_mem_cons fresh)]

theorem chain_last {S : Nat → Prop} (closed : ∀ x p, S x → next x = some p → S p) {l : List Nat}
    (chain : l.IsChain fun x p => next x = some p) {x : Nat} (member : x ∈ l) (inside : S x) :
    ∀ last ∈ l.getLast?, S last := by
  induction l generalizing x with
  | nil => simp at member
  | cons y l ih =>
      cases l with
      | nil =>
          obtain rfl := List.mem_singleton.mp member
          simpa using inside
      | cons z l =>
          obtain ⟨step, onward⟩ := List.isChain_cons_cons.mp chain
          rw [List.getLast?_cons_cons]
          rcases List.mem_cons.mp member with rfl | later
          · exact ih onward List.mem_cons_self (closed x z inside step)
          · exact ih onward later inside

theorem chain_next {l : List Nat} (chain : l.IsChain fun x p => next x = some p) {x : Nat}
    (member : x ∈ l) : x ∈ l.getLast? ∨ ∃ p ∈ l, next x = some p := by
  induction l with
  | nil => simp at member
  | cons y l ih =>
      cases l with
      | nil => exact .inl (by simpa [eq_comm] using member)
      | cons z l =>
          obtain ⟨step, onward⟩ := List.isChain_cons_cons.mp chain
          rw [List.getLast?_cons_cons]
          rcases List.mem_cons.mp member with rfl | later
          · exact .inr ⟨z, by simp, step⟩
          · exact (ih onward later).imp_right fun ⟨p, inside, up⟩ =>
              ⟨p, List.mem_cons_of_mem y inside, up⟩

/-! ## Rings -/

namespace IsRing

variable {c d : Cycle Nat} {x : Nat}

theorem starting (ring : IsRing next c) (member : x ∈ c) : ∃ l : List Nat, c = ↑(x :: l) ∧
    x ∉ l ∧ (x :: (l ++ [x])).IsChain fun x p => next x = some p := by
  induction c using Quotient.inductionOn' with
  | _ l =>
    rw [Cycle.mk''_eq_coe] at ring member ⊢
    obtain ⟨before, behind, rfl⟩ := List.append_of_mem (Cycle.mem_coe_iff.mp member)
    have turned : ((before ++ x :: behind : List Nat) : Cycle Nat) = ↑(x :: (behind ++ before)) :=
      Cycle.coe_eq_coe.mpr List.isRotated_append
    rw [turned] at ring ⊢
    have distinct := Cycle.nodup_coe_iff.mp ring.distinct
    exact ⟨behind ++ before, rfl, (List.nodup_cons.mp distinct).1,
      (Cycle.chain_coe_cons _ _ _).mp ring.leads⟩

theorem step (ring : IsRing next c) (member : x ∈ c) : ∃ p ∈ c, next x = some p := by
  obtain ⟨l, rfl, _, chain⟩ := ring.starting member
  cases l with
  | nil => exact ⟨x, member, by simpa using chain⟩
  | cons p l => exact ⟨p, by simp, (List.isChain_cons_cons.mp chain).1⟩

theorem back (ring : IsRing next c) (member : x ∈ c) : ∃ y ∈ c, next y = some x := by
  obtain ⟨l, rfl, _, chain⟩ := ring.starting member
  obtain ⟨last, ended⟩ := Option.isSome_iff_exists.mp
    (List.getLast?_isSome.mpr (List.cons_ne_nil x l))
  rw [← List.cons_append, chain_snoc] at chain
  exact ⟨last, Cycle.mem_coe_iff.mpr (List.mem_of_getLast? ended), chain.2 last ended⟩

theorem closed (ring : IsRing next c) (x p : Nat) (member : x ∈ c) (up : next x = some p) :
    p ∈ c := by
  obtain ⟨q, inside, also⟩ := ring.step member
  exact Option.some.inj (up.symm.trans also) ▸ inside

theorem unique (ring : IsRing next c) (other : IsRing next d) (here : x ∈ c) (there : x ∈ d) :
    c = d := by
  obtain ⟨l, rfl, new, chain⟩ := ring.starting here
  obtain ⟨k, rfl, fresh, also⟩ := other.starting there
  rw [chain_determined chain also new fresh]

theorem exists_mem (ring : IsRing next c) : ∃ x, x ∈ c := by
  induction c using Cycle.induction_on with
  | nil => exact absurd rfl ring.nonempty
  | cons x l => exact ⟨x, by simp⟩

theorem endless (ring : IsRing next c) :
    ∃ chain : Nat → Nat, ∀ n, next (chain n) = some (chain (n + 1)) := by
  obtain ⟨x, member⟩ := ring.exists_mem
  let onward (y : { y // y ∈ c }) : { y // y ∈ c } :=
    ⟨(ring.step y.2).choose, (ring.step y.2).choose_spec.1⟩
  refine ⟨fun n => (onward^[n] ⟨x, member⟩).1, fun n => ?_⟩
  simp only [Function.iterate_succ_apply']
  exact (ring.step (onward^[n] ⟨x, member⟩).2).choose_spec.2

end IsRing

/-- A path that begins behind what was seen and ends where it meets itself, if it is closed at a
place, or else where it meets what was seen or nothing. -/
structure Trail (next : Nat → Option Nat) (seen path : List Nat) (closing : Option Nat) : Prop where
  chain : path.IsChain fun x p => next x = some p
  distinct : path.Nodup
  fresh : ∀ x ∈ path, x ∉ seen
  closes : ∀ place, closing = some place →
    place ∈ path ∧ ∀ last ∈ path.getLast?, next last = some place
  ends : closing = none → ∀ last ∈ path.getLast?, ∀ p, next last = some p → p ∈ seen

section Follow

variable {size : Nat} {seen : List Nat}

theorem fuel_left {n : Nat} {path : List Nat} (distinct : path.Nodup)
    (inside : ∀ x ∈ path, x < size) (enough : size < n + path.length) : n ≠ 0 := by
  have within : path ⊆ List.range size := fun x member => List.mem_range.mpr (inside x member)
  have short := distinct.length_le_of_subset within
  rw [List.length_range] at short
  omega

theorem follow_trail (bounded : ∀ x p, next x = some p → p < size) (n : Nat) (path : List Nat)
    (current : Nat) (chain : (path ++ [current]).IsChain fun x p => next x = some p)
    (distinct : path.Nodup) (fresh : ∀ x ∈ path, x ∉ seen) (inside : ∀ x ∈ path, x < size)
    (below : current < size) (enough : size < n + path.length) :
    Trail next seen (follow next seen n path current).1 (follow next seen n path current).2 ∧
      path ⊆ (follow next seen n path current).1 ∧
      (current ∈ seen ∨ current ∈ (follow next seen n path current).1) := by
  fun_induction follow next seen n path current with
  | case1 path current => exact absurd rfl (fuel_left distinct inside enough)
  | case2 n path current found =>
      obtain ⟨whole, onward⟩ := chain_snoc.mp chain
      have known := List.contains_iff_mem.mp found
      refine ⟨⟨whole, distinct, fresh, by simp, fun _ last ended p up => ?_⟩, List.Subset.refl path,
        .inl known⟩
      exact Option.some.inj ((onward last ended).symm.trans up) ▸ known
  | case3 n path current new found =>
      obtain ⟨whole, onward⟩ := chain_snoc.mp chain
      have met := List.contains_iff_mem.mp found
      refine ⟨⟨whole, distinct, fresh, fun place closed => ?_, by simp⟩, List.Subset.refl path,
        .inr met⟩
      obtain rfl : current = place := Option.some.inj closed
      exact ⟨met, onward⟩
  | case4 n path current unseen new p step ih =>
      have longer := extend_path distinct inside below new
      have fresher : ∀ x ∈ path ++ [current], x ∉ seen := by
        simp only [List.forall_mem_append, List.forall_mem_singleton]
        exact ⟨fresh, mt List.contains_iff_mem.mpr unseen⟩
      obtain ⟨trail, kept, _⟩ := ih (chain_snoc.mpr ⟨chain, by simpa using step⟩) longer.1 fresher
        longer.2 (bounded current p step)
        (by simp only [List.length_append, List.length_singleton]; omega)
      exact ⟨trail, fun x member => kept (List.mem_append_left [current] member),
        .inr (kept (List.mem_append_right path List.mem_cons_self))⟩
  | case5 n path current unseen new step =>
      have longer := extend_path distinct inside below new
      refine ⟨⟨chain, longer.1, ?_, by simp, fun _ last ended p up => ?_⟩,
        List.subset_append_left path [current], .inr (by simp)⟩
      · simp only [List.forall_mem_append, List.forall_mem_singleton]
        exact ⟨fresh, mt List.contains_iff_mem.mpr unseen⟩
      · obtain rfl : current = last := by simpa using ended
        simp [step] at up

/-- The walk ends by itself: with more steps it goes no further. -/
theorem follow_settles (bounded : ∀ x p, next x = some p → p < size) (more n : Nat)
    (path : List Nat) (current : Nat) (distinct : path.Nodup) (inside : ∀ x ∈ path, x < size)
    (below : current < size) (enough : size < n + path.length) :
    follow next seen (n + more) path current = follow next seen n path current := by
  induction n generalizing path current with
  | zero => exact absurd rfl (fuel_left distinct inside enough)
  | succ n ih =>
      rw [Nat.succ_add, follow, follow]
      split
      · rfl
      · split
        · rfl
        · next new =>
            split
            · next p step =>
                have longer := extend_path distinct inside below new
                exact ih (path ++ [current]) p longer.1 longer.2 (bounded current p step)
                  (by simp only [List.length_append, List.length_singleton]; omega)
            · rfl

theorem cyclesFrom_settles (bounded : ∀ x p, next x = some p → p < size) (more : Nat)
    (seen starts : List Nat) (inside : ∀ s ∈ starts, s < size) :
    cyclesFrom next (size + more) seen starts = cyclesFrom next size seen starts := by
  induction starts generalizing seen with
  | nil => rfl
  | cons start starts ih =>
      have same : follow next seen (size + more + 1) [] start =
          follow next seen (size + 1) [] start := by
        rw [Nat.add_right_comm]
        exact follow_settles bounded more (size + 1) [] start List.nodup_nil (by simp)
          (inside start List.mem_cons_self) (by simp)
      rw [cyclesFrom, same, cyclesFrom]
      simp only [ih _ fun s later => inside s (List.mem_cons_of_mem start later)]

end Follow

/-! ## Trails -/

theorem dropWhile_place {place : Nat} {path : List Nat} (member : place ∈ path) :
    ∃ rest, path.dropWhile (· != place) = place :: rest := by
  induction path with
  | nil => simp at member
  | cons x path ih =>
      by_cases here : x = place
      · exact ⟨path, by simp [here]⟩
      · rw [List.dropWhile_cons_of_pos (by simpa using here)]
        exact ih (by simpa [Ne.symm here] using member)

namespace Trail

variable {seen path : List Nat} {closing : Option Nat}

theorem closed (trail : Trail next seen path closing)
    (closed : ∀ x p, x ∈ seen → next x = some p → p ∈ seen) (x p : Nat)
    (member : x ∈ seen ++ path) (up : next x = some p) : p ∈ seen ++ path := by
  rcases List.mem_append.mp member with old | passed
  · exact List.mem_append_left path (closed x p old up)
  · rcases chain_next trail.chain passed with last | ⟨q, inside, also⟩
    · cases ended : closing with
      | none => exact List.mem_append_left path (trail.ends ended x last p up)
      | some place =>
          obtain ⟨met, onward⟩ := trail.closes place ended
          have same := Option.some.inj (up.symm.trans (onward x last))
          exact List.mem_append_right seen (same ▸ met)
    · have same := Option.some.inj (up.symm.trans also)
      exact List.mem_append_right seen (same ▸ inside)

theorem meets (trail : Trail next seen path closing) {c : Cycle Nat} (ring : IsRing next c)
    (new : ∀ x ∈ c, x ∉ seen) {x : Nat} (member : x ∈ c) (passed : x ∈ path) :
    ∃ place, closing = some place ∧ place ∈ c := by
  obtain ⟨last, ended⟩ : ∃ last, last ∈ path.getLast? :=
    Option.isSome_iff_exists.mp (List.getLast?_isSome.mpr (List.ne_nil_of_mem passed))
  have inside : last ∈ c := chain_last ring.closed trail.chain passed member last ended
  obtain ⟨p, around, up⟩ := ring.step inside
  cases closes : closing with
  | none => exact absurd (trail.ends closes last ended p up) (new p around)
  | some place =>
      have same := Option.some.inj (up.symm.trans ((trail.closes place closes).2 last ended))
      exact ⟨place, rfl, same ▸ around⟩

theorem ring {place : Nat} (trail : Trail next seen path (some place)) :
    IsRing next ↑(path.dropWhile (· != place)) ∧ place ∈ path.dropWhile (· != place) := by
  obtain ⟨met, onward⟩ := trail.closes place rfl
  obtain ⟨rest, found⟩ := dropWhile_place met
  have behind : path.dropWhile (· != place) <:+ path := List.dropWhile_suffix _
  have chain := trail.chain.suffix behind
  have distinct := trail.distinct.sublist behind.sublist
  have ended : (place :: rest).getLast? = path.getLast? := by
    obtain ⟨front, whole⟩ := found ▸ behind
    rw [← whole, List.getLast?_append_of_ne_nil front (List.cons_ne_nil place rest)]
  rw [found] at chain distinct ⊢
  refine ⟨⟨?_, Cycle.nodup_coe_iff.mpr distinct, ?_⟩, List.mem_cons_self⟩
  · simp
  · rw [Cycle.chain_coe_cons, ← List.cons_append, chain_snoc, ended]
    exact ⟨chain, onward⟩

end Trail

/-- The paths run around the rings that start at some places and were not seen before, once
around each. -/
structure Surveys (next : Nat → Option Nat) (seen starts : List Nat) (found : List (List Nat)) :
    Prop where
  rings : ∀ path ∈ found, IsRing next path ∧ ∀ x ∈ path, x ∉ seen
  once : (found.map Cycle.ofList).Nodup
  all : ∀ c, IsRing next c → (∃ s ∈ starts, s ∈ c) → (∀ x ∈ c, x ∉ seen) →
    c ∈ found.map Cycle.ofList

theorem cyclesFrom_surveys {size : Nat} (bounded : ∀ x p, next x = some p → p < size)
    (seen starts : List Nat) (closed : ∀ x p, x ∈ seen → next x = some p → p ∈ seen)
    (inside : ∀ s ∈ starts, s < size) :
    Surveys next seen starts (cyclesFrom next size seen starts) := by
  induction starts generalizing seen with
  | nil => exact ⟨by simp [cyclesFrom], by simp [cyclesFrom], by simp⟩
  | cons start starts ih =>
      obtain ⟨trail, _, passed⟩ := @follow_trail next size seen bounded (size + 1) [] start
        (List.isChain_singleton start) List.nodup_nil (by simp) (by simp)
        (inside start List.mem_cons_self) (by simp)
      rw [cyclesFrom]
      generalize follow next seen (size + 1) [] start = walked at trail passed
      obtain ⟨path, closing⟩ := walked
      dsimp only at trail passed ⊢
      obtain ⟨rings, once, all⟩ := ih (seen ++ path) (trail.closed closed)
        fun s later => inside s (List.mem_cons_of_mem start later)
      have earlier : ∀ other ∈ cyclesFrom next size (seen ++ path) starts,
          IsRing next other ∧ ∀ x ∈ other, x ∉ seen := fun other member =>
        ⟨(rings other member).1, fun x on old =>
          (rings other member).2 x on (List.mem_append_left path old)⟩
      -- a ring off the trail does not pass the start, and is new to the places that are left
      have apart (c : Cycle Nat) (ring : IsRing next c) (begins : ∃ s ∈ start :: starts, s ∈ c)
          (new : ∀ x ∈ c, x ∉ seen) (off : ∀ x ∈ c, x ∉ path) :
          c ∈ (cyclesFrom next size (seen ++ path) starts).map Cycle.ofList := by
        obtain ⟨s, listed, on⟩ := begins
        refine all c ring ?_ fun x member => by simp [new x member, off x member]
        rcases List.mem_cons.mp listed with rfl | later
        · exact absurd passed (by simp [new s on, off s on])
        · exact ⟨s, later, on⟩
      cases closing with
      | none =>
          refine ⟨earlier, once, fun c ring begins new => ?_⟩
          refine apart c ring begins new fun x member on => ?_
          obtain ⟨place, closes, _⟩ := trail.meets ring new member on
          cases closes
      | some place =>
          obtain ⟨closed, around⟩ := trail.ring
          have within : path.dropWhile (· != place) ⊆ path := (List.dropWhile_suffix _).subset
          refine ⟨List.forall_mem_cons.mpr ⟨⟨closed, fun x on => trail.fresh x (within on)⟩,
            earlier⟩, ?_, fun c ring begins new => ?_⟩
          · refine List.nodup_cons.mpr ⟨fun again => ?_, once⟩
            obtain ⟨other, member, same⟩ := List.mem_map.mp again
            have on : place ∈ other := Cycle.mem_coe_iff.mp (same ▸ Cycle.mem_coe_iff.mpr around)
            exact (rings other member).2 place on (List.mem_append_right seen (within around))
          · rw [List.map_cons, List.mem_cons]
            by_cases off : ∀ x ∈ c, x ∉ path
            · exact .inr (apart c ring begins new off)
            · push Not at off
              obtain ⟨x, member, on⟩ := off
              obtain ⟨_, closes, met⟩ := trail.meets ring new member on
              cases closes
              exact .inl (ring.unique closed met (Cycle.mem_coe_iff.mpr around))

/-! ## Parents -/

theorem parentPlace?_eq_some {states : List Nested} {i p : Nat} :
    parentPlace? states i = some p ↔ ∃ s parent t, states[i]? = some s ∧ s.parent = some parent ∧
      states[p]? = some t ∧ t.name = parent ∧
        ∀ q < p, ∀ u, states[q]? = some u → u.name ≠ parent := by
  simp only [parentPlace?, placeOf?, Option.bind_eq_some_iff, List.findIdx?_eq_some_iff_getElem]
  constructor
  · rintro ⟨parent, ⟨s, here, above⟩, bound, named, first⟩
    refine ⟨s, parent, states[p], here, above, by simp [bound], by simpa using named, ?_⟩
    intro q before u there
    obtain ⟨_, rfl⟩ := List.getElem?_eq_some_iff.mp there
    simpa using first q before
  · rintro ⟨s, parent, t, here, above, there, named, first⟩
    obtain ⟨bound, rfl⟩ := List.getElem?_eq_some_iff.mp there
    refine ⟨parent, ⟨s, here, above⟩, bound, by simpa using named, fun q before => ?_⟩
    simpa using first q before _ (List.getElem?_eq_getElem (before.trans bound))

section Parents

variable {states : List Nested} {c : Cycle Nat} (ring : IsRing (parentPlace? states) c)
include ring

theorem IsRing.lt {x : Nat} (member : x ∈ c) : x < states.length := by
  obtain ⟨p, _, up⟩ := ring.step member
  obtain ⟨s, _, _, here, _⟩ := parentPlace?_eq_some.mp up
  exact (List.getElem?_eq_some_iff.mp here).1

theorem IsRing.first {x q : Nat} {s u : Nested} (member : x ∈ c) (here : states[x]? = some s)
    (there : states[q]? = some u) (alike : u.name = s.name) : x ≤ q := by
  obtain ⟨y, _, up⟩ := ring.back member
  obtain ⟨_, parent, t, _, _, known, named, first⟩ := parentPlace?_eq_some.mp up
  obtain rfl : t = s := Option.some.inj (known.symm.trans here)
  exact Nat.le_of_not_lt fun before => first q before u there (alike.trans named)

theorem IsRing.name_inj {x y : Nat} (member : x ∈ c) (also : y ∈ c)
    (alike : states[x]?.map Nested.name = states[y]?.map Nested.name) : x = y := by
  obtain ⟨s, here⟩ : ∃ s, states[x]? = some s := ⟨_, List.getElem?_eq_getElem (ring.lt member)⟩
  obtain ⟨t, there⟩ : ∃ t, states[y]? = some t := ⟨_, List.getElem?_eq_getElem (ring.lt also)⟩
  have same : s.name = t.name := by simpa [here, there] using alike
  exact Nat.le_antisymm (ring.first member here there same.symm)
    (ring.first also there here same)

end Parents

/-- The finding is about the first state on the path and tells all of them in order, and then the
first again. -/
def Tells (states : List Nested) (f : Finding) (path : List Nat) : Prop :=
  ∃ first others, path.map (fun i => states[i]?.map Nested.name) = (first :: others).map some ∧
    (first :: others).Nodup ∧
    f.outcome = ⟨.circularHierarchy, .error, "Circular hierarchy detected: " ++
      " -> ".intercalate (first :: others ++ [first]) ++ ".", some first⟩

theorem IsRing.told {states : List Nested} {path : List Nat}
    (ring : IsRing (parentPlace? states) path) : ∃ first others,
      path.filterMap (fun i => states[i]?.map Nested.name) = first :: others ∧
        Tells states (.circular first others) path := by
  let name (i : Nat) : String := (states[i]?.map Nested.name).getD ""
  have known : ∀ i ∈ path, states[i]?.map Nested.name = some (name i) := by
    intro i member
    have here := List.getElem?_eq_getElem (ring.lt (Cycle.mem_coe_iff.mpr member))
    simp [name, here]
  have whole : path.map (fun i => states[i]?.map Nested.name) = (path.map name).map some := by
    rw [List.map_map]
    exact List.map_congr_left known
  have listed : path.filterMap (fun i => states[i]?.map Nested.name) = path.map name := by
    rw [← List.filterMap_eq_map]
    exact List.filterMap_congr known
  have distinct : (path.map name).Nodup := by
    refine List.Nodup.of_map some ?_
    rw [← whole]
    refine (Cycle.nodup_coe_iff.mp ring.distinct).map_on fun x here y there alike => ?_
    exact ring.name_inj (Cycle.mem_coe_iff.mpr here) (Cycle.mem_coe_iff.mpr there) alike
  cases names : path.map name with
  | nil =>
      obtain rfl := List.map_eq_nil_iff.mp names
      exact absurd rfl ring.nonempty
  | cons first others =>
      exact ⟨first, others, listed.trans names, first, others, names ▸ whole, names ▸ distinct,
        rfl⟩

theorem filterMap_told {states : List Nested} {found : List (List Nat)}
    (rings : ∀ path ∈ found, IsRing (parentPlace? states) path) :
    List.Forall₂ (Tells states)
      (found.filterMap fun cycle =>
        match cycle.filterMap fun i => states[i]?.map Nested.name with
        | first :: others => some (.circular first others)
        | [] => none) found := by
  induction found with
  | nil => exact .nil
  | cons path found ih =>
      obtain ⟨ring, others⟩ := List.forall_mem_cons.mp rings
      obtain ⟨first, rest, names, tells⟩ := ring.told
      rw [List.filterMap_cons_some (by rw [names])]
      exact .cons tells (ih others)

/-- Each cycle that the parents run in is reported once, and nothing else: the report is about one
of its states and tells all of them in the order of the parents. So nothing is reported just when
no chain of parents goes on for ever. The walk along a chain ends by itself, whatever the number of
steps it is allowed. -/
theorem cycles_reported_once (states : List Nested) :
    ∃ found : List (List Nat),
      List.Forall₂ (Tells states) (circularHierarchy states) found ∧
        (found.map Cycle.ofList).Nodup ∧
        (∀ c, c ∈ found.map Cycle.ofList ↔ IsRing (parentPlace? states) c) ∧
        (circularHierarchy states = [] ↔
          ¬∃ chain : Nat → Nat, ∀ n, parentPlace? states (chain n) = some (chain (n + 1))) ∧
        ∀ more, cyclesFrom (parentPlace? states) (states.length + more) []
          (List.range states.length) = found := by
  let found := cyclesFrom (parentPlace? states) states.length [] (List.range states.length)
  have inside : ∀ s ∈ List.range states.length, s < states.length := fun s => List.mem_range.mp
  obtain ⟨rings, once, all⟩ := cyclesFrom_surveys (@parentPlace?_lt states) []
    (List.range states.length) (by simp) inside
  have listed (c : Cycle Nat) :
      c ∈ found.map Cycle.ofList ↔ IsRing (parentPlace? states) c := by
    constructor
    · intro reported
      obtain ⟨path, member, rfl⟩ := List.mem_map.mp reported
      exact (rings path member).1
    · intro ring
      obtain ⟨x, member⟩ := ring.exists_mem
      exact all c ring ⟨x, List.mem_range.mpr (ring.lt member), member⟩ (by simp)
  have told : List.Forall₂ (Tells states) (circularHierarchy states) found :=
    filterMap_told fun path member => (rings path member).1
  refine ⟨found, told, once, listed, ?_, fun more =>
    cyclesFrom_settles parentPlace?_lt more [] _ inside⟩
  constructor
  · rintro clean ⟨chain, onward⟩
    have := (⟨parents_acyclic clean⟩ : IsWellFounded Nat _)
    obtain ⟨n, ends⟩ := WellFounded.not_rel_apply_succ
      (r := fun p x => parentPlace? states x = some p) chain
    exact ends (onward n)
  · intro finite
    refine List.length_eq_zero_iff.mp (told.length_eq.trans (List.length_eq_zero_iff.mpr ?_))
    refine List.eq_nil_iff_forall_not_mem.mpr fun path member => finite ?_
    exact (rings path member).1.endless

/-- What leads into a cycle, here the last state, is not told of. -/
example : (circularHierarchy [{ name := "A", parent := "B" }, { name := "B", parent := "C" },
    { name := "C", parent := "A" }, { name := "D", parent := "A" }]).map Finding.message =
      ["Circular hierarchy detected: A -> B -> C -> A."] := by
  decide

end Statewright.Check
