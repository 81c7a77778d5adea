import Mathlib.Data.List.Nodup
import Mathlib.Logic.Relation
import Statewright.Check.Reachability

/-!
# Reached places

The rounds of the search add places until nothing is left to add, so that the places reached are
those that edges lead to from the start. Reported are all the others: the states that no path leads
to, since each state has a place of its own.
-/

namespace Statewright.Check

section Round

variable {edges : List (Nat × Nat)} {reached : List Nat}

theorem expand_cons (edge : Nat × Nat) :
    expand (edge :: edges) reached =
      expand edges (if reached.contains edge.1 && !reached.contains edge.2 then edge.2 :: reached
        else reached) := rfl

theorem expand_retains (edges : List (Nat × Nat)) (reached : List Nat) :
    reached.Sublist (expand edges reached) := by
  induction edges generalizing reached with
  | nil => exact List.Sublist.refl _
  | cons edge edges ih =>
      rw [expand_cons]
      refine List.Sublist.trans ?_ (ih _)
      split
      · exact List.sublist_cons_self _ _
      · exact List.Sublist.refl _

theorem expand_nodup (distinct : reached.Nodup) : (expand edges reached).Nodup := by
  induction edges generalizing reached with
  | nil => exact distinct
  | cons edge edges ih =>
      rw [expand_cons]
      refine ih ?_
      split
      · next new => exact List.nodup_cons.mpr ⟨by simp_all, distinct⟩
      · exact distinct

theorem expand_induction {motive : Nat → Prop} (start : ∀ x ∈ reached, motive x)
    (step : ∀ i j, (i, j) ∈ edges → motive i → motive j) :
    ∀ x ∈ expand edges reached, motive x := by
  induction edges generalizing reached with
  | nil => exact start
  | cons edge edges ih =>
      rw [expand_cons]
      refine ih ?_ fun i j listed => step i j (List.mem_cons_of_mem edge listed)
      split
      · next new =>
          have source : motive edge.1 := start edge.1 (by simp_all)
          exact List.forall_mem_cons.mpr ⟨step edge.1 edge.2 List.mem_cons_self source, start⟩
      · exact start

theorem expand_follows {i j : Nat} (listed : (i, j) ∈ edges) (source : i ∈ reached) :
    j ∈ expand edges reached := by
  induction edges generalizing reached with
  | nil => cases listed
  | cons edge edges ih =>
      rw [expand_cons]
      rcases List.mem_cons.mp listed with rfl | later
      · refine (expand_retains edges _).subset ?_
        split <;> simp_all
      · refine ih later ?_
        split <;> simp [source]

end Round

section Rounds

variable {edges : List (Nat × Nat)} {size : Nat}

theorem expandTimes_induction {motive : Nat → Prop} (n : Nat) {reached : List Nat}
    (start : ∀ x ∈ reached, motive x) (step : ∀ i j, (i, j) ∈ edges → motive i → motive j) :
    ∀ x ∈ expandTimes edges n reached, motive x := by
  induction n generalizing reached with
  | zero => exact start
  | succ n ih => exact ih (expand_induction start step)

theorem expandTimes_retains (n : Nat) (reached : List Nat) :
    reached.Sublist (expandTimes edges n reached) := by
  induction n generalizing reached with
  | zero => exact List.Sublist.refl _
  | succ n ih => exact (expand_retains edges reached).trans (ih _)

theorem expandTimes_fixed (n : Nat) {reached : List Nat} (fixed : expand edges reached = reached) :
    expandTimes edges n reached = reached := by
  induction n with
  | zero => rfl
  | succ n ih => rw [expandTimes, fixed, ih]

theorem expandTimes_settles (bounded : ∀ i j, (i, j) ∈ edges → j < size) (n : Nat)
    {reached : List Nat} (distinct : reached.Nodup) (inside : ∀ x ∈ reached, x < size)
    (enough : size ≤ n + reached.length) :
    expand edges (expandTimes edges n reached) = expandTimes edges n reached := by
  have within : ∀ x ∈ expand edges reached, x < size :=
    expand_induction inside fun i j listed _ => bounded i j listed
  have retained := expand_retains edges reached
  by_cases fixed : expand edges reached = reached
  · rw [expandTimes_fixed n fixed, fixed]
  · have longer : reached.length < (expand edges reached).length :=
      Nat.lt_of_le_of_ne retained.length_le fun same => fixed (retained.eq_of_length same).symm
    cases n with
    | zero =>
        have short : (expand edges reached).length ≤ (List.range size).length :=
          (expand_nodup distinct).length_le_of_subset fun x member =>
            List.mem_range.mpr (within x member)
        rw [List.length_range] at short
        omega
    | succ n => exact expandTimes_settles bounded n (expand_nodup distinct) within (by omega)

theorem mem_reachable {start : Nat} (bounded : ∀ i j, (i, j) ∈ edges → j < size)
    (below : start < size) {x : Nat} :
    x ∈ reachable size edges start ↔
      Relation.ReflTransGen (fun i j => (i, j) ∈ edges) start x := by
  constructor
  · refine fun member => expandTimes_induction (motive := fun x =>
      Relation.ReflTransGen (fun i j => (i, j) ∈ edges) start x) size ?_ ?_ x member
    · exact fun x first => List.mem_singleton.mp first ▸ .refl
    · exact fun i j listed before => before.tail listed
  · have settled := expandTimes_settles bounded size (List.nodup_singleton start)
      (fun x first => List.mem_singleton.mp first ▸ below) (Nat.le_add_right size _)
    intro path
    induction path with
    | refl => exact (expandTimes_retains size [start]).subset (List.mem_singleton.mpr rfl)
    | tail _ listed ih =>
        have next := expand_follows listed ih
        rwa [reachable, settled] at next

end Rounds

/-! ## States -/

def Linked (states : List String) (edges : List (String × String)) (i j : Nat) : Prop :=
  ∃ edge ∈ edges, states.idxOf? edge.1 = some i ∧ states.idxOf? edge.2 = some j

section States

variable {states : List String} {edges : List (String × String)}

theorem mem_indexedEdges {i j : Nat} :
    (i, j) ∈ indexedEdges states edges ↔ Linked states edges i j := by
  unfold indexedEdges Linked
  rw [List.mem_filterMap]
  refine exists_congr fun ⟨source, target⟩ => and_congr_right fun _ => ?_
  dsimp only
  cases states.idxOf? source <;> cases states.idxOf? target <;> simp

def unreachedFrom (states : List String) (edges : List (String × String)) (start : Nat) :
    List Nat :=
  (List.range states.length).filter fun i =>
    !(reachable states.length (indexedEdges states edges) start).contains i

theorem mem_unreachedFrom {start i : Nat} (below : start < states.length) :
    i ∈ unreachedFrom states edges start ↔
      i < states.length ∧ ¬Relation.ReflTransGen (Linked states edges) start i := by
  have bounded : ∀ i j, (i, j) ∈ indexedEdges states edges → j < states.length := by
    intro i j listed
    obtain ⟨edge, _, _, target⟩ := mem_indexedEdges.mp listed
    exact (List.idxOf?_eq_some_iff.mp target).1
  have linked : (fun i j => (i, j) ∈ indexedEdges states edges) = Linked states edges :=
    funext fun i => funext fun j => propext mem_indexedEdges
  have paths := mem_reachable bounded below (x := i)
  rw [linked] at paths
  simp [unreachedFrom, paths]

theorem unreachableStates_eq {initial : Option String} {start : Nat}
    (first : initial.bind states.idxOf? = some start) :
    unreachableStates states initial edges =
      (unreachedFrom states edges start).map fun i => .unreachable (states[i]?.getD "") := by
  have numbered : states.zipIdx = (List.range states.length).map fun i =>
      (states[i]?.getD "", i) := by
    refine List.ext_getElem (by simp) fun i below _ => ?_
    have known : i < states.length := by simpa using below
    simp [List.getElem?_eq_getElem known]
  rw [unreachableStates, first, unreachedFrom, ← List.filterMap_eq_map, List.filterMap_filter]
  simp only [numbered, List.filterMap_map]
  refine List.filterMap_congr fun i _ => ?_
  by_cases reached : i ∈ reachable states.length (indexedEdges states edges) start <;>
    simp [reached]

theorem unreachableStates_congr {other : List (String × String)}
    (same : ∀ edge, edge ∈ edges ↔ edge ∈ other) (initial : Option String) :
    unreachableStates states initial edges = unreachableStates states initial other := by
  have linked : Linked states edges = Linked states other := by
    funext i j
    simp only [Linked, same]
  cases first : initial.bind states.idxOf? with
  | none => simp only [unreachableStates, first]
  | some start =>
      obtain ⟨name, _, found⟩ := Option.bind_eq_some_iff.mp first
      have below : start < states.length := (List.idxOf?_eq_some_iff.mp found).1
      have unreached : unreachedFrom states edges start = unreachedFrom states other start := by
        refine List.filter_congr fun i listed => Bool.eq_iff_iff.mpr ?_
        have missed : i ∈ unreachedFrom states edges start ↔
            i ∈ unreachedFrom states other start := by
          rw [mem_unreachedFrom below, mem_unreachedFrom below, linked]
        rw [unreachedFrom, unreachedFrom, List.mem_filter, List.mem_filter] at missed
        simpa [listed] using missed
      rw [unreachableStates_eq first, unreachableStates_eq first, unreached]

def Leads (states : List String) (edges : List (String × String)) (a b : String) : Prop :=
  (a, b) ∈ edges ∧ a ∈ states ∧ b ∈ states

theorem Linked.leads {i j : Nat} (linked : Linked states edges i j) :
    Leads states edges (states[i]?.getD "") (states[j]?.getD "") := by
  obtain ⟨⟨a, b⟩, listed, source, target⟩ := linked
  obtain ⟨lower, rfl, _⟩ := List.idxOf?_eq_some_iff.mp source
  obtain ⟨upper, rfl, _⟩ := List.idxOf?_eq_some_iff.mp target
  simpa [Leads, lower, upper] using listed

theorem Leads.linked {a b : String} (leads : Leads states edges a b) :
    Linked states edges (states.idxOf a) (states.idxOf b) := by
  obtain ⟨listed, source, target⟩ := leads
  have first {s : String} (member : s ∈ states) : states.idxOf? s = some (states.idxOf s) := by
    cases found : states.idxOf? s with
    | none => exact absurd member (List.idxOf?_eq_none_iff.mp found)
    | some i => rw [List.idxOf_eq_getD_idxOf?, found, Option.getD_some]
  exact ⟨(a, b), listed, first source, first target⟩

theorem filter_places (states : List String) (chosen : String → Bool) :
    (((List.range states.length).filter fun i => chosen (states[i]?.getD "")).map fun i =>
      states[i]?.getD "") = states.filter chosen := by
  have named : ((List.range states.length).map fun i => states[i]?.getD "") = states :=
    List.ext_getElem (by simp) fun i _ known => by simp [known]
  conv_rhs => rw [← named, List.filter_map]
  rfl

theorem linked_path_iff (distinct : states.Nodup) {i j : Nat} (source : i < states.length)
    (target : j < states.length) :
    Relation.ReflTransGen (Linked states edges) i j ↔
      Relation.ReflTransGen (Leads states edges) states[i] states[j] := by
  constructor
  · intro path
    have named := Relation.ReflTransGen.lift (fun i => states[i]?.getD "")
      (fun _ _ => Linked.leads) _ _ path
    simpa [Function.onFun, source, target] using named
  · intro path
    have placed := Relation.ReflTransGen.lift states.idxOf (fun _ _ => Leads.linked) _ _ path
    simpa only [Function.onFun, distinct.idxOf_getElem] using placed

open scoped Classical in
theorem unreachableStates_named (distinct : states.Nodup) {initial : String}
    (listed : initial ∈ states) :
    unreachableStates states (some initial) edges =
      (states.filter fun s => ¬Relation.ReflTransGen (Leads states edges) initial s).map
        .unreachable := by
  obtain ⟨start, below, rfl⟩ := List.mem_iff_getElem.mp listed
  have first : (some states[start]).bind states.idxOf? = some start := by
    rw [Option.bind_some, List.idxOf?_eq_some_iff]
    exact ⟨below, rfl, fun j before same =>
      Nat.ne_of_lt before ((distinct.getElem_inj_iff).mp same)⟩
  have missed : unreachedFrom states edges start = (List.range states.length).filter fun i =>
      ¬Relation.ReflTransGen (Leads states edges) states[start] (states[i]?.getD "") := by
    refine List.filter_congr fun i member => ?_
    have known := List.mem_range.mp member
    have path : i ∈ unreachedFrom states edges start ↔ _ := mem_unreachedFrom below
    rw [linked_path_iff distinct below known] at path
    simpa [unreachedFrom, known, not_iff_not] using path
  rw [unreachableStates_eq first, missed, ← filter_places, List.map_map]
  rfl

open scoped Classical in
/-- Reported are, in their order, just those states that no path of edges leads to from the initial
one. More edges only take reports away; their order and number count for nothing. -/
theorem unreached_reported (states : List String) (edges : List (String × String))
    (initial : String) (distinct : states.Nodup) (listed : initial ∈ states) :
    (unreachableStates states (some initial) edges).map Finding.outcome =
        (states.filter fun s => ¬Relation.ReflTransGen (Leads states edges) initial s).map
          (fun s => ⟨.unreachableState, .warning,
            "State '" ++ s ++ "' might be unreachable based on defined transitions.", some s⟩) ∧
      (∀ more, edges ⊆ more → (unreachableStates states (some initial) more).Sublist
        (unreachableStates states (some initial) edges)) ∧
      ∀ other, (∀ edge, edge ∈ edges ↔ edge ∈ other) →
        unreachableStates states (some initial) other =
          unreachableStates states (some initial) edges := by
  refine ⟨?_, fun more added => ?_, fun other same => ?_⟩
  · rw [unreachableStates_named distinct listed, List.map_map]
    rfl
  · rw [unreachableStates_named distinct listed, unreachableStates_named distinct listed]
    refine (List.monotone_filter_right _ fun s => ?_).map _
    have further (a b : String) : Leads states edges a b → Leads states more a b :=
      fun ⟨edge, ends⟩ => ⟨added edge, ends⟩
    simp only [decide_eq_true_eq]
    exact mt (Relation.ReflTransGen.mono further _ _)
  · exact (unreachableStates_congr same _).symm

theorem orphan_unreached :
    let states := ["Idle", "Working", "Done", "Orphan"]
    let edges := [("Idle", "Working"), ("Working", "Done"), ("Done", "Done"), ("Done", "Gone"),
      ("Orphan", "Idle"), ("Idle", "Working")]
    ¬Relation.ReflTransGen (Leads states edges) "Idle" "Orphan" ∧
      (unreachableStates states (some "Idle") (("Done", "Orphan") :: edges)).Sublist
        (unreachableStates states (some "Idle") edges) := by
  intro states edges
  obtain ⟨reported, fewer, _⟩ := unreached_reported states edges "Idle" (by decide) (by decide)
  constructor
  · have told : some "Orphan" ∈
        ((unreachableStates states (some "Idle") edges).map Finding.outcome).map
          Outcome.subject := by
      decide
    rw [reported, List.map_map] at told
    obtain ⟨s, missed, same⟩ := List.mem_map.mp told
    obtain rfl : s = "Orphan" := Option.some.inj same
    simpa using (List.mem_filter.mp missed).2
  · exact fewer _ (List.subset_cons_self _ _)

end States

end Statewright.Check
