import Statewright.Proofs.Build.Tables
import Statewright.Proofs.Hierarchy.Scope

/-!
# Ancestors by name

The search for the ancestors of a state goes from name to name of their parents. It comes to an end
in every model, and since it finds what the walk up the table of parents finds, the bound on it
costs no ancestor.
-/

namespace Statewright

namespace Model

variable {m : Model}

/-- One turn of the search, given what is found so far and the name to look for next; nothing if it
is over. -/
def turn? (m : Model) (found : List StateModel) (next : Option String) :
    Option (List StateModel × Option String) :=
  (next.bind m.state?).bind fun s =>
    if m.states.length < found.length then none else some (found ++ [s], s.parent)

/-- The search from what is found so far to all that it finds, in so many turns; nothing bounds it
but where it ends. -/
inductive Search (m : Model) : Nat → List StateModel → Option String → List StateModel → Prop
  | stop {found : List StateModel} {next : Option String} :
      m.turn? found next = none → Search m 0 found next found
  | turn {n : Nat} {found longer all : List StateModel} {next further : Option String} :
      m.turn? found next = some (longer, further) → Search m n longer further all →
        Search m (n + 1) found next all

theorem search_ends (k : Nat) (found : List StateModel) (next : Option String)
    (room : found.length + k = m.states.length + 1) :
    ∃ n ≤ k, m.Search n found next (found ++ m.parentChain k next) := by
  induction k generalizing found next with
  | zero =>
      have full : m.states.length < found.length := by omega
      have ended : m.turn? found next = none := by simp [turn?, full]
      refine ⟨0, Nat.le_refl 0, ?_⟩
      simpa [parentChain] using Search.stop ended
  | succ k ih =>
      cases state : next.bind m.state? with
      | none =>
          have ended : m.turn? found next = none := by simp [turn?, state]
          have nothing : m.parentChain (k + 1) next = [] := by
            cases next <;> simp_all [parentChain]
          refine ⟨0, Nat.zero_le _, ?_⟩
          simpa [nothing] using Search.stop ended
      | some s =>
          obtain ⟨name, rfl, known⟩ := Option.bind_eq_some_iff.mp state
          have fits : ¬m.states.length < found.length := by omega
          obtain ⟨n, within, rest⟩ := ih (found ++ [s]) s.parent (by simp; omega)
          have turned : m.turn? found (some name) = some (found ++ [s], s.parent) := by
            simp [turn?, known, fits]
          refine ⟨n + 1, Nat.succ_le_succ within, .turn turned ?_⟩
          simpa [parentChain, known] using rest

def Under (m : Model) (s p : StateModel) : Prop := p ∈ m.states ∧ s.parent = some p.name

theorem parentChain_isChain (n : Nat) (s : StateModel) :
    List.IsChain m.Under (s :: m.parentChain n s.parent) := by
  induction n generalizing s with
  | zero => exact .singleton s
  | succ n ih =>
      cases parent : s.parent with
      | none => exact .singleton s
      | some name =>
          cases known : m.state? name with
          | none => simp [parentChain, known]
          | some p =>
              have named : p.name = name := by simpa using List.find?_some known
              have under : m.Under s p := ⟨List.mem_of_find?_eq_some known, named ▸ parent⟩
              simpa [parentChain, known] using And.intro under (ih p)

theorem parentChain_pairwise (n : Nat) (s : StateModel) :
    (s :: m.parentChain n s.parent).Pairwise (Relation.TransGen m.Under) :=
  ((parentChain_isChain n s).imp fun _ _ under => Relation.TransGen.single under).pairwise

section Distinct

variable (distinct : (m.states.map StateModel.name).Nodup)
include distinct

theorem stateIndex?_of_mem {s : StateModel} (member : s ∈ m.states) :
    ∃ i, m.stateIndex? s.name = some i ∧ m.states[i]? = some s ∧ m.state? s.name = some s := by
  obtain ⟨i, found⟩ := Option.isSome_iff_exists.mp (stateIndex?_isSome member)
  obtain ⟨t, here, named, first⟩ := stateIndex?_eq_some found
  obtain rfl : t = s :=
    List.inj_on_of_nodup_map distinct (List.mem_of_getElem? here) member named
  exact ⟨i, found, here, first⟩

theorem inside_of_under {s a : StateModel} {i : Nat} (up : Relation.ReflTransGen m.Under s a)
    (here : m.states[i]? = some s) : ∃ k, m.states[k]? = some a ∧ m.hierarchy.Inside i k := by
  induction up with
  | refl => exact ⟨i, here, .refl⟩
  | tail _ under ih =>
      obtain ⟨k, there, inside⟩ := ih
      obtain ⟨j, found, place, _⟩ := stateIndex?_of_mem distinct under.1
      refine ⟨j, place, inside.tail ?_⟩
      rw [parent?_eq, there, Option.bind_some, under.2, Option.bind_some, found]

theorem mem_ancestors_iff {s a : StateModel} (member : s ∈ m.states) :
    a ∈ m.ancestors s.name ↔ Relation.TransGen m.Under s a := by
  obtain ⟨_, _, _, first⟩ := stateIndex?_of_mem distinct member
  rw [ancestors, first, Option.bind_some]
  constructor
  · intro found
    exact List.rel_of_pairwise_cons (parentChain_pairwise _ s) found
  · intro above
    obtain ⟨p, ⟨known, parent⟩, up⟩ := Relation.TransGen.head'_iff.mp above
    obtain ⟨j, found, here, _⟩ := stateIndex?_of_mem distinct known
    obtain ⟨k, there, inside⟩ := inside_of_under distinct up here
    -- in the table the bounded walk is known to come to every state above
    have climbed : k ∈ m.hierarchy.climb (m.states.length + 1) j :=
      hierarchy_size m ▸ Hierarchy.mem_ancestorsOrSelf.mpr inside
    have listed := List.mem_map_of_mem (f := (m.states[·]?)) climbed
    rw [← parentChain_places m _ found, there] at listed
    simpa [parent] using listed

theorem ancestors_isChain {s : StateModel} (member : s ∈ m.states) :
    List.IsChain m.Under (s :: m.ancestors s.name) := by
  obtain ⟨_, _, _, first⟩ := stateIndex?_of_mem distinct member
  rw [ancestors, first]
  exact parentChain_isChain _ s

theorem ancestors_nodup (acyclic : ∀ t, ¬Relation.TransGen m.Under t t) {s : StateModel}
    (member : s ∈ m.states) : (m.ancestors s.name).Nodup := by
  obtain ⟨_, _, _, first⟩ := stateIndex?_of_mem distinct member
  rw [ancestors, first]
  refine (parentChain_pairwise _ s).tail.imp fun {a b} above same => ?_
  exact acyclic b (same ▸ above)

end Distinct

end Model

/-- Walks up a table, also one with circles or entries beyond its end, miss no state above, and pass
at most one state more than the table has. The search by name ends in every model; where names are
distinct it finds just the ancestors of a state, each right behind the state it is the parent of,
and none twice unless parents run in a circle. -/
theorem ancestor_walks_exhaustive (h : Hierarchy) (m : Model) :
    (∀ s t, (h.isIn s t ↔ h.Inside s t) ∧
        (s ≠ t → (h.scope? s t = none ↔ ∀ x, ¬(h.Inside s x ∧ h.Inside t x)))) ∧
      (∀ leaf, (h.activePath leaf).length ≤ h.size + 1 ∧
        ∀ scope, (h.exitPath leaf scope).length ≤ h.size + 1) ∧
      (∀ state, ∃ n ≤ m.states.length + 1,
        m.Search n [] ((m.state? state).bind StateModel.parent) (m.ancestors state)) ∧
      ((m.states.map StateModel.name).Nodup → ∀ s ∈ m.states,
        (∀ a, a ∈ m.ancestors s.name ↔ Relation.TransGen m.Under s a) ∧
          List.IsChain m.Under (s :: m.ancestors s.name) ∧
          ((∀ t, ¬Relation.TransGen m.Under t t) → (m.ancestors s.name).Nodup)) := by
  refine ⟨fun s t => ⟨Hierarchy.isIn_iff, Hierarchy.scope?_eq_none_iff⟩, fun leaf => ⟨?_, ?_⟩,
    fun state => ?_, fun distinct s member => ⟨fun a => ?_, ?_, fun acyclic => ?_⟩⟩
  · rw [Hierarchy.activePath, List.length_reverse]
    exact h.climb_length _ leaf
  · exact h.exitPath_length leaf
  · exact Model.search_ends _ [] _ (Nat.zero_add _)
  · exact Model.mem_ancestors_iff distinct member
  · exact Model.ancestors_isChain distinct member
  · exact Model.ancestors_nodup distinct acyclic member

/-- All states lie on one way up, and the outermost of them names a parent beyond the table. -/
def spiral : Hierarchy := ⟨[some 9, some 0, some 1, some 2], [none, none, none, none], []⟩

def dimmed : StateModel := { name := "Dimmed", parent := some "On" }

def nightly : StateModel := { name := "Nightly", parent := some "Dimmed" }

def nightLamp : Model where
  name := "NightLamp"
  states := [{ name := "Off" }, nightly, dimmed, { name := "On" }]

def nightDepth (s : StateModel) : Nat :=
  match s.parent with
  | none => 0
  | some "On" => 1
  | some "Dimmed" => 2
  | some _ => 3

theorem nightLamp_acyclic (s : StateModel) : ¬Relation.TransGen nightLamp.Under s s := by
  refine Hierarchy.no_circle_of_rank nightDepth (fun s p ⟨member, parent⟩ => ?_) s
  simp only [nightLamp, List.mem_cons, List.not_mem_nil, or_false] at member
  rcases member with rfl | rfl | rfl | rfl <;> simp [nightDepth, parent, nightly, dimmed]

theorem nightLamp_levels :
    (spiral.activePath 3).length = spiral.size + 1 ∧ spiral.Inside 3 9 ∧
      (∀ x, ¬(spiral.Inside 3 x ∧ spiral.Inside 7 x)) ∧
      (nightLamp.states.map StateModel.name).Nodup ∧
      (∀ a, Relation.TransGen nightLamp.Under nightly a ↔ a = dimmed ∨ a = { name := "On" }) ∧
      (nightLamp.ancestors "Nightly").Nodup := by
  obtain ⟨walks, _, _, named⟩ := ancestor_walks_exhaustive spiral nightLamp
  have distinct : (nightLamp.states.map StateModel.name).Nodup := by decide
  obtain ⟨above, _, once⟩ := named distinct nightly (by simp [nightLamp])
  have found : nightLamp.ancestors nightly.name = [dimmed, { name := "On" }] := rfl
  refine ⟨rfl, (walks 3 9).1.mp (by decide), ((walks 3 7).2 (by decide)).mp (by decide), distinct,
    fun a => ?_, once nightLamp_acyclic⟩
  rw [← above a, found]
  simp

end Statewright
