import Statewright.Finding

/-!
# Reachable states

States that no path of edges leads to from the initial state. States are told apart by their
place in the list; an edge belongs to the first state of its name.
-/

namespace Statewright.Check

/-- Edges between places of a list of names; an edge with an unlisted end is dropped. -/
def indexedEdges (states : List String) (edges : List (String × String)) : List (Nat × Nat) :=
  edges.filterMap fun (source, target) =>
    match states.idxOf? source, states.idxOf? target with
    | some i, some j => some (i, j)
    | _, _ => none

def expand (edges : List (Nat × Nat)) (reached : List Nat) : List Nat :=
  edges.foldl (fun set (i, j) => if set.contains i && !set.contains j then j :: set else set)
    reached

def expandTimes (edges : List (Nat × Nat)) : Nat → List Nat → List Nat
  | 0, reached => reached
  | n + 1, reached => expandTimes edges n (expand edges reached)

/-- The places reached from `start`: each round but the last adds one of the `size` places. -/
def reachable (size : Nat) (edges : List (Nat × Nat)) (start : Nat) : List Nat :=
  expandTimes edges size [start]

def unreachableStates (states : List String) (initial : Option String)
    (edges : List (String × String)) : List Finding :=
  match initial.bind states.idxOf? with
  | some start =>
    let reached := reachable states.length (indexedEdges states edges) start
    states.zipIdx.filterMap fun (name, i) =>
      if reached.contains i then none else some (.unreachable name)
  | none => []

end Statewright.Check
