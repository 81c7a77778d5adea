import Statewright.Finding

/-!
# Nested states

Rules on the parents that states declare: no cycles, no unknown parents, one way to enter each
composite state, and history only where it has an effect.
-/

namespace Statewright.Check

structure Nested where
  name : String
  parent : Option String := none
  initial : Bool := false
  history : HistoryMode := .none

def placeOf? (states : List Nested) (name : String) : Option Nat :=
  states.findIdx? (·.name == name)

def childrenOf (states : List Nested) (name : String) : List Nested :=
  states.filter (·.parent == some name)

def isComposite (states : List Nested) (name : String) : Bool := !(childrenOf states name).isEmpty

def parentPlace? (states : List Nested) (i : Nat) : Option Nat :=
  (states[i]?.bind Nested.parent).bind (placeOf? states)

/-- Follows parents from `current` for at most `n` places, as long as they are neither in `seen`
nor on the path. Returns the path and where it closes, if it does. -/
def follow (next : Nat → Option Nat) (seen : List Nat) :
    Nat → List Nat → Nat → List Nat × Option Nat
  | 0, path, _ => (path, none)
  | n + 1, path, current =>
    if seen.contains current then (path, none)
    else if path.contains current then (path, some current)
    else match next current with
      | some p => follow next seen n (path ++ [current]) p
      | none => (path ++ [current], none)

/-- The cycles found from each start in turn; a place seen from an earlier start ends a path. -/
def cyclesFrom (next : Nat → Option Nat) (size : Nat) : List Nat → List Nat → List (List Nat)
  | _, [] => []
  | seen, start :: starts =>
    let (path, closing) := follow next seen (size + 1) [] start
    let others := cyclesFrom next size (seen ++ path) starts
    match closing with
    | some place => path.dropWhile (· != place) :: others
    | none => others

def circularHierarchy (states : List Nested) : List Finding :=
  let places := List.range states.length
  (cyclesFrom (parentPlace? states) states.length [] places).filterMap fun cycle =>
    match cycle.filterMap fun i => states[i]?.map Nested.name with
    | first :: others => some (.circular first others)
    | [] => none

def orphanSubstates (states : List Nested) : List Finding :=
  states.filterMap fun s =>
    match s.parent with
    | some parent =>
      if (placeOf? states parent).isSome then none else some (.orphan s.name parent)
    | none => none

/-- Composite states with no way or several ways to pick the child entered first. -/
def compositeEntry (states : List Nested) : List Finding :=
  states.filterMap fun s =>
    if isComposite states s.name then
      match (childrenOf states s.name).filter (·.initial) with
      | [] => if s.history = .none then some (.noEntryChild s.name) else none
      | [_] => none
      | several => some (.severalInitial s.name (several.map Nested.name))
    else none

def historyOnLeaf (states : List Nested) : List Finding :=
  states.filterMap fun s =>
    if s.history ≠ .none && !isComposite states s.name then some (.idleHistory s.name) else none

/-- Transitions whose target is composite; `transitions` holds sources and targets. -/
def compositeTargets (states : List Nested) (transitions : List (String × String)) :
    List Finding :=
  transitions.filterMap fun (source, target) =>
    if isComposite states target then
      let history := ((placeOf? states target).bind (states[·]?)).map Nested.history
      some (.compositeTarget source target (history.getD .none))
    else none

end Statewright.Check
