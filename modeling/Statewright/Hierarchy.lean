/-!
# Hierarchies of states

States are numbered in the order of their declaration. A table gives each state its parent, the
child entered first and a history mode; a history remembers for each state the child it was last
left through.
-/

namespace Statewright

inductive HistoryMode
  | none
  | shallow
  | deep
  deriving DecidableEq, Repr, Inhabited

namespace HistoryMode

def name : HistoryMode → String
  | none => "None"
  | shallow => "Shallow"
  | deep => "Deep"

def all : List HistoryMode := [none, shallow, deep]

def ofName? (s : String) : Option HistoryMode := all.find? (·.name == s)

/-- The mode a declaration names, whatever the case of its letters. -/
def ofText? (s : String) : Option HistoryMode :=
  all.find? fun m => m.name.toList.map Char.toLower == s.toList.map Char.toLower

end HistoryMode

structure Hierarchy where
  parents : List (Option Nat)
  entryChildren : List (Option Nat)
  history : List HistoryMode

structure History where
  slots : List (Option Nat) := []
  deriving DecidableEq, Repr

namespace Hierarchy

variable (h : Hierarchy)

def size : Nat := h.parents.length

def parent? (state : Nat) : Option Nat := h.parents[state]?.join

def entryChild? (state : Nat) : Option Nat := h.entryChildren[state]?.join

def mode (state : Nat) : HistoryMode := h.history[state]?.getD .none

def isComposite (state : Nat) : Bool := (h.entryChild? state).isSome

def climb : Nat → Nat → List Nat
  | 0, _ => []
  | n + 1, state =>
    state :: match h.parent? state with
      | some p => climb n p
      | none => []

/-- A state and its ancestors, innermost first; a circular table yields one state too many. -/
def ancestorsOrSelf (state : Nat) : List Nat := h.climb (h.size + 1) state

def isIn (current target : Nat) : Bool := (h.ancestorsOrSelf current).contains target

def activePath (leaf : Nat) : List Nat := (h.ancestorsOrSelf leaf).reverse

/-- The innermost state that a transition does not leave: the innermost common one, or the parent
if source and target agree. -/
def scope? (source target : Nat) : Option Nat :=
  if source = target then h.parent? source
  else (h.ancestorsOrSelf source).find? (h.isIn target)

def exitPath (leaf : Nat) (scope : Option Nat) : List Nat :=
  (h.ancestorsOrSelf leaf).takeWhile fun s => some s != scope

def entryPath (scope : Option Nat) (leaf : Nat) : List Nat := (h.exitPath leaf scope).reverse

end Hierarchy

namespace History

def ofSize (n : Nat) : History := ⟨List.replicate n none⟩

def lastActive? (past : History) (state : Nat) : Option Nat := past.slots[state]?.join

def record (past : History) (h : Hierarchy) (child : Nat) : History :=
  match h.parent? child with
  | some p => ⟨past.slots.set p (some child)⟩
  | none => past

def nextEntry (past : History) (mode : HistoryMode) (state initial : Nat) : Nat :=
  if mode = .none then initial else (past.lastActive? state).getD initial

def clear (past : History) : History := ⟨past.slots.map fun _ => none⟩

end History

namespace Hierarchy

variable (h : Hierarchy)

def modeUnder (deep : Bool) (state : Nat) : HistoryMode := if deep then .deep else h.mode state

def descend (past : History) : Nat → Bool → Nat → Nat
  | 0, _, state => state
  | n + 1, deep, state =>
    match h.entryChild? state with
    | some initial =>
      let mode := h.modeUnder deep state
      descend past n (mode = .deep) (past.nextEntry mode state initial)
    | none => state

/-- The leaf that entering a state leads to. A walk longer than twice the table would be at the
same state in the same mode again. -/
def resolveEntry (past : History) (state : Nat) : Nat :=
  h.descend past (2 * h.entryChildren.length + 1) false state

structure Move where
  scope : Option Nat
  exits : List Nat
  entries : List Nat
  leaf : Nat

def move (past : History) (leaf source target : Nat) : Move × History :=
  let scope := h.scope? source target
  let exits := h.exitPath leaf scope
  let after := exits.foldl (fun p s => p.record h s) past
  let entered := h.resolveEntry after target
  (⟨scope, exits, h.entryPath scope entered, entered⟩, after)

end Hierarchy

end Statewright
