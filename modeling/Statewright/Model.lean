import Statewright.Callback
import Statewright.Check.Declaration
import Statewright.Grammar.Generics
import Statewright.Hierarchy
import Statewright.Variant

/-!
# Models

The model of a machine is all that its code is emitted from: its states and triggers, its
transitions in the order of their declaration, its payload types and its callbacks.
-/

namespace Statewright

open Grammar

structure StateModel where
  name : String
  onEntry : Option Callback := none
  onExit : Option Callback := none
  parent : Option String := none
  initial : Bool := false
  history : HistoryMode := .none

/-- A transition. An internal one does not leave its state. -/
structure Transition where
  source : String
  trigger : String
  target : String
  internal : Bool := false
  guard : Option Callback := none
  action : Option Callback := none
  expectedPayload : Option Ty := none

structure Config where
  variant : Variant := .pure
  forced : Option Variant := none
  isAsync : Bool := false
  hasPayload : Bool := false
  hasEntryExit : Bool := false
  extensionsRequested : Bool := false
  continueOnCapturedContext : Bool := false
  structuralApi : Bool := false
  hierarchy : Bool := false

structure Model where
  name : String
  generics : Generics := {}
  module : Option String := none
  stateType : String := "State"
  triggerType : String := "Trigger"
  states : List StateModel := []
  triggers : List String := []
  transitions : List Transition := []
  defaultPayload : Option Ty := none
  triggerPayloads : List (String × Ty) := []
  fields : List (String × Ty) := []
  config : Config := {}

/-- Sorts by a key; entries with one key stay in their order. -/
def sortedOn {α : Type} (key : α → Nat) (entries : List α) : List α :=
  entries.mergeSort fun a b => key a ≤ key b

namespace Model

variable (m : Model)

def state? (name : String) : Option StateModel := m.states.find? (·.name == name)

def stateIndex? (name : String) : Option Nat := m.states.findIdx? (·.name == name)

/-! ## Payloads and features -/

def payloadKind : PayloadKind :=
  if !m.triggerPayloads.isEmpty then .multi
  else if m.defaultPayload.isSome then .single
  else .none

def features : Features :=
  { payload := m.payloadKind
    triggerPayloads := m.triggerPayloads.length
    entryExit := m.config.hasEntryExit
    extensions := m.config.extensionsRequested }

def payloadFor? (trigger : String) : Option Ty :=
  ((m.triggerPayloads.find? (·.1 == trigger)).map (·.2)).or m.defaultPayload

def payloadArms : List (Option String × Ty) :=
  m.triggerPayloads.map (fun (trigger, ty) => (some trigger, ty)) ++
    m.defaultPayload.toList.map fun ty => (none, ty)

/-- The variant to emit; a forced one must fit the features in use. -/
def select : Except (List Finding) Variant :=
  match m.config.forced with
  | none => .ok (Variant.select m.features)
  | some forced =>
    let findings := Check.forcedVariant forced m.features
    if findings.any Finding.isError then .error findings else .ok forced

/-! ## The tree of states -/

def childrenOf (state : String) : List StateModel := m.states.filter (·.parent == some state)

def isComposite (state : String) : Bool := !(m.childrenOf state).isEmpty

def parentChain : Nat → Option String → List StateModel
  | 0, _ => []
  | _ + 1, none => []
  | n + 1, some name =>
    match m.state? name with
    | some s => s :: parentChain n s.parent
    | none => []

def ancestors (state : String) : List StateModel :=
  m.parentChain (m.states.length + 1) ((m.state? state).bind StateModel.parent)

/-- The child entered first: the one marked so, else the first one. -/
def entryChild? (composite : String) : Option StateModel :=
  let children := m.childrenOf composite
  (children.find? (·.initial)).or children.head?

def parentTable : List (Option Nat) :=
  m.states.map fun s => s.parent.bind m.stateIndex?

def entryTable : List (Option Nat) :=
  m.states.map fun s => (m.entryChild? s.name).bind fun child => m.stateIndex? child.name

def hierarchy : Hierarchy :=
  { parents := m.parentTable
    entryChildren := m.entryTable
    history := m.states.map StateModel.history }

/-! ## Transitions -/

def transitionsFrom (state : String) : List Transition := m.transitions.filter (·.source == state)

def effectiveTransitions (state : String) : List Transition :=
  m.transitionsFrom state ++
    if m.config.hierarchy then
      (m.ancestors state).flatMap fun a => m.transitionsFrom a.name
    else []

def candidatesOn (state trigger : String) : List Transition :=
  (m.effectiveTransitions state).filter (·.trigger == trigger)

def handledTriggers (state : String) : List String :=
  ((m.effectiveTransitions state).map Transition.trigger).eraseDups

def triggerIndex? (trigger : String) : Option Nat := m.triggers.findIdx? (· == trigger)

/-- The triggers that a state handles, those that no enum declares last. -/
def sortedTriggers (state : String) : List String :=
  sortedOn (fun t => (m.triggerIndex? t).getD m.triggers.length) (m.handledTriggers state)

/-- The triggers that a state handles, those that no enum declares first. -/
def definedTriggers (state : String) : List String :=
  sortedOn (fun t => (m.triggerIndex? t).elim 0 (· + 1)) (m.handledTriggers state)

def candidates (state : String) : List (String × List Transition) :=
  (m.handledTriggers state).map fun t => (t, m.candidatesOn state t)

def callbacks : List Callback :=
  m.transitions.flatMap (fun t => t.guard.toList ++ t.action.toList) ++
    m.states.flatMap fun s => s.onEntry.toList ++ s.onExit.toList

end Model

/-- Candidates up to the first one without a guard; none behind it is ever tried. -/
def consulted : List Transition → List Transition
  | [] => []
  | t :: rest => if t.guard.isNone then [t] else t :: consulted rest

def anyUnguarded (candidates : List Transition) : Bool := candidates.any (·.guard.isNone)

end Statewright
