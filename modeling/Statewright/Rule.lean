/-!
# Rules

Every finding about a machine is filed under one rule of a fixed catalog. The rule gives it an
identifier, a category and the severity it has by default.
-/

namespace Statewright

inductive Severity
  | error
  | warning
  | info
  deriving DecidableEq, Repr

namespace Severity

def name : Severity → String
  | error => "error"
  | warning => "warning"
  | info => "info"

def all : List Severity := [error, warning, info]

def ofName? (s : String) : Option Severity := all.find? (·.name == s)

end Severity

inductive Rule
  | duplicateTransition
  | unreachableState
  | invalidMethodSignature
  | missingDeclaration
  | typesAreNoEnums
  | invalidEnumValue
  | missingPayloadType
  | conflictingPayload
  | invalidForcedVariant
  | guardWithPayload
  | mixedModes
  | invalidGuardFuture
  | asyncInSyncMachine
  | detachedCallback
  | circularHierarchy
  | orphanSubstate
  | missingEntryChild
  | multipleInitialSubstates
  | historyOnLeaf
  | compositeTarget
  deriving DecidableEq, Repr

namespace Rule

def all : List Rule :=
  [duplicateTransition, unreachableState, invalidMethodSignature, missingDeclaration,
   typesAreNoEnums, invalidEnumValue, missingPayloadType, conflictingPayload,
   invalidForcedVariant, guardWithPayload, mixedModes, invalidGuardFuture, asyncInSyncMachine,
   detachedCallback, circularHierarchy, orphanSubstate, missingEntryChild,
   multipleInitialSubstates, historyOnLeaf, compositeTarget]

def id : Rule → String
  | duplicateTransition => "FSM001"
  | unreachableState => "FSM002"
  | invalidMethodSignature => "FSM003"
  | missingDeclaration => "FSM004"
  | typesAreNoEnums => "FSM005"
  | invalidEnumValue => "FSM006"
  | missingPayloadType => "FSM007"
  | conflictingPayload => "FSM008"
  | invalidForcedVariant => "FSM009"
  | guardWithPayload => "FSM010"
  | mixedModes => "FSM011"
  | invalidGuardFuture => "FSM012"
  | asyncInSyncMachine => "FSM013"
  | detachedCallback => "FSM014"
  | circularHierarchy => "FSM100"
  | orphanSubstate => "FSM101"
  | missingEntryChild => "FSM102"
  | multipleInitialSubstates => "FSM103"
  | historyOnLeaf => "FSM104"
  | compositeTarget => "FSM105"

def ofId? (s : String) : Option Rule := all.find? (·.id == s)

def title : Rule → String
  | duplicateTransition => "Duplicate transition"
  | unreachableState => "Unreachable state"
  | invalidMethodSignature => "Invalid method signature"
  | missingDeclaration => "Missing or invalid state_machine attribute"
  | typesAreNoEnums => "State and trigger types must be enums"
  | invalidEnumValue => "Invalid enum value"
  | missingPayloadType => "Missing payload type"
  | conflictingPayload => "Conflicting payload configuration"
  | invalidForcedVariant => "Invalid forced variant configuration"
  | guardWithPayload => "Guard expects a payload the machine never carries"
  | mixedModes => "Mixed sync and async callbacks"
  | invalidGuardFuture => "Async guard must resolve to bool"
  | asyncInSyncMachine => "Async callback in a synchronous machine"
  | detachedCallback => "Fire-and-forget callback"
  | circularHierarchy => "Circular hierarchy"
  | orphanSubstate => "Orphan substate"
  | missingEntryChild => "Composite state without entry child"
  | multipleInitialSubstates => "Multiple initial substates"
  | historyOnLeaf => "History on a non-composite state"
  | compositeTarget => "Transition targets a composite state"

def category : Rule → String
  | mixedModes | invalidGuardFuture | asyncInSyncMachine | detachedCallback =>
    "FSM.Generator.Async"
  | circularHierarchy | orphanSubstate | missingEntryChild | multipleInitialSubstates
  | historyOnLeaf | compositeTarget => "FSM.Generator.HSM"
  | _ => "FSM.Generator"

def severity : Rule → Severity
  | duplicateTransition | unreachableState | missingDeclaration | detachedCallback
  | historyOnLeaf => .warning
  | compositeTarget => .info
  | _ => .error

end Rule

structure Outcome where
  rule : Rule
  severity : Severity
  message : String
  subject : Option String
  deriving DecidableEq, Repr

def Outcome.isError (o : Outcome) : Bool := o.severity = .error

end Statewright
