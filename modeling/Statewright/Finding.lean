import Statewright.Callback
import Statewright.Hierarchy
import Statewright.Rule
import Statewright.Variant

/-!
# Findings

What can be wrong with a machine, by cause. The wording of each cause stands here and nowhere
else.
-/

namespace Statewright

open Grammar

inductive ExpectedPayload
  | none
  | any
  | type (ty : Ty)

inductive SignatureProblem
  | methodMissing
  | receiver
  | exclusiveGuard
  | returnType
  | tooMany (count : Nat)
  | payloadUnexpected
  | payloadForm (found : Ty)
  | payloadType (found : Ty)

inductive ForcedFeature
  | payload
  | extensions
  | entryExit
  deriving DecidableEq, Repr

inductive Finding
  | duplicateTransition (source trigger : String)
  | unreachable (state : String)
  | signature (method : String) (role : Role) (expected : ExpectedPayload)
      (problem : SignatureProblem)
  | tokenInSyncMachine (method : String) (role : Role)
  | undeclared (machine : String)
  | argumentMissing (machine argument : String)
  | declaredTwice (machine : String)
  | notExtensible (machine : String)
  | notEnums (state trigger : String)
  | unknownMember (value enum : String)
  | forcedWithoutPayload (forced : Variant)
  /-- A payload type declared again with another text; no trigger stands for the whole machine. -/
  | payloadConflict (trigger : Option String) (existing declared : String)
  | payloadConflictOnMethod (method : String) (trigger : Option String)
      (existing declared : String)
  | forcedSinglePayload (count : Nat)
  | forcedConflict (forced : Variant) (feature : ForcedFeature)
  | fullWithoutExtensions
  | guardWithPayload (method : String) (forced : Bool)
  | mixedModes (establishedBy method : String)
  | guardFuture (method : String)
  | asyncInSyncMachine (method establishedBy : String)
  | detached (method : String) (role : Role)
  | circular (first : String) (others : List String)
  | orphan (state parent : String)
  | noEntryChild (state : String)
  | severalInitial (state : String) (children : List String)
  | idleHistory (state : String)
  | compositeTarget (source target : String) (history : HistoryMode)

/-! ## Wording -/

def ExpectedPayload.parameterText : ExpectedPayload → String
  | none => ""
  | any => ", [&P]"
  | type ty => s!", [&" ++ ty.text ++ "]"

def expectedSignature (role : Role) (expected : ExpectedPayload) : String :=
  let receiver := if role = .guard then "&self" else "&mut self"
  let output := if role = .guard then " -> bool" else ""
  "fn(" ++ receiver ++ expected.parameterText ++ ")" ++ output

def SignatureProblem.detail : SignatureProblem → String
  | methodMissing => "method not found"
  | receiver => "must take &self or &mut self"
  | exclusiveGuard => "guards must take &self"
  | returnType => "unsupported return type"
  | tooMany count => "found " ++ toString count ++ " parameters"
  | payloadUnexpected => "must be parameterless"
  | payloadForm found => "payload must be taken as &P or Option<&P>, found " ++ found.text
  | payloadType found => "found parameter type: " ++ found.text

namespace ForcedFeature

def description : ForcedFeature → String
  | payload => "payload types"
  | extensions => "extensions"
  | entryExit => "on_entry/on_exit callbacks"

def remedy (forced : Variant) : ForcedFeature → String
  | payload =>
    if forced = .withExtensions then "Remove the payload declarations or use Full."
    else "Remove the payload declarations or use WithPayload, WithMultiPayload or Full."
  | extensions =>
    if forced.hasPayload then "Use Full instead."
    else "Remove `extensions = true` or use WithExtensions or Full."
  | entryExit => "Remove on_entry/on_exit or use Basic, WithExtensions or Full."

end ForcedFeature

namespace Finding

def scopeText : Option String → String
  | some trigger => "trigger '" ++ trigger ++ "'"
  | none => "the machine"

def resolutionText : HistoryMode → String
  | .none => "its initial substate"
  | _ => "its history, else its initial substate"

def rule : Finding → Rule
  | duplicateTransition _ _ => .duplicateTransition
  | unreachable _ => .unreachableState
  | signature _ _ _ _ | tokenInSyncMachine _ _ | payloadConflictOnMethod _ _ _ _ =>
    .invalidMethodSignature
  | undeclared _ | argumentMissing _ _ | declaredTwice _ | notExtensible _ => .missingDeclaration
  | notEnums _ _ => .typesAreNoEnums
  | unknownMember _ _ => .invalidEnumValue
  | forcedWithoutPayload _ => .missingPayloadType
  | payloadConflict _ _ _ | forcedSinglePayload _ => .conflictingPayload
  | forcedConflict _ _ | fullWithoutExtensions => .invalidForcedVariant
  | guardWithPayload _ _ => .guardWithPayload
  | mixedModes _ _ => .mixedModes
  | guardFuture _ => .invalidGuardFuture
  | asyncInSyncMachine _ _ => .asyncInSyncMachine
  | detached _ _ => .detachedCallback
  | circular _ _ => .circularHierarchy
  | orphan _ _ => .orphanSubstate
  | noEntryChild _ => .missingEntryChild
  | severalInitial _ _ => .multipleInitialSubstates
  | idleHistory _ => .historyOnLeaf
  | compositeTarget _ _ _ => .compositeTarget

def severity : Finding → Severity
  | guardWithPayload _ true => .warning
  | f => f.rule.severity

def subject : Finding → Option String
  | unreachable state | orphan state _ | noEntryChild state | severalInitial state _
  | idleHistory state | compositeTarget _ state _ | circular state _ => some state
  | asyncInSyncMachine method _ => some method
  | _ => none

def message : Finding → String
  | duplicateTransition source trigger =>
    "Duplicate transition from state '" ++ source ++ "' on trigger '" ++ trigger ++
      "'. Only the first one will be used by the generator."
  | unreachable state =>
    "State '" ++ state ++ "' might be unreachable based on defined transitions."
  | signature method role expected problem =>
    "Method '" ++ method ++ "' used as " ++ role.name ++
      " has an invalid signature. Expected: '" ++ expectedSignature role expected ++ "' (" ++
      problem.detail ++ ")."
  | tokenInSyncMachine method role =>
    "Method '" ++ method ++ "' used as " ++ role.name ++ " has an invalid signature. " ++
      "Expected: no CancellationToken parameter in a synchronous machine."
  | undeclared machine =>
    "Struct '" ++ machine ++ "' declares transitions or states but has no " ++
      "#[state_machine(state = .., trigger = ..)] attribute; no code is generated for it."
  | argumentMissing machine argument =>
    "#[state_machine] on '" ++ machine ++ "' is missing the '" ++ argument ++
      "' argument; no code is generated for it."
  | declaredTwice machine =>
    "Struct '" ++ machine ++
      "' has more than one #[state_machine] attribute; only the first is used."
  | notExtensible machine =>
    "State machine '" ++ machine ++ "' must be a struct with named fields or a unit struct so " ++
      "the generator can add its fields; no code is generated for it."
  | notEnums state trigger =>
    "State and Trigger types must be enums declared in the #[fsm] module. '" ++ state ++
      "' or '" ++ trigger ++ "' is not an enum."
  | unknownMember value enum =>
    "Invalid enum value '" ++ value ++ "' for enum type '" ++ enum ++
      "'. Use a valid enum member."
  | forcedWithoutPayload forced =>
    "Forced '" ++ forced.name ++ "' variant requires a payload type. Add `payload = ..` to " ++
      "#[state_machine] or a #[payload_type(..)] declaration."
  | payloadConflict trigger existing declared =>
    "Payload type '" ++ declared ++ "' conflicts with '" ++ existing ++
      "' already declared for " ++ scopeText trigger ++ "."
  | payloadConflictOnMethod method trigger existing declared =>
    "Method '" ++ method ++ "' declares payload type '" ++ declared ++ "' for " ++
      scopeText trigger ++ ", which already uses '" ++ existing ++ "'."
  | forcedSinglePayload count =>
    "Forced 'WithPayload' variant expects a single payload type but found " ++ toString count ++
      " trigger-specific types. Use WithMultiPayload or remove the trigger-specific declarations."
  | forcedConflict forced feature =>
    "Forced '" ++ forced.name ++ "' variant conflicts with " ++ feature.description ++ ". " ++
      feature.remedy forced
  | fullWithoutExtensions =>
    "Forced 'Full' variant requires extensions. Set `extensions = true` or use WithPayload or " ++
      "WithMultiPayload."
  | guardWithPayload method _ =>
    "Guard method '" ++ method ++
      "' expects a payload but the machine declares no payload type."
  | mixedModes establishedBy method =>
    "State machine mixes synchronous and asynchronous callbacks: '" ++ establishedBy ++
      "' is synchronous but '" ++ method ++
      "' is async. Make every callback async or none of them."
  | guardFuture method =>
    "Guard method '" ++ method ++ "' returns a future that does not resolve to bool. " ++
      "Async guards must return bool or Result<bool, E>."
  | asyncInSyncMachine method establishedBy =>
    "Async method '" ++ method ++
      "' cannot be used: the machine was fixed as synchronous by '" ++ establishedBy ++ "'."
  | detached method role =>
    "Method '" ++ method ++ "' used as " ++ role.name ++
      " returns a JoinHandle; the spawned work is detached and its outcome is never observed."
  | circular first others =>
    "Circular hierarchy detected: " ++ " -> ".intercalate (first :: others ++ [first]) ++ "."
  | orphan state parent =>
    "State '" ++ state ++ "' names parent '" ++ parent ++ "', which is not a declared state."
  | noEntryChild state =>
    "Composite state '" ++ state ++ "' has no initial substate and no history mode. " ++
      "Mark one child with `initial` or set `history`."
  | severalInitial state children =>
    "Composite state '" ++ state ++ "' has multiple initial substates: " ++
      ", ".intercalate children ++ "."
  | idleHistory state =>
    "State '" ++ state ++
      "' configures history but has no substates; the setting has no effect."
  | compositeTarget source target history =>
    "Transition from '" ++ source ++ "' targets composite state '" ++ target ++
      "'; entry resolves to " ++ resolutionText history ++ "."

def outcome (f : Finding) : Outcome := ⟨f.rule, f.severity, f.message, f.subject⟩

def isError (f : Finding) : Bool := f.severity = .error

end Finding

end Statewright
