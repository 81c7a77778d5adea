import Statewright.Callback.Shape
import Statewright.Finding

/-!
# Signatures of callbacks

Whether a method can be called in the role that a declaration gives it.
-/

namespace Statewright.Check

open Grammar

def receiverFindings (invalid : SignatureProblem → Finding) (role : Role) :
    Receiver → List Finding
  | .none | .owned => [invalid .receiver]
  | .exclusive => if role = .guard then [invalid .exclusiveGuard] else []
  | .shared => []

def returnFindings (invalid : SignatureProblem → Finding) (method : String) (role : Role) :
    ReturnClass → List Finding
  | .badGuardFuture => [.guardFuture method]
  | .detached => [.detached method role]
  | .unsupported => [invalid .returnType]
  | _ => []

def payloadFindings (invalid : SignatureProblem → Finding) (method : String) (role : Role)
    (expected : ExpectedPayload) (forced : Bool) (payload : PayloadParameter) : List Finding :=
  match payload.type? with
  | none => []
  | some found =>
    match expected with
    | .none =>
      if role = .guard then [.guardWithPayload method forced] else [invalid .payloadUnexpected]
    | .any =>
      match payload with
      | .invalid _ => [invalid (.payloadForm found)]
      | _ => []
    | .type ty =>
      match payload with
      | .invalid _ => [invalid (.payloadForm found)]
      | _ => if ty.same found then [] else [invalid (.payloadType found)]

/-- Findings on a callback; no shape means that there is no such method. -/
def callbackSignature (method : String) (role : Role) (shape : Option Shape)
    (expected : ExpectedPayload) (forced : Bool) : List Finding :=
  let invalid := Finding.signature method role expected
  match shape with
  | none => [invalid .methodMissing]
  | some s =>
    receiverFindings invalid role s.receiver ++ returnFindings invalid method role s.returns ++
      if s.extraParameters > 0 then [invalid (.tooMany (s.extraParameters + 1))]
      else payloadFindings invalid method role expected forced s.payload

def tokenParameter (method : String) (role : Role) (token : TokenParameter) (isAsync : Bool) :
    List Finding :=
  if token = .none || isAsync then [] else [.tokenInSyncMachine method role]

/-- An asynchronous callback in a machine that another one fixed as synchronous. The first such
conflict is also reported for the machine. -/
def modeConflict (method establishedBy : String) (isFirst : Bool) : List Finding :=
  (if isFirst then [.mixedModes establishedBy method] else []) ++
    [.asyncInSyncMachine method establishedBy]

end Statewright.Check
