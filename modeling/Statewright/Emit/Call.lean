import Statewright.Emit.Basic

/-!
# Calls of callbacks

A guard is called as an expression that holds or not, anything else as a statement. A failure is
logged; of a guard it counts as a refusal, of anything else it ends the attempt.
-/

namespace Statewright.Emission

open Emit

variable (e : Emission)

def callArguments (c : Callback) : List Code :=
  (match c.payloadPass with
    | .present _ => [word "__payload"]
    | .maybe ty => [payloadAs ty]
    | .nothing => []) ++
  match c.token with
    | .owned => [absolutePath ["core", "clone", "Clone", "clone"] ++ parens ["cancel"]]
    | .borrowed => [word "cancel"]
    | .none => []

def call (c : Callback) : Code :=
  code
    [methodCall ["self"] c.name (commaSeparated (callArguments c)),
     if c.isAwaited e.isAsync then ['.', "await"] else []]

def logFailure (c : Callback) (message : String) : Code :=
  code
    [support ["__private", "tracing", "warn"], ['!'],
     parens (code
       [["machine", '=', textLiteral e.model.name, ',', "callback", '=', textLiteral c.name, ',',
         "error", '=', '?', "error", ',', textLiteral message]]),
     [';']]

def checkedGuard (c : Callback) (called : Code) : Code :=
  code
    [["match"], called,
     braces (code
       [result "Ok", parens ["allowed"], fatArrow, ["allowed", ','],
        result "Err", parens ["error"], fatArrow,
        braces (e.logFailure c "guard failed" ++ word "false")])]

/-- A guard as an expression; one that needs a payload refuses without it. -/
def guardExpr (c : Callback) : Code :=
  let called := e.call c
  let body := if c.fallible then e.checkedGuard c called else called
  match c.payloadPass with
  | .present ty =>
    code
      [["match"], payloadAs ty,
       braces (code
         [something ["__payload"], fatArrow, body, [','], nothing, fatArrow, ["false", ',']])]
  | _ => body

/-- A callback as a statement; `onError` runs behind a failure. One that needs a payload is
skipped without it. -/
def effect (c : Callback) (onError : Code) : Code :=
  let called := e.call c
  let body := match c.resultUse with
    | .dropped => code [absolutePath ["core", "mem", "drop"], parens called, [';']]
    | .inspected =>
      code
        [["if", "let"], result "Err", parens ["error"], ['='], called,
         braces (e.logFailure c "state machine callback failed" ++ onError)]
    | .ignored => called ++ symbol ';'
  match c.payloadPass with
  | .present ty =>
    code [["if", "let"], something ["__payload"], ['='], payloadAs ty, braces body]
  | _ => body

def effect? (c : Option Callback) (onError : Code) : Code :=
  match c with
  | some c => e.effect c onError
  | none => []

def tell (method : String) (details : Code) : Code :=
  if e.isObserved then
    methodCall (self Names.extensionsField) method (code [['&', "__context"], details]) ++
      symbol ';'
  else []

def tellBefore (source trigger target : Code) : Code :=
  if e.isObserved then
    code
      [["let", "__context", '='], support ["TransitionContext", "new"],
       parens (commaSeparated [source, trigger, target, e.observedPayload]), [';'],
       e.tell "before_transition" []]
  else []

def tellAfter (success : Bool) : Code :=
  e.tell "after_transition" [',', if success then "true" else "false"]

def tellEvaluation (guard : Callback) : Code :=
  e.tell "guard_evaluation" [',', textLiteral guard.name]

def tellEvaluated (guard : Callback) : Code :=
  e.tell "guard_evaluated" [',', textLiteral guard.name, ',', "__allowed"]

def passOn : Code := braces (code [e.tellAfter false, ["break", Names.candidateLabel, ';']])

def reject : Code := braces (code [e.tellAfter false, ["return", "false", ';']])

end Statewright.Emission
