import Statewright.Emit.Nesting

/-!
# Firing

The constructor, the methods that fire a trigger and the function that tries its candidates.
-/

namespace Statewright.Emission

open Emit Grammar

variable (e : Emission)

/-! ## Fields and constructor -/

def fields : List (String × Code) :=
  [(Names.stateField, e.stateType)] ++
    (if e.isHierarchical then [(Names.historyField, support ["HistoryTracker"])] else []) ++
    (if e.isObserved then
      [(Names.extensionsField,
        applied (support ["ExtensionRunner"]) [e.stateType, e.triggerType])]
    else [])

def fieldValues : List Code :=
  (if e.isHierarchical then
    [code [[Names.historyField, ':'], support ["HistoryTracker", "new"],
      parens [count e.model.states.length]]]
  else []) ++
  if e.isObserved then
    [code [[Names.extensionsField, ':'], support ["ExtensionRunner", "new"], parens []]]
  else []

/-- The name of the constructor's first parameter, which no field of the user has. -/
def initialParameter : String :=
  if e.model.fields.any (·.1 == "initial_state") then "__fsm_initial_state" else "initial_state"

def construction : Code :=
  word "Self" ++ braces (code
    [e.model.fields.flatMap fun (name, _) => [.ident name, ','],
     [Names.stateField, ':', e.initialParameter, ','],
     commaTerminated e.fieldValues])

def settle : Code :=
  let state : Code := ["machine", '.', Names.stateField]
  code
    [state, ['=', Names.statesTable],
     brackets (methodCall [Names.hierarchyTable] "resolve_entry"
       (code [indexOf state, [',', '&', "machine", '.', Names.historyField]])),
     [';']]

def constructor : Code :=
  let parameters := e.model.fields.flatMap fun (name, ty) => code [[',', name, ':'], ty.code]
  let body :=
    if e.isHierarchical then
      code [["let", "mut", "machine", '='], e.construction, [';'], settle, ["machine"]]
    else e.construction
  code
    [docs ["Creates the machine in `initial_state` without running any entry callback."],
     ["pub", "fn", "new"],
     parens (code [[e.initialParameter, ':'], e.stateType, parameters]), arrow, ["Self"],
     braces body]

def accessors : Code :=
  code
    [docs ["The generation variant this machine was built with."],
     ["pub", "const", "VARIANT", ':'], support ["GenerationVariant"], ['='],
     support ["GenerationVariant", e.variant.name], [';'],
     ["pub", "fn", "current_state"], parens ['&', "self"], arrow, e.stateType,
     braces (self Names.stateField)]

/-! ## Firing -/

def tryFire : Code :=
  code
    [docs
       ["Fires `trigger` and reports whether a transition was taken.", "",
        "A rejected trigger leaves the state unchanged."],
     ["pub"], e.asyncWord, ["fn", "try_fire"],
     parens (code
       [['&', "mut", "self", ',', "trigger", ':'], e.triggerType, e.tokenParameter]),
     arrow, ["bool"],
     braces (code
       [methodCall ["self"] Names.dispatch (code [["trigger"], e.forwarded nothing]), e.await])]

def fireBody (attempt rejection : Code) : Code :=
  code
    [["let", "state", '='], self Names.stateField, [';', "if"], attempt, e.await,
     braces (result "Ok" ++ parens (parens [])), ["else"],
     braces (result "Err" ++ parens rejection)]

def fire : Code :=
  let attempt := methodCall ["self"] "try_fire" (code [["trigger"], e.tokenArgument])
  let rejection := support ["InvalidTransition", "new"] ++ parens ["state", ',', "trigger"]
  code
    [docs ["Like [`Self::try_fire`], but a rejected trigger is an error."],
     ["pub"], e.asyncWord, ["fn", "fire"],
     parens (code
       [['&', "mut", "self", ',', "trigger", ':'], e.triggerType, e.tokenParameter]),
     arrow, e.fireResult, braces (e.fireBody attempt rejection)]

/-! ## Payload filter -/

def payloadArm (arm : Option String × Ty) : Code :=
  let pattern := (arm.1.map e.triggerPath).getD ["_"]
  code
    [pattern, fatArrow, ["payload", '.', "is"], colons, ['<'], arm.2.code, ['>'], parens [], [',']]

def payloadFilter : Code :=
  if e.payload = .multi then
    let otherwise :=
      if e.model.defaultPayload.isSome then [] else code [["_"], fatArrow, ["true", ',']]
    let body := code
      [["let", "accepted", '=', "match", "trigger"],
       braces (e.model.payloadArms.flatMap e.payloadArm ++ otherwise),
       [';', "if", '!', "accepted"], braces ["return", "false", ';']]
    code [["if", "let"], something ["payload"], ['=', "payload"], braces body]
  else []

/-! ## Candidates -/

def flatTransfer (t : Transition) : Code :=
  code
    [e.effect? ((e.model.state? t.source).bind StateModel.onExit) e.reject,
     e.effect? t.action e.reject,
     e.effect? ((e.model.state? t.target).bind StateModel.onEntry) e.reject,
     self Names.stateField, ['='], e.statePath t.target, [';']]

def transfer (t : Transition) : Code :=
  if t.internal then e.effect? t.action e.reject
  else if e.isHierarchical then e.hierarchicalTransfer t
  else e.flatTransfer t

/-- The guard of a candidate; `denied` runs if it refuses. -/
def guardCheck (t : Transition) (denied : Code) : Code :=
  match t.guard with
  | some g =>
    code
      [e.tellEvaluation g, ["let", "__allowed", ':', "bool", '='], e.guardExpr g, [';'],
       e.tellEvaluated g, ["if", '!', "__allowed"], denied]
  | none => []

def attempt (state : String) (t : Transition) (denied : Code) : Code :=
  code
    [e.tellBefore (e.statePath state) (e.triggerPath t.trigger) (e.statePath t.target),
     e.guardCheck t denied, e.transfer t, e.tellAfter true]

/-- The candidates one after the other; the last one rejects if its guard refuses. -/
def attempts (state : String) : List Transition → Code
  | [] => word "false"
  | [t] => e.attempt state t e.reject ++ word "true"
  | t :: rest =>
    code
      [[Names.candidateLabel, ':'],
       braces (code [e.attempt state t e.passOn, ["return", "true", ';']]),
       attempts state rest]

/-- The arms for the states that handle some trigger; `body` gives the arm of a trigger. -/
def stateArms (body : String → List Transition → Code) : Code :=
  e.model.states.flatMap fun s =>
    match e.model.candidates s.name with
    | [] => []
    | groups =>
      let arms := groups.flatMap fun (trigger, candidates) =>
        code [e.triggerPath trigger, fatArrow, body s.name candidates]
      code
        [e.statePath s.name, fatArrow, ["match", "trigger"],
         braces (code [arms, ["_"], fatArrow, ["false", ',']]), [',']]

def matchState (arms : Code) : Code :=
  code
    [e.payloadBinding, e.payloadFilter, ["match"], self Names.stateField,
     braces (code [arms, ["_"], fatArrow, ["false", ',']])]

def dispatch : Code :=
  let arms := e.stateArms fun state candidates => braces (e.attempts state (consulted candidates))
  code
    [allow ["unused_variables", "unreachable_patterns"], e.asyncWord, ["fn", Names.dispatch],
     parens (code
       [['&', "mut", "self", ',', "trigger", ':'], e.triggerType, e.payloadParameter,
        e.tokenParameter]),
     arrow, ["bool"], braces (e.matchState arms)]

/-! ## The trait of all machines -/

def delegate (name : String) (parameters : Code) (output : Code) (arguments : Code) : Code :=
  code
    [e.asyncWord, ["fn", name], parens parameters, arrow, output,
     braces (code [pathOf ["Self", name], parens (word "self" ++ arguments), e.await])]

/-- Parameters of a trait method; with a trailing comma if it is written over several lines. -/
def traitParameters (front : Code) (token : Bool) : Code :=
  if e.isAsync then
    code [front, [',', "cancel", ':'], tokenType, if token then [','] else []]
  else front

def coreTraitItems : Code :=
  let front : Code := code [['&', "mut", "self", ',', "trigger", ':'], e.triggerType]
  let arguments := code [[',', "trigger"], e.tokenArgument]
  code
    [["type", "State", '='], e.stateType, [';', "type", "Trigger", '='], e.triggerType, [';'],
     ["fn", "current_state"], parens ['&', "self"], arrow, e.stateType,
     braces (pathOf ["Self", "current_state"] ++ parens ["self"]),
     e.delegate "try_fire" (e.traitParameters front false) ["bool"] arguments,
     e.delegate "fire" (e.traitParameters front true) e.fireResult arguments]

end Statewright.Emission
