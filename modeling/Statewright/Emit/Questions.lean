import Statewright.Emit.Firing

/-!
# Questions

Whether a trigger would be taken, and which triggers would be. Both ask guards and call nothing
else.
-/

namespace Statewright.Emission

open Emit

variable (e : Emission)

def allowedBy (t : Transition) : Code :=
  match t.guard with
  | some g => e.guardExpr g
  | none => word "true"

def disjunction : List Code → Code
  | [] => word "false"
  | [c] => c
  | c :: rest => code [c, ['|', '|'], disjunction rest]

def anyAllowed (candidates : List Transition) : Code :=
  disjunction ((consulted candidates).map e.allowedBy)

def query : Code :=
  let arms := e.stateArms fun _ candidates => e.anyAllowed candidates ++ symbol ','
  code
    [allow ["unused_variables", "unreachable_patterns"], e.asyncWord, ["fn", Names.query],
     parens (code
       [['&', "self", ',', "trigger", ':'], e.triggerType, e.payloadParameter, e.tokenParameter]),
     arrow, ["bool"], braces (e.matchState arms)]

def canFire : Code :=
  code
    [docs
       ["Whether `trigger` would currently be taken. Guards are evaluated",
        "without a payload; no callback other than guards runs."],
     ["pub"], e.asyncWord, ["fn", "can_fire"],
     parens (code [['&', "self", ',', "trigger", ':'], e.triggerType, e.tokenParameter]),
     arrow, ["bool"],
     braces (methodCall ["self"] Names.query (code [["trigger"], e.forwarded nothing]) ++
       e.await)]

/-! ## Permitted triggers -/

def tableArm (pattern : Code) (name : String) (entries : List Code) : Code :=
  code
    [pattern, fatArrow,
     braces (code
       [["const", name, ':', '&'], brackets e.triggerType, ['=', '&'],
        brackets (commaSeparated entries), [';', name, '.', "to_vec"], parens []])]

def pushPermitted (state trigger : String) : Code :=
  let candidates := e.model.candidatesOn state trigger
  let push := code [["permitted", '.', "push"], parens (e.triggerPath trigger), [';']]
  if anyUnguarded candidates then push
  else code [["if"], e.anyAllowed candidates, braces push]

def permittedArm (state : String) : Code :=
  let triggers := e.model.sortedTriggers state
  if triggers.isEmpty then []
  else if triggers.all fun t => anyUnguarded (e.model.candidatesOn state t) then
    e.tableArm (e.statePath state) ("__PERMITTED_" ++ Text.withoutMark state)
      (triggers.map e.triggerPath)
  else
    code
      [e.statePath state, fatArrow,
       braces (code
         [["let", "mut", "permitted", '='], vector ["with_capacity"],
          parens [count triggers.length], [';'],
          triggers.flatMap (e.pushPermitted state), ["permitted"]])]

def triggerList : Code := applied (vector []) [e.triggerType]

def permittedTriggers : Code :=
  let binding := if e.hasPayloadInScope then noPayloadBinding else []
  code
    [docs ["Triggers that would currently be taken, in declaration order."],
     allow ["unused_variables", "unreachable_patterns", "non_upper_case_globals"],
     ["pub"], e.asyncWord, ["fn", "permitted_triggers"],
     parens (code [['&', "self"], e.tokenParameter]), arrow, e.triggerList,
     braces (code
       [binding, ["match"], self Names.stateField,
        braces (code
          [e.model.states.flatMap fun s => e.permittedArm s.name,
           ["_"], fatArrow, vector ["new"], parens [], [',']])])]

def queryTraitItems : Code :=
  let front : Code := code [['&', "self", ',', "trigger", ':'], e.triggerType]
  code
    [e.delegate "can_fire" (e.traitParameters front false) ["bool"]
       (code [[',', "trigger"], e.tokenArgument]),
     e.delegate "permitted_triggers" (e.traitParameters ['&', "self"] true) e.triggerList
       e.tokenArgument]

/-! ## Declared triggers -/

def handling : List StateModel :=
  e.model.states.filter fun s => !(e.model.definedTriggers s.name).isEmpty

def definedPattern (state : String) : Code :=
  parens (code
    [e.statePath state, [','],
     punctuated (symbol '|') false ((e.model.definedTriggers state).map e.triggerPath)])

def definedTable (state : String) : Code :=
  e.tableArm (e.statePath state) ("__DEFINED_" ++ Text.withoutMark state)
    ((e.model.definedTriggers state).map e.triggerPath)

/-- The test of a state and a trigger against the patterns of all states. -/
def transitionTest : Code :=
  let patterns := e.handling.map fun s => e.definedPattern s.name
  if patterns.isEmpty then ["false"]
  else
    let current := parens (code [self Names.stateField, [',', "trigger"]])
    code
      [["matches", '!'],
       parens (code [current, [','], punctuated (symbol '|') false patterns])]

def structuralMethods : Code :=
  code
    [docs
       ["Whether a transition is declared for `trigger` in the current",
        "state, whatever its guard would say."],
     allow ["unused_variables"],
     ["pub", "fn", "has_transition"],
     parens (code [['&', "self", ',', "trigger", ':'], e.triggerType]), arrow, ["bool"],
     braces e.transitionTest,
     docs ["Every trigger declared for the current state, in declaration order."],
     allow ["unreachable_patterns", "non_upper_case_globals"],
     ["pub", "fn", "defined_triggers"], parens ['&', "self"], arrow, e.triggerList,
     braces (code
       [["match"], self Names.stateField,
        braces (code
          [e.handling.flatMap fun s => e.definedTable s.name,
           ["_"], fatArrow, vector ["new"], parens [], [',']])])]

end Statewright.Emission
