import Statewright.Emit.Call

/-!
# Nesting

The tables of the hierarchy, the functions that run the callbacks of a state by its place, and the
walk from leaf to leaf that a transition makes.
-/

namespace Statewright.Emission

open Emit

variable (e : Emission)

def table (entries : List Code) : Code := symbol '&' ++ brackets (commaSeparated entries)

def placeOrNothing : Option Nat → Code
  | some i => something [place i]
  | none => nothing

def hierarchyTable : Code :=
  let h := e.model.hierarchy
  let arguments :=
    [table (h.parents.map placeOrNothing), table (h.entryChildren.map placeOrNothing),
     table (h.history.map fun mode => support ["HistoryMode", mode.name])]
  code
    [["static", Names.hierarchyTable, ':'], support ["Hierarchy"], ['='],
     support ["Hierarchy", "new"], parens (commaTerminated arguments), [';']]

def statesTable : Code :=
  let paths := e.model.states.map fun s => e.statePath s.name
  code
    [["const", Names.statesTable, ':'],
     brackets (code [e.stateType, [';', count e.model.states.length]]), ['='],
     brackets (commaSeparated paths), [';']]

def indexFunction : Code :=
  let arms := e.model.states.zipIdx.flatMap fun (s, i) =>
    code [e.statePath s.name, fatArrow, [place i, ',']]
  code
    [["fn", Names.indexFunction], parens (code [["state", ':'], e.stateType]), arrow, ["usize"],
     braces (code [["match", "state"], braces arms])]

def hierarchyItems : Code := code [e.hierarchyTable, e.statesTable, e.indexFunction]

def indexOf (state : Code) : Code := code [[Names.indexFunction], parens state]

def currentIndex : Code := indexOf (self Names.stateField)

def introspection : Code :=
  let table : Code := [Names.hierarchyTable]
  let isIn := code
    [docs ["Whether `state` is the current state or one of its ancestors."],
     ["pub", "fn", "is_in"], parens (code [['&', "self", ',', "state", ':'], e.stateType]), arrow,
     ["bool"],
     braces (methodCall table "is_in" (commaSeparated [currentIndex, indexOf ["state"]]))]
  let activePath := code
    [docs ["Active states from the outermost composite down to the current leaf."],
     ["pub", "fn", "active_path"], parens ['&', "self"], arrow, applied (vector []) [e.stateType],
     braces (code
       [methodCall table "active_path" currentIndex, ['.', "into_iter"], parens [], ['.', "map"],
        parens (code [['|', "state", '|', Names.statesTable], brackets ["state"]]),
        ['.', "collect"], parens []])]
  isIn ++ activePath

def walkFunction (name : String) (callbackOf : StateModel → Option Callback) : Code :=
  let onError := braces ["return", "false", ';']
  let arms := e.model.states.zipIdx.flatMap fun (s, i) =>
    match callbackOf s with
    | some c => code [[place i], fatArrow, braces (e.effect c onError)]
    | none => []
  code
    [allow ["unused_variables"], e.asyncWord, ["fn", name],
     parens (code
       [['&', "mut", "self", ',', "state", ':', "usize"], e.payloadParameter, e.tokenParameter]),
     arrow, ["bool"],
     braces (code
       [e.payloadBinding,
        ["match", "state"], braces (code [arms, ["_"], fatArrow, braces []]),
        ["true"]])]

def walkFunctions : Code :=
  if e.model.config.hasEntryExit then
    e.walkFunction Names.enter StateModel.onEntry ++ e.walkFunction Names.exit StateModel.onExit
  else []

def walkCall (name : String) : Code :=
  if e.model.config.hasEntryExit then
    code
      [["if", '!'], methodCall ["self"] name (word "__state" ++ e.forwarded ["payload"]),
       e.await, e.reject]
  else []

def hierarchicalTransfer (t : Transition) : Code :=
  let table : Code := [Names.hierarchyTable]
  let source : Code := [place (e.stateIndex t.source)]
  let target : Code := [place (e.stateIndex t.target)]
  code
    [["let", "__scope", '='],
     methodCall table "transition_scope" (commaSeparated [source, target]), [';'],
     ["for", "__state", "in"],
     methodCall table "exit_path" (commaSeparated [currentIndex, ["__scope"]]),
     braces (code
       [methodCall (self Names.historyField) "record_exit"
          (commaSeparated [symbol '&' ++ table, ["__state"]]), [';'],
        e.walkCall Names.exit]),
     e.effect? t.action e.reject,
     ["let", "__leaf", '='],
     methodCall table "resolve_entry"
       (commaSeparated [target, symbol '&' ++ self Names.historyField]), [';'],
     ["for", "__state", "in"],
     methodCall table "entry_path" (commaSeparated [["__scope"], ["__leaf"]]),
     braces (e.walkCall Names.enter),
     self Names.stateField, ['=', Names.statesTable], brackets ["__leaf"], [';']]

end Statewright.Emission
