import Statewright.Emit.WithPayload
import Statewright.Emit.Questions

/-!
# Emission

The code of a machine: the fields added to its struct, and one block with its tables, its methods
and the trait of all machines.
-/

namespace Statewright

open Emit

inductive Feature
  | core
  | singlePayload
  | multiPayload
  | queries
  | structural
  | hierarchy
  | extensions
  deriving DecidableEq, Repr

def Feature.name : Feature → String
  | core => "Core"
  | singlePayload => "SinglePayload"
  | multiPayload => "MultiPayload"
  | queries => "Queries"
  | structural => "Structural"
  | hierarchy => "Hierarchy"
  | extensions => "Extensions"

namespace Emission

variable (e : Emission)

def features : List Feature :=
  [.core] ++
    (match e.payload with
      | .single => [.singlePayload]
      | .multi => [.multiPayload]
      | .none => []) ++
    [.queries] ++
    (if e.model.config.structuralApi then [.structural] else []) ++
    (if e.isHierarchical then [.hierarchy] else []) ++
    if e.isObserved then [.extensions] else []

def addExtension : Code :=
  let bound := applied (support ["StateMachineExtension"]) [e.stateType, e.triggerType]
  code
    [docs ["Registers an extension. Extensions run in registration order."],
     ["pub", "fn", "add_extension"],
     parens (code
       [['&', "mut", "self", ',', "extension", ':', "impl"], bound,
        ['+', .lifetime "'static", ',']]),
     braces (code [methodCall (self Names.extensionsField) "push" ["extension"], [';']])]

def methods : Feature → Code
  | .core => code [e.constructor, e.accessors, e.tryFire, e.fire, e.dispatch]
  | .singlePayload => e.singlePayloadMethods
  | .multiPayload => e.multiPayloadMethods
  | .queries => code [e.query, e.canFire, e.permittedTriggers]
  | .structural => e.structuralMethods
  | .hierarchy => e.introspection ++ e.walkFunctions
  | .extensions => e.addExtension

def machineTrait : Code :=
  support [if e.isAsync then "AsyncStateMachine" else "StateMachine"]

def items : Code :=
  let g := e.model.generics
  let owner := code [[e.model.name], g.arguments, g.predicateCode]
  let body := code
    [if e.isHierarchical then e.hierarchyItems else [],
     ["impl"], g.headers, owner, braces (e.features.flatMap e.methods),
     ["impl"], g.headers, e.machineTrait, ["for"], owner,
     braces (e.coreTraitItems ++ e.queryTraitItems)]
  code [["const", "_", ':'], parens [], ['='], braces body, [';']]

end Emission

/-- The machine to emit for a model; a forced variant must fit. -/
def Model.emission (m : Model) : Except (List Finding) Emission := do
  let variant ← m.select
  return { model := m, variant, payload := Variant.emittedPayload m.payloadKind variant }

end Statewright
