import Statewright.Emit.Firing

/-!
# Methods with a payload

The methods of machines that carry payloads: for one type, or for any type at each call.
-/

namespace Statewright.Emission

open Emit

variable (e : Emission)

def givenPayload : Code := something (code [["payload", "as", '&'], anyPayload])

def payloadParameters (receiver : Code) (ty : Code) : Code :=
  code
    [receiver, [',', "trigger", ':'], e.triggerType, [',', "payload", ':', '&'], ty,
     e.tokenParameter]

def payloadMethods (params ty : Code) : Code :=
  let exclusive : Code := ['&', "mut", "self"]
  let forwarded := code [["trigger"], e.forwarded givenPayload]
  let attempt :=
    methodCall ["self"] "try_fire_with" (code [["trigger", ',', "payload"], e.tokenArgument])
  let rejection := code
    [support ["InvalidTransition", "with_payload"], colons, ['<'], ty, ['>'],
     parens ["state", ',', "trigger"], [',']]
  code
    [docs
       ["Fires `trigger` carrying `payload`.", "",
        "Callbacks receive the payload through a `dyn Any` downcast, so its",
        "type must be `Send + Sync + 'static`."],
     ["pub"], e.asyncWord, ["fn", "try_fire_with"], params,
     parens (e.payloadParameters exclusive ty), arrow, ["bool"],
     braces (methodCall ["self"] Names.dispatch forwarded ++ e.await),
     ["pub"], e.asyncWord, ["fn", "fire_with"], params,
     parens (e.payloadParameters exclusive ty), arrow, e.fireResult,
     braces (e.fireBody attempt rejection),
     docs ["Whether `trigger` carrying `payload` would currently be taken."],
     ["pub"], e.asyncWord, ["fn", "can_fire_with"], params,
     parens (e.payloadParameters ['&', "self"] ty), arrow, ["bool"],
     braces (methodCall ["self"] Names.query forwarded ++ e.await)]

def singlePayloadMethods : Code :=
  match e.model.defaultPayload with
  | some ty => e.payloadMethods [] ty.code
  | none => []

def multiPayloadMethods : Code :=
  let bounds := code
    [['<', "P", ':'], absolutePath ["core", "any", "Any"], ['+'],
     absolutePath ["core", "marker", "Send"], ['+'], absolutePath ["core", "marker", "Sync"],
     ['>']]
  e.payloadMethods bounds ["P"]

end Statewright.Emission
