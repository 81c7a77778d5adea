import Statewright.Finding

/-!
# Declarations of a machine

Rules on single declarations: transitions, enum references, payload types and forced variants.
-/

namespace Statewright.Check

def duplicateTransition (source trigger : String) (registered : Bool) : List Finding :=
  if registered then [.duplicateTransition source trigger] else []

def enumValue (value enum : String) (resolved : Bool) : List Finding :=
  if resolved then [] else [.unknownMember value enum]

def enumTypes (state trigger : String) (stateIsEnum triggerIsEnum : Bool) : List Finding :=
  if stateIsEnum && triggerIsEnum then [] else [.notEnums state trigger]

def payloadRedeclaration (trigger : Option String) (existing declared : String)
    (onMethod : Option String) : List Finding :=
  if existing == declared then []
  else match onMethod with
    | some method => [.payloadConflictOnMethod method trigger existing declared]
    | none => [.payloadConflict trigger existing declared]

def forcedVariant (forced : Variant) (f : Features) : List Finding :=
  let hasPayload := f.payload ≠ .none
  let conflict (inUse : Bool) (feature : ForcedFeature) : List Finding :=
    if inUse then [.forcedConflict forced feature] else []
  let missing : List Finding := if hasPayload then [] else [.forcedWithoutPayload forced]
  match forced with
  | .pure =>
    conflict hasPayload .payload ++ conflict f.extensions .extensions ++
      conflict f.entryExit .entryExit
  | .basic => conflict hasPayload .payload ++ conflict f.extensions .extensions
  | .withExtensions => conflict hasPayload .payload
  | .withPayload =>
    missing ++ (if f.payload = .multi then [.forcedSinglePayload f.triggerPayloads] else []) ++
      conflict f.extensions .extensions
  | .withMultiPayload => missing ++ conflict f.extensions .extensions
  | .full => missing ++ (if f.extensions then [] else [.fullWithoutExtensions])

end Statewright.Check
