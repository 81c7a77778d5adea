import Statewright.Grammar.Item
import Statewright.Grammar.Parser.Path

/-!
# Parsing attributes and visibilities
-/

namespace Statewright.Grammar.Parser

def attributePath : Parser Path := do
  if ← keyword? "unsafe" then pure (.word "unsafe") else wordPath

def startOf (trees : List Tree) (otherwise : Position) : Position :=
  match exposed trees with
  | t :: _ => t.pos
  | [] => otherwise

variable (inner : Inner)

/-- The value behind `=` in an attribute, and where it starts. A literal that ends the whole
attribute is taken as one even if it is signed or stands in a hidden group. -/
def attributeValue : Parser (Expr × Position) := do
  let pos := startOf (← rest) .none
  let lone : Parser Literal := do
    if !(← seesLiteral) then failure
    let l ← literal
    if ← atEnd then pure l else failure
  match ← attempt lone with
  | some l => pure (.literal l, pos)
  | none =>
    if (← seesMark "#") && startsWithGroup .bracket (← look 1) then failure
    else pure (← inner.expr true, pos)

def attributeInput : Parser AttributeInput := do
  match ← look with
  | .group _ _ content :: _ =>
    let _ ← anyGroup
    pure (.list content)
  | _ =>
    if ← mark? "=" then
      let (e, pos) ← attributeValue inner
      pure (.value e pos)
    else pure .word

/-- An attribute; `front` takes the marks in front of its brackets. -/
def attributeBehind (front : Parser Unit) : Parser Attribute := do
  let pos := startOf (← rest) .none
  let ((path, input), code) ← withCode do
    front
    group .bracket do
      let path ← attributePath
      pure (path, ← attributeInput inner)
  pure ⟨pos, path, input, code⟩

def attribute? : Parser (Option Attribute) := do
  if ← seesMark "#" then pure (some (← attributeBehind inner (mark "#"))) else pure none

def outerAttributes : Parser (List Attribute) := do repeated (attribute? inner) (← fuel)

def innerAttributes : Parser (List Attribute) := do
  let next : Parser (Option Attribute) := do
    if (← seesMark "#") && (← seesMark "!" 1) then
      let front : Parser Unit := do
        mark "#"
        mark "!"
      pure (some (← attributeBehind inner front))
    else pure none
  repeated next (← fuel)

def skipAttributes : Parser Unit := do
  let _ ← outerAttributes inner

def block : Parser Unit := group .brace inner.statements

/-- A block that may open with attributes of its own; returns these. -/
def attributedBlock : Parser (List Attribute) := group .brace do
  let found ← innerAttributes inner
  inner.statements
  pure found

def opaqueBlock : Parser Unit := do
  let _ ← attributedBlock inner

def restriction : Parser Unit := do
  if ← keyword? "in" then
    let _ ← wordPath
  else
    match ← anyWord with
    | "crate" | "self" | "super" => pure ()
    | _ => failure

def restricts : List Tree → Bool
  | .group .paren _ content :: _ =>
    startsWithWord "in" content ||
      (content.length == 1 && ["crate", "self", "super"].any (startsWithWord · content))
  | _ => false

def visibility : Parser Bool := do
  if ← emptyHidden? then pure false
  else if ← keyword? "pub" then
    whenever (restricts (← look)) (group .paren restriction)
    pure true
  else pure false

end Statewright.Grammar.Parser
