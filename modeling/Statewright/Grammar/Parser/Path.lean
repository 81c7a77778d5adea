import Statewright.Grammar.Parser.Inner

/-!
# Parsing paths
-/

namespace Statewright.Grammar

def Path.withArguments (p : Path) (arguments : Arguments) : Path :=
  .mk p.absolute
    (p.segments.dropLast ++ p.segments.getLast?.toList.map fun s => .mk s.ident arguments)

def Path.isPlain (p : Path) : Bool := p.segments.all fun s =>
  match s.arguments with
  | .none => true
  | _ => false

namespace Parser

def pathWord : Parser String := do
  let text ← anyWord
  if Text.isPlainIdent text || ["super", "self", "Self", "crate"].contains text then pure text
  else failure

def wordPath : Parser Path := do
  let absolute ← mark? "::"
  let next : Parser (Option Segment) := do
    if ← mark? "::" then pure (some (.mk (← pathWord) .none)) else pure none
  let first ← pathWord
  let others ← repeated next (← fuel)
  pure (.mk absolute (.mk first .none :: others))

variable (inner : Inner)

def angleArguments : Parser Arguments := emitting do
  let turbofish ← mark? "::"
  let (arguments, trailing) ← angleList inner.argument
  let found := Arguments.angle turbofish arguments trailing
  pure (found, found.code)

def rootWords : List String := ["super", "self", "crate", "try"]

def seesBehindColons (p : List Tree → Bool) : Parser Bool := do
  pure ((← seesMark "::") && p (← look 2))

/-- One segment. In an expression `<` opens arguments only behind `::`. -/
def segment (inExpr : Bool) : Parser Segment := do
  match ← seesWord? with
  | some text =>
    if rootWords.contains text then
      let _ ← step
      pure (.mk text .none)
    else
      let name ← if text == "Self" then anyWord else ident
      let plain := !inExpr && (← seesMark "<") && !(← seesMark "<=")
      if plain || (← seesBehindColons (startsWithMark "<")) then
        pure (.mk name (← angleArguments inner))
      else pure (.mk name .none)
  | none => failure

def moreSegments (inExpr : Bool) : Parser (List Segment) := do
  let next : Parser (Option Segment) := do
    if (← seesMark "::") && !(← seesBehindColons (startsWithGroup .paren)) then
      mark "::"
      pure (some (← segment inner inExpr))
    else pure none
  repeated next (← fuel)

def path (inExpr : Bool) : Parser Path := do
  let absolute ← mark? "::"
  let first ← segment inner inExpr
  pure (.mk absolute (first :: (← moreSegments inner inExpr)))

def segmentsBehindOwner (inExpr : Bool) : Parser (List Segment) := do
  let next : Parser (Option Segment) := do
    if ← mark? "::" then pure (some (← segment inner inExpr)) else pure none
  let first ← segment inner inExpr
  pure (first :: (← repeated next (← fuel)))

def ownedPath (inExpr : Bool) : Parser (Option (Ty × Nat) × Path) := do
  if ← mark? "<" then
    let owner ← inner.anyType
    if ← keyword? "as" then
      let front ← path inner false
      mark ">"
      mark "::"
      let back ← segmentsBehindOwner inner inExpr
      pure (some (owner, front.segments.length), .mk front.absolute (front.segments ++ back))
    else
      mark ">"
      mark "::"
      let back ← segmentsBehindOwner inner inExpr
      pure (some (owner, 0), .mk true back)
  else pure (none, ← path inner inExpr)

def seesCall (p : Path) : Parser Bool := do
  pure (p.isPlain && (← seesMark "!") && !(← seesMark "!="))

def callTail : Parser Delimiter := do
  mark "!"
  anyGroup

end Parser

end Statewright.Grammar
