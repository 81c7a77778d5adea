import Statewright.Grammar.Parser.Type

/-!
# Parsing patterns

No rule looks into a pattern; a parser only tells what is needed to know whether the pattern may
stand where it does.
-/

namespace Statewright.Grammar.Parser

variable (inner : Inner)

/-! ## Ranges -/

/-- The mark of a range, with an end (`true`) or maybe without one. The outdated `...` is printed
as `..=`. -/
def rangeMark : Parser Bool := do
  if ← mark? "..=" then pure true
  else if ← seesMark "..." then
    emitting do
      mark "..."
      pure (true, ['.', '.', '='])
  else
    mark ".."
    pure false

def constBlock : Parser Unit := do
  keyword "const"
  opaqueBlock inner

def seesPatternEnd : Parser Bool := do
  if ← atEnd then pure true
  else if ← seesMark "::" then pure false
  else pure ((← seesAnyMark ["|", "=", ":", ",", ";"]) || (← seesKeyword "if"))

/-- One end of a range; tells whether there is one. -/
def rangeEnd? : Parser Bool := do
  if ← seesPatternEnd then pure false
  else if ← seesLiteral then
    let _ ← literal
    pure true
  else if ← seesKeyword "const" then
    constBlock inner
    pure true
  else if startsPath (← look) || (← seesAnyMark ["::", "<"]) then
    let _ ← ownedPath inner true
    pure true
  else failure

/-- The rest of a range behind its first end; tells whether the other end is missing. -/
def rangeBehind : Parser Bool := do
  let closed ← rangeMark
  let ended ← rangeEnd? inner
  if closed && !ended then failure
  pure (!ended)

/-! ## Groups of patterns -/

def alternatives : Parser Bool := do
  let leading ← mark? "|"
  let first ← inner.pattern
  let next : Parser (Option Unit) := do
    if (← seesMark "|") && !(← seesAnyMark ["||", "|="]) then
      mark "|"
      let _ ← inner.pattern
      pure (some ())
    else pure none
  let others ← repeated next (← fuel)
  pure (first && !leading && others.isEmpty)

def element : Parser Unit := do
  if ← alternatives inner then failure

def fieldPattern : Parser Unit := do
  let boxed ← keyword? "box"
  let byRef ← keyword? "ref"
  let mutable ← keyword? "mut"
  if boxed || byRef || mutable then
    let _ ← ident
  else if ← seesIdent then
    let _ ← ident
    if ← mark? ":" then
      let _ ← alternatives inner
  else
    fieldNumber
    mark ":"
    let _ ← alternatives inner

def fieldPatterns : Nat → Parser Unit
  | 0 => failure
  | n + 1 => do
    if ← atEnd then pure ()
    else
      skipAttributes inner
      if ← mark? ".." then pure ()
      else
        fieldPattern inner
        if ← atEnd then pure ()
        else
          mark ","
          fieldPatterns n

def pathPattern : Parser Bool := do
  let (owner, p) ← ownedPath inner true
  if owner.isNone && (← seesCall p) then
    let _ ← callTail
    pure false
  else if ← seesGroup .brace then
    group .brace (do fieldPatterns inner (← fuel))
    pure false
  else if ← seesGroup .paren then
    let _ ← group .paren (commaList (alternatives inner))
    pure false
  else if ← seesMark ".." then rangeBehind inner
  else pure false

def namePattern : Parser Unit := do
  let _ ← keyword? "ref"
  let _ ← keyword? "mut"
  if ← seesKeyword "self" then
    let _ ← anyWord
  else
    let _ ← ident
  if ← mark? "@" then
    let _ ← inner.pattern

/-! ## Patterns -/

def opensPathPattern (trees : List Tree) : Bool :=
  let next := past 1 trees
  (startsWithName trees &&
      (startsWithAnyMark ["::", "!", ".."] next || startsWithGroup .brace next ||
        startsWithGroup .paren next)) ||
    (startsWithWord "self" trees && startsWithMark "::" next) ||
    startsWithAnyMark ["::", "<"] trees ||
    ["Self", "super", "crate"].any (startsWithWord · trees)

/-- One pattern; tells whether it is a range that lacks an end. -/
def patternWith : Parser Bool := do
  let trees ← look
  let closed (p : Parser Unit) : Parser Bool := do
    p
    pure false
  if opensPathPattern trees then pathPattern inner
  else if ← keyword? "_" then pure false
  else if ← seesKeyword "box" then
    let _ ← writtenCode do
      keyword "box"
      inner.pattern
    pure false
  else if startsWithMark "-" trees || startsWithLiteral trees || startsWithWord "const" trees then
    if !(← rangeEnd? inner) then failure
    if ← seesMark ".." then rangeBehind inner else pure false
  else if startsWithName trees || ["ref", "mut", "self"].any (startsWithWord · trees) then
    closed (namePattern inner)
  else if ← mark? "&" then
    let _ ← keyword? "mut"
    let _ ← inner.pattern
    pure false
  else if startsWithGroup .paren trees then
    let _ ← group .paren (commaList (alternatives inner))
    pure false
  else if startsWithGroup .bracket trees then
    let _ ← group .bracket (commaList (element inner))
    pure false
  else if (← seesMark "..") && !(← seesMark "...") then
    let closed ← mark? "..="
    whenever (!closed) (mark "..")
    let ended ← rangeEnd? inner
    if closed && !ended then failure
    pure ended
  else failure

end Statewright.Grammar.Parser
