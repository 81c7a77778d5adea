import Statewright.Grammar.Parser.Expr

/-!
# Parsing statements

No rule looks into the statements of a block; they are parsed because code that is none must be
refused.
-/

namespace Statewright.Grammar.Parser

variable (inner : Inner)

/-- Whether a call of a code generator comes first that defines a name. -/
def startsNamedCall (trees : List Tree) : Bool :=
  match wordPath ⟨trees, [], []⟩ with
  | some (_, s) =>
    startsWithMark "!" s.ahead &&
      (startsWithName (past 1 s.ahead) || startsWithWord "try" (past 1 s.ahead))
  | none => false

def itemWords : List String :=
  ["pub", "extern", "use", "fn", "mod", "type", "struct", "enum", "trait", "impl", "macro"]

def startsFunctionWord (trees : List Tree) : Bool :=
  ["unsafe", "extern", "fn"].any (startsWithWord · trees)

/-- Whether an item comes first and not an expression that starts with the same word. -/
def startsItem (trees : List Tree) : Bool :=
  let next := past 1 trees
  let third := past 2 trees
  let word (text : String) := startsWithWord text next
  startsNamedCall trees || match firstWord? trees with
  | some "crate" => !startsWithMark "::" next
  | some "static" => word "mut" || startsWithName next
  | some "const" =>
    !(startsWithGroup .brace next || word "static" ||
      (word "async" && !startsFunctionWord third) || word "move" || startsWithMark "|" next)
  | some "unsafe" => !startsWithGroup .brace next
  | some "async" => startsFunctionWord next
  | some "union" => startsWithName next
  | some "auto" => word "trait"
  | some "default" => word "unsafe" || word "impl"
  | some text => itemWords.contains text
  | none => false

/-- Whether a call of a code generator with braces comes first and ends its statement. -/
def startsBraceCall (trees : List Tree) : Bool :=
  match wordPath ⟨trees, [], []⟩ with
  | some (_, s) =>
    let behind := past 2 s.ahead
    startsWithMark "!" s.ahead && startsWithGroup .brace (past 1 s.ahead) &&
      !(startsMember behind || startsWithMark "?" behind)
  | none => false

/-- A variable with its value, and what to do if the pattern does not fit it. -/
def binding : Parser Unit := do
  keyword "let"
  let _ ← inner.pattern
  if ← mark? ":" then
    let _ ← inner.anyType
  if ← mark? "=" then
    let value ← inner.expr true
    if !endsWithBrace value.code then
      if ← keyword? "else" then block inner
  mark ";"

/-- The code of an expression statement behind its attributes. Attributes of code kept as written are
lost, and those of a range need it in parentheses: without them they would be its lower end's. -/
def attributedCode (front : Code) (asWritten : Bool) (e : Expr) : Code :=
  if front.isEmpty then e.code
  else if e.kind = .range then front ++ parens e.code
  else if asWritten && [ExprKind.verbatim, .binary, .assign, .cast].contains e.kind then e.code
  else front ++ e.code

/-- An expression as a statement; tells whether something has to part it from the next one. -/
def exprStatement : Parser Bool := emitting do
  let front ← codeOf (skipAttributes inner)
  let (e, asWritten) ← bodyWith inner
  let code := attributedCode front asWritten e
  if ← mark? ";" then pure (false, code ++ symbol ';')
  else
    let calls := e.kind = .macroCall && endsWithBrace e.code
    pure (!calls && !e.kind.isBlockLike, code)

/-- One statement; tells whether something has to part it from the next one. -/
def statement : Parser Bool := do
  let ahead ← glimpse do
    skipAttributes inner
    pure (← look, ← seesHidden)
  match ahead with
  | none => failure
  | some (trees, hiddenHead) =>
    if startsBraceCall trees then
      skipAttributes inner
      let _ ← wordPath
      let _ ← callTail
      let _ ← mark? ";"
      pure false
    else if startsWithWord "let" trees && !hiddenHead then
      skipAttributes inner
      binding inner
      pure false
    else if startsItem trees then
      inner.item
      pure false
    else exprStatement inner

def statementsUpTo : Nat → Parser Unit
  | 0 => failure
  | n + 1 => do
    if ← mark? ";" then statementsUpTo n
    else if ← atEnd then pure ()
    else
      let parted ← statement inner
      if !parted || (← atEnd) then statementsUpTo n else failure

def statementsWith : Parser Unit := do statementsUpTo inner (← fuel)

end Statewright.Grammar.Parser
