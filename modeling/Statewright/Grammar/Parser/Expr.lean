import Statewright.Grammar.Parser.Pattern

/-!
# Parsing expressions

An expression is an operand and whatever operators behind it bind tightly enough. What a rule may
ask about, a path, a literal, a sign, a grouping, is kept apart; all else is a kind and its code.
-/

namespace Statewright.Grammar

def ExprKind.isBlockLike : ExprKind → Bool
  | block | conditional | constBlock | forLoop | loop | matchOn | tryBlock
  | unsafeBlock | whileLoop => true
  | _ => false

def endsWithBrace (code : Code) : Bool := code.getLast? == some (.closing .brace)

namespace Parser

variable (inner : Inner)

def keptAs (kind : ExprKind) (p : Parser Unit) : Parser Expr := do
  pure (.other kind (← codeOf p))

/-! ## Operators -/

def assignLevel : Nat := 1
def rangeLevel : Nat := 2
def compareLevel : Nat := 6
def castLevel : Nat := 13

/-- Binary operators and their levels; a longer one stands before those it starts with. -/
def operators : List (String × Nat) :=
  [("+=", assignLevel), ("-=", assignLevel), ("*=", assignLevel), ("/=", assignLevel),
   ("%=", assignLevel), ("^=", assignLevel), ("&=", assignLevel), ("|=", assignLevel),
   ("<<=", assignLevel), (">>=", assignLevel),
   ("&&", 4), ("||", 3), ("<<", 10), (">>", 10),
   ("==", compareLevel), ("<=", compareLevel), ("!=", compareLevel), (">=", compareLevel),
   ("+", 11), ("-", 11), ("*", 12), ("/", 12), ("%", 12),
   ("^", 8), ("&", 9), ("|", 7), ("<", compareLevel), (">", compareLevel)]

def firstOperator? (trees : List Tree) : Option (String × Nat) :=
  operators.find? fun (marks, _) => startsWithMark marks trees

def startsAssignment (trees : List Tree) : Bool :=
  startsWithMark "=" trees && !startsWithMark "=>" trees

def startsMember (trees : List Tree) : Bool :=
  startsWithMark "." trees && !startsWithMark ".." trees

/-- The level of whatever may continue an expression; zero if nothing does. -/
def nextLevel : Parser Nat := do
  let trees ← look
  match firstOperator? trees with
  | some (_, level) => pure level
  | none =>
    pure <|
      if startsAssignment trees then assignLevel
      else if startsWithMark ".." trees then rangeLevel
      else if startsWithWord "as" trees then castLevel
      else 0

/-! ## Ranges -/

def rangeEnds (structs : Bool) (trees : List Tree) : Bool :=
  trees.isEmpty || startsMember trees ||
    startsWithAnyMark [",", ";", "?", "=>", "=", "+", "/", "%", "^", ">", "<=", "!=", "-=", "*=",
      "&=", "|=", "<<="] trees ||
    (!structs && startsWithGroup .brace trees) || startsWithWord "as" trees

def rangeTail (structs : Bool) : Parser Unit := do
  if ← seesMark "..." then failure
  let closed ← mark? "..="
  whenever (!closed) (mark "..")
  if closed || !(rangeEnds structs (← look)) then
    let _ ← inner.rightSide structs rangeLevel

/-! ## Climbing -/

def startsTrailer (trees : List Tree) : Bool :=
  startsMember trees || startsWithMark "?" trees || startsWithGroup .bracket trees ||
    startsWithGroup .paren trees

/-- Takes into an expression all operators of at least the given level. `compared` tells whether a
comparison stands at its top, which cannot be compared again. -/
def climb (structs : Bool) (base : Nat) : Nat → Bool → Expr → Parser Expr
  | 0, _, _ => failure
  | n + 1, compared, left => do
    let grown (kind : ExprKind) (p : Parser Unit) : Parser Expr := do
      pure (.other kind (left.code ++ (← codeOf p)))
    let trees ← look
    if left.kind = .range then pure left
    else
      match firstOperator? trees with
      | some (marks, level) =>
        if level < base then pure left
        else if level = compareLevel && compared then failure
        else
          let longer ← grown .binary do
            mark marks
            let _ ← inner.rightSide structs level
          climb structs base n (level = compareLevel) longer
      | none =>
        if base ≤ assignLevel && startsAssignment trees then
          let longer ← grown .assign do
            mark "="
            let _ ← inner.rightSide structs assignLevel
          climb structs base n false longer
        else if base ≤ rangeLevel && startsWithMark ".." trees then
          let longer ← grown .range (rangeTail inner structs)
          climb structs base n false longer
        else if base ≤ castLevel && startsWithWord "as" trees then
          let longer ← grown .cast do
            keyword "as"
            let _ ← inner.type false false
            if startsTrailer (← look) then failure
          climb structs base n false longer
        else pure left

def tighten (structs : Bool) (level : Nat) : Nat → Expr → Parser Expr
  | 0, _ => failure
  | n + 1, e => do
    let next ← nextLevel
    if e.kind ≠ .range && (next > level || (next = level && level = assignLevel)) then
      tighten structs level n (← climb inner structs next (← fuel) false e)
    else pure e

/-! ## Calls and members -/

def callArguments : Parser Unit := do
  let _ ← group .paren (commaList inner.anyExpr)

def fieldNumbers? (text : String) : Option (List Nat × Bool) := do
  let parts := text.splitOn "."
  let pointed := parts.length > 1 && parts.getLast? == some ""
  let numbers ← (if pointed then parts.dropLast else parts).mapM fun part =>
    match integer? part with
    | some (n, "") => if n < Int.pow 2 32 then some n.toNat else none
    | _ => none
  return (numbers, pointed)

/-- A fraction behind a point, which counts as numbers of fields; tells whether another member is to
follow. -/
def numberedFields : Parser Bool := emitting do
  match ← step with
  | .literal text _ =>
    match fieldNumbers? text with
    | some (numbers, pointed) =>
      let fields := punctuated (symbol '.') pointed (numbers.map fun n => [.literal (toString n)])
      pure (pointed, fields)
    | none => failure
  | _ => failure

def namedMember : Parser ExprKind := do
  if ← keyword? "await" then pure .await
  else
    let named ← fieldName
    let turbofish := named && (← seesMark "::")
    if turbofish then
      let _ ← angleArguments inner
    if turbofish || (named && (← seesGroup .paren)) then
      callArguments inner
      pure .methodCall
    else pure .field

def memberAccess : Parser ExprKind := do
  mark "."
  let fraction := match ← look with
    | .literal text _ :: _ =>
      match Literal.ofText text with
      | .float _ => true
      | _ => false
    | _ => false
  if fraction then
    if ← numberedFields then namedMember inner else pure .field
  else namedMember inner

def trailer? (e : Expr) : Parser (Option Expr) := do
  let grown (p : Parser ExprKind) : Parser (Option Expr) := do
    let (kind, tokens) ← withCode p
    pure (some (.other kind (e.code ++ tokens)))
  let trees ← look
  if startsWithGroup .paren trees then grown do
    callArguments inner
    pure .call
  else if startsWithGroup .bracket trees then grown do
    group .bracket inner.anyExpr
    pure .index
  else if e.kind = .range then pure none
  else if startsMember trees then grown (memberAccess inner)
  else if startsWithMark "?" trees then grown do
    mark "?"
    pure .tryOp
  else pure none

def trailers : Nat → Expr → Parser Expr
  | 0, e => pure e
  | n + 1, e => do
    match ← trailer? inner e with
    | some longer => trailers n longer
    | none => pure e

/-! ## Paths -/

def fieldValue : Parser Unit := do
  skipAttributes inner
  let named ← fieldName
  if !named || (← seesMark ":") then
    mark ":"
    inner.anyExpr

def fieldValues : Nat → Parser Unit
  | 0 => failure
  | n + 1 => do
    if ← atEnd then pure ()
    else if ← mark? ".." then
      if !(← atEnd) then inner.anyExpr
    else
      fieldValue inner
      if ← atEnd then pure ()
      else
        mark ","
        fieldValues n

def restOfPath (structs : Bool) (owner : Option (Ty × Nat)) (p : Path) : Parser Expr := do
  let front := match owner with
    | some (t, depth) => Expr.projection t depth p
    | none => Expr.path p
  if owner.isNone && (← seesCall p) then
    pure (.other .macroCall (p.code ++ (← codeOf callTail)))
  else if structs && (← seesGroup .brace) then
    let fields ← codeOf (group .brace (do fieldValues inner (← fuel)))
    pure (.other .structLiteral (front.code ++ fields))
  else pure front

def pathExpr (structs : Bool) : Parser Expr := do
  let (owner, p) ← ownedPath inner true
  restOfPath inner structs owner p

def hiddenExpr (structs : Bool) : Parser Expr := do
  let held ← hidden (inner.expr true)
  let extended (owner : Option (Ty × Nat)) (p : Path) : Parser Expr := do
    let more ← moreSegments inner true
    let longer ← restOfPath inner structs owner (.mk p.absolute (p.segments ++ more))
    match longer with
    | .path _ | .projection _ _ _ => pure (if more.isEmpty then .group longer else longer)
    | _ => pure longer
  match held with
  | .path p => extended none p
  | .projection owner depth p => extended (some (owner, depth)) p
  | _ => pure (.group held)

/-! ## Groups -/

def parenExpr : Parser Expr := do
  if ← atEnd then pure .unit
  else
    let (first, front) ← withCode (inner.expr true)
    if ← atEnd then pure (.paren first)
    else
      let others ← codeOf do
        mark ","
        let _ ← commaList inner.anyExpr
      pure (.other .tuple (parens (front ++ others)))

def bracketExpr : Parser ExprKind := do
  if ← atEnd then pure .array
  else
    inner.anyExpr
    if ← mark? ";" then
      inner.anyExpr
      pure .repetition
    else
      if !(← atEnd) then
        mark ","
        let _ ← commaList inner.anyExpr
      pure .array

/-! ## Closures -/

def closureParameter : Parser Unit := do
  skipAttributes inner
  let _ ← inner.pattern
  if ← mark? ":" then
    let _ ← inner.anyType

def closure (structs : Bool) : Parser Unit := do
  let _ ← binder? inner
  let _ ← keyword? "const"
  let _ ← keyword? "static"
  let _ ← keyword? "async"
  let _ ← keyword? "move"
  mark "|"
  let _ ← entriesUpTo "|" (closureParameter inner) (← fuel)
  mark "|"
  match ← returnType? inner true with
  | some _ => block inner
  | none =>
    let _ ← inner.expr structs

/-! ## Branches and loops -/

def conditional : Nat → Parser Unit
  | 0 => failure
  | n + 1 => do
    keyword "if"
    let _ ← inner.expr false
    block inner
    if ← keyword? "else" then
      if ← seesKeyword "if" then conditional n else block inner

def letCondition (structs : Bool) : Parser Unit := do
  keyword "let"
  let _ ← alternatives inner
  mark "="
  let first ← inner.operand structs
  let _ ← climb inner structs compareLevel (← fuel) false first

/-- One arm of a `match`. Only a block needs no comma behind it. -/
def arm : Parser Unit := do
  skipAttributes inner
  let _ ← alternatives inner
  if ← keyword? "if" then inner.anyExpr
  mark "=>"
  let (value, _) ← inner.body
  if value.kind.isBlockLike || (← atEnd) then
    let _ ← mark? ","
  else mark ","

def matchOn : Parser Unit := do
  keyword "match"
  let _ ← inner.expr false
  group .brace do
    let _ ← innerAttributes inner
    let _ ← untilEnd (arm inner) (← fuel)

def whileLoop : Parser Unit := do
  keyword "while"
  let _ ← inner.expr false
  opaqueBlock inner

def forLoop : Parser Unit := do
  keyword "for"
  let _ ← alternatives inner
  keyword "in"
  let _ ← inner.expr false
  opaqueBlock inner

def wordBlock (text : String) : Parser Unit := do
  keyword text
  opaqueBlock inner

def labelled? : Parser (Option Expr) := do
  let trees ← look
  let keep (kind : ExprKind) (p : Parser Unit) : Parser (Option Expr) := do
    pure (some (← keptAs kind p))
  match firstWord? trees with
  | some "while" => keep .whileLoop (whileLoop inner)
  | some "for" => keep .forLoop (forLoop inner)
  | some "loop" => keep .loop (wordBlock inner "loop")
  | _ => if startsWithGroup .brace trees then keep .block (opaqueBlock inner) else pure none

def labelledExpr : Parser Expr := do
  let front ← codeOf do
    let _ ← lifetime
    mark ":"
  match ← labelled? inner with
  | some e => pure (.other e.kind (front ++ e.code))
  | none => failure

/-! ## Leaving -/

def startsExpr (trees : List Tree) : Bool :=
  ((firstWord? trees).isSome && !startsWithWord "as" trees) ||
    [Delimiter.paren, .bracket, .brace].any (startsWithGroup · trees) ||
    startsWithLiteral trees || startsWithLifetime trees ||
    (startsWithAnyMark ["!", "-", "*", "|", "&", "..", "<", "::", "#"] trees &&
      !startsWithAnyMark ["!=", "-=", "->", "*=", "|=", "&=", "<=", "<<="] trees)

def leaving (text : String) : Parser Unit := do
  keyword text
  if startsExpr (← look) then inner.anyExpr

def breakOff (structs : Bool) : Parser Unit := do
  keyword "break"
  let labelled := (← lifetime?).isSome
  if labelled && (← seesMark ":") then failure
  let trees ← look
  if startsExpr trees && (structs || !startsWithGroup .brace trees) then inner.anyExpr

/-! ## Operands -/

def wordExpr? (structs : Bool) : Parser (Option Expr) := do
  let trees ← look
  let next := past 1 trees
  let braceNext := startsWithGroup .brace next
  let keep (kind : ExprKind) (p : Parser Unit) : Parser (Option Expr) := do
    pure (some (← keptAs kind p))
  let asClosure := keep .closure (closure inner structs)
  match firstWord? trees with
  | some "async" =>
    if braceNext || (startsWithWord "move" next && startsWithGroup .brace (past 2 trees)) then
      keep .asyncBlock do
        keyword "async"
        let _ ← keyword? "move"
        block inner
    else if startsWithMark "|" next || startsWithWord "move" next then asClosure
    else failure
  | some "try" =>
    if braceNext then
      keep .tryBlock do
        keyword "try"
        block inner
    else if startsWithAnyMark ["!", "::"] next then pure none
    else failure
  | some "move" | some "static" => asClosure
  | some "const" => if braceNext then keep .constBlock (wordBlock inner "const") else asClosure
  | some "builtin" =>
    if startsBuiltin trees then pure (some (.other .verbatim (← writtenCode builtinCall)))
    else pure none
  | some "break" => keep .breakOff (breakOff inner structs)
  | some "continue" =>
    keep .goOn do
      keyword "continue"
      let _ ← lifetime?
  | some "return" => keep .giveBack (leaving inner "return")
  | some "yield" => keep .yieldOut (leaving inner "yield")
  | some "become" =>
    let content ← writtenCode do
      keyword "become"
      inner.anyExpr
    pure (some (.other .verbatim content))
  | some "let" => keep .letIn (letCondition inner structs)
  | some "if" => keep .conditional (do conditional inner (← fuel))
  | some "match" => keep .matchOn (matchOn inner)
  | some "unsafe" => keep .unsafeBlock (wordBlock inner "unsafe")
  | some "for" => if opensParameters next then asClosure else labelled? inner
  | some "while" | some "loop" => labelled? inner
  | some "_" => keep .infer (keyword "_")
  | _ => pure none

def atom (structs : Bool) : Parser Expr := do
  let trees ← look
  if ← seesHidden then hiddenExpr inner structs
  else if startsWithLiteral trees then pure (.literal (← literal))
  else
    match trees with
    | .ident _ _ :: _ =>
      match ← wordExpr? inner structs with
      | some e => pure e
      | none => pathExpr inner structs
    | .mark '|' _ _ :: _ => keptAs .closure (closure inner structs)
    | .group .paren _ _ :: _ => group .paren (parenExpr inner)
    | .group .bracket _ _ :: _ =>
      let (kind, content) ← withCode (group .bracket (bracketExpr inner))
      pure (.other kind content)
    | .group .brace _ _ :: _ => keptAs .block (opaqueBlock inner)
    | .lifetime _ _ :: _ => labelledExpr inner
    | _ =>
      if startsWithMark ".." trees then keptAs .range (rangeTail inner structs)
      else pathExpr inner structs

def completeAtom (structs : Bool) : Parser Expr := do
  trailers inner (← fuel) (← atom inner structs)

def startsRawBorrow (trees : List Tree) : Bool :=
  startsWithWord "raw" trees &&
    (startsWithWord "mut" (past 1 trees) || startsWithWord "const" (past 1 trees))

def borrow (structs : Bool) : Parser Expr := do
  let (raw, content) ← withCode do
    mark "&"
    let raw := startsRawBorrow (← look)
    whenever raw (keyword "raw")
    let mutable ← keyword? "mut"
    whenever (raw && !mutable) (keyword "const")
    let _ ← inner.operand structs
    pure raw
  pure (.other (if raw then .unknown else .reference) content)

def bareOperand (structs : Bool) : Parser Expr := do
  if ← seesHidden then completeAtom inner structs
  else
    match ← look with
    | .mark '&' _ _ :: _ => borrow inner structs
    | .mark '-' _ _ :: _ =>
      mark "-"
      pure (.negated (← inner.operand structs))
    | .mark '*' _ _ :: _ =>
      keptAs .unary do
        mark "*"
        let _ ← inner.operand structs
    | .mark '!' _ _ :: _ =>
      keptAs .unary do
        mark "!"
        let _ ← inner.operand structs
    | _ => completeAtom inner structs

/-- The attributes of an expression, which do not stand inside a hidden group. -/
def exprAttributes : Parser Code := codeOf do
  let next : Parser (Option Attribute) := do
    if ← seesHidden then pure none else attribute? inner
  let _ ← repeated next (← fuel)

def operandWith (structs : Bool) : Parser Expr := emitting do
  let ((front, e), written) ← withWritten do
    let front ← exprAttributes inner
    pure (front, ← bareOperand inner structs)
  match e with
  | .other .verbatim _ => pure (.other .verbatim written, written)
  | _ =>
    if e.kind = .range && !front.isEmpty then failure
    let whole := e.withAttributes front
    pure (whole, whole.code)

def rightSideWith (structs : Bool) (level : Nat) : Parser Expr := do
  tighten inner structs level (← fuel) (← operandWith inner structs)

def exprWith (structs : Bool) : Parser Expr := do
  climb inner structs 0 (← fuel) false (← operandWith inner structs)

/-! ## Bodies -/

def blockLike? : Parser (Option Expr) := do
  let trees ← look
  let next := past 1 trees
  match firstWord? trees with
  | some "if" | some "match" | some "unsafe" | some "while" | some "loop" => wordExpr? inner true
  | some "for" => if opensParameters next then pure none else wordExpr? inner true
  | some "try" | some "const" =>
    if startsWithGroup .brace next then wordExpr? inner true else pure none
  | _ =>
    if startsWithGroup .brace trees || startsWithLifetime trees then
      pure (some (← atom inner true))
    else pure none

def bodyWith : Parser (Expr × Bool) := emitting do
  let front ← exprAttributes inner
  let (first, ended) ←
    if ← seesHidden then
      let e ← hiddenExpr inner true
      if e.ungrouped.kind.isBlockLike then pure (e, true)
      else pure (← trailers inner (← fuel) e, false)
    else
      match ← blockLike? inner with
      | some e => pure (e, true)
      | none => pure (← operandWith inner true, false)
  let trees ← look
  let goesOn := startsMember trees || startsWithMark "?" trees
  let first ← if ended && goesOn then trailers inner (← fuel) first else pure first
  let asWritten := first.kind = .verbatim
  let lead := if asWritten then first else first.withAttributes front
  let e ← if ended && !goesOn then pure lead else climb inner true 0 (← fuel) false lead
  pure ((e, asWritten), e.code)

end Parser

end Statewright.Grammar
