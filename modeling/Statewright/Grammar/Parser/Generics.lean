import Statewright.Grammar.Parser.Attribute

/-!
# Parsing bounds and generic parameters
-/

namespace Statewright.Grammar.Parser

variable (inner : Inner)

/-! ## Bounds -/

/-- `for<'a, T>`, if it stands there; tells whether it does. -/
def binder? : Parser Bool := do
  if ← keyword? "for" then
    let _ ← angleList inner.parameter
    pure true
  else pure false

def returnType? (plus : Bool) : Parser (Option Ty) := do
  if ← mark? "->" then pure (some (← inner.type plus true)) else pure none

/-- Gives the last segment of a path the arguments in parentheses behind it, if it has none yet. -/
def calledPath (p : Path) : Parser Path := do
  let bare := match p.last?.map Segment.arguments with
    | some .none | some (.angle _ [] _) => true
    | _ => false
  if bare && ((← seesGroup .paren) || (← seesBehindColons (startsWithGroup .paren))) then
    let _ ← mark? "::"
    let (inputs, trailing) ← group .paren (commaList inner.anyType)
    pure (p.withArguments (.call inputs trailing (← returnType? inner false)))
  else pure p

/-- A trait behind its binder and its modifiers; tells whether one of them is `const`. -/
def traitBound (allowConst : Bool) : Parser (Bool × Code × Path) := emitting do
  let ((conditional, bound, relaxed), front) ← withCode do
    let early ← binder? inner
    let bracketed ← seesGroup .bracket
    whenever bracketed (group .bracket (keyword "const"))
    let conditional ← if bracketed then pure true else keyword? "const"
    let relaxed ← mark? "?"
    let bound ← if relaxed && !early then binder? inner else pure early
    pure (conditional, bound, relaxed)
  if conditional && !allowConst then failure
  let p ← calledPath inner (← path inner false)
  if bound && relaxed then failure
  pure ((conditional, front, p), front ++ p.code)

def captureList : Parser Code := emitting do
  keyword "use"
  let entry : Parser (Bool × Code) := do
    if ← seesLifetime then pure (true, ← codeOf lifetime)
    else if ← seesKeyword "Self" then pure (false, ← codeOf anyWord)
    else pure (false, ← codeOf ident)
  let (entries, trailing) ← angleList entry
  let code := word "use" ++ symbol '<' ++ orderedArguments entries trailing ++ symbol '>'
  pure (code, code)

def bound (allowCapture allowConst : Bool) : Parser Bound := do
  if ← seesLifetime then pure (.lifetime (← lifetime))
  else if ← seesKeyword "use" then
    let content ← captureList
    if allowCapture then pure (.capture content) else failure
  else emitting do
    let parenthesized ← seesGroup .paren
    let one := traitBound inner allowConst
    let ((conditional, front, p), written) ←
      withWritten (if parenthesized then group .paren one else one)
    let found : Bound :=
      if conditional then .other written else .trait parenthesized front p
    pure (found, found.code)

def seesBound : Parser Bool := do
  match ← look with
  | .ident _ _ :: _ | .lifetime _ _ :: _ | .group .paren _ _ :: _ | .mark '?' _ _ :: _ => pure true
  | _ => seesMark "::"

def boundSum (plus allowCapture allowConst : Bool) : Nat → Parser (List Bound × Bool)
  | 0 => failure
  | n + 1 => do
    let first ← bound inner allowCapture allowConst
    let goesOn ← if plus then mark? "+" else pure false
    if goesOn then
      if (← seesBound) || (allowConst && (← seesGroup .bracket)) then
        let (others, trailing) ← boundSum plus allowCapture allowConst n
        pure (first :: others, trailing)
      else pure ([first], true)
    else pure ([first], false)

/-- Bounds behind `+`; unless `eager`, only as far as another one follows. -/
def moreBounds (eager : Bool) : Nat → Parser (List Bound × Bool)
  | 0 => failure
  | n + 1 => do
    if ← mark? "+" then
      if eager || (← seesBound) then
        let first ← bound inner false false
        let (others, trailing) ← moreBounds eager n
        pure (first :: others, trailing)
      else pure ([], true)
    else pure ([], false)

/-- Bounds as far as another one follows a `+`, none of them where `stops` holds. Returns whether
a `+` stands behind the last one. -/
def boundsUntil (stops : Parser Bool) : Nat → Parser (List Bound × Bool)
  | 0 => failure
  | n + 1 => do
    if ← stops then pure ([], false)
    else
      let first ← bound inner false true
      if ← mark? "+" then
        let (others, trailing) ← boundsUntil stops n
        pure (first :: others, others.isEmpty || trailing)
      else pure ([first], false)

def lifetimesUntil (stops : Parser Bool) : Nat → Parser Unit
  | 0 => failure
  | n + 1 => do
    if ← stops then pure ()
    else
      let _ ← lifetime
      if ← mark? "+" then lifetimesUntil stops n

/-- Code behind a colon; a colon with nothing behind it is dropped. -/
def behindColon (p : Nat → Parser Unit) : Parser Code := emitting do
  if ← mark? ":" then
    let content ← codeOf (do p (← fuel))
    let code := if content.isEmpty then [] else symbol ':' ++ content
    pure (code, code)
  else pure ([], [])

def colonBounds (stops : Parser Bool) : Parser Code := behindColon fun n => do
  let _ ← boundsUntil inner stops n

def strictBounds (allowConst : Bool) (stops : Parser Bool) : Nat → Parser Unit
  | 0 => failure
  | n + 1 => do
    if ← stops then pure ()
    else
      let _ ← bound inner false allowConst
      if ← stops then pure ()
      else
        mark "+"
        strictBounds allowConst stops n

def strictColonBounds (stops : Parser Bool) : Parser Code :=
  behindColon (strictBounds inner true stops)

/-! ## Parameters -/

def constArgument : Parser Unit := do
  if ← seesLiteral then
    let _ ← literal
  else if ← seesIdent then
    let _ ← ident
  else opaqueBlock inner

/-- A generic parameter; `blank` allows a type without a name. -/
def parameter (blank : Bool) : Parser Parameter := emitting do
  let attributes ← codeOf (skipAttributes inner)
  let found : Parameter ←
    if ← seesLifetime then
      let name ← lifetime
      let stops : Parser Bool := do pure ((← atEnd) || (← seesAnyMark [",", ">"]))
      let bounds ← behindColon (lifetimesUntil stops)
      pure { kind := .lifetime, attributes, name := [.lifetime name], bounds }
    else if ← keyword? "const" then
      let name ← ident
      let bounds ← codeOf do
        mark ":"
        let _ ← inner.anyType
      let fallback ← codeOf do
        if ← mark? "=" then constArgument inner
      pure { kind := .const, attributes, name := word name, bounds, fallback }
    else if blank && (← seesKeyword "_") then
      let name ← anyWord
      pure { kind := .type, attributes, name := word name }
    else
      let name ← ident
      let stops : Parser Bool := do pure ((← atEnd) || (← seesAnyMark [",", ">", "="]))
      let bounds ← colonBounds inner stops
      let fallback ← codeOf do
        if ← mark? "=" then
          let _ ← inner.anyType
      pure { kind := .type, attributes, name := word name, bounds, fallback }
  pure (found, found.code)

def genericParameters : Parser Generics := emitting do
  if ← seesMark "<" then
    let (parameters, trailing) ← angleList (parameter inner true)
    let found : Generics := { parameters, trailing }
    pure (found, found.code)
  else pure ({}, [])

/-- Whether `<` opens generic parameters and not a type with an owner. -/
def opensParameters (trees : List Tree) : Bool :=
  startsWithMark "<" trees &&
    (let first := past 1 trees
     let second := past 2 trees
     startsWithAnyMark [">", "#"] first ||
       startsWithWord "const" first ||
       ((startsWithLifetime first || startsWithName first) &&
         (startsWithAnyMark [">", ",", "="] second ||
           (startsWithMark ":" second && !startsWithMark "::" second))))

/-! ## Predicates -/

def predicatesEnd : Parser Bool := do
  if (← atEnd) || (← seesGroup .brace) then pure true
  else if ← seesMark "::" then pure false
  else seesAnyMark [",", ";", ":", "="]

def predicate : Parser Unit := do
  if (← seesLifetime) && (← seesMark ":" 1) then
    let _ ← lifetime
    mark ":"
    let stops : Parser Bool := do
      pure ((← atEnd) || (← seesGroup .brace) || (← seesAnyMark [",", ";", ":", "="]))
    lifetimesUntil stops (← fuel)
  else
    let _ ← binder? inner
    let _ ← inner.anyType
    mark ":"
    let _ ← boundsUntil inner predicatesEnd (← fuel)

def predicates : Nat → Parser (List Code × Bool)
  | 0 => failure
  | n + 1 => do
    if ← predicatesEnd then pure ([], false)
    else
      let first ← codeOf (predicate inner)
      if ← mark? "," then
        let (others, trailing) ← predicates n
        pure (first :: others, others.isEmpty || trailing)
      else pure ([first], false)

def seesWhere : Parser Bool := seesKeyword "where"

def predicatesOf (g : Generics) : Parser Generics := emitting do
  if ← keyword? "where" then
    if opensParameters (← look) then failure
    let (found, trailing) ← predicates inner (← fuel)
    let grown := { g with predicates := found, predicatesTrailing := trailing }
    pure (grown, grown.predicateCode)
  else pure (g, [])

end Statewright.Grammar.Parser
