import Statewright.Grammar.Parser.Generics

/-!
# Parsing types
-/

namespace Statewright.Grammar.Parser

variable (inner : Inner)

/-! ## Hidden groups -/

/-- The path of a type with more behind it; `more` extends a path. -/
def extendedPath? (more : Path → Parser (Option Path)) : Ty → Parser (Option Ty)
  | .path p => do pure ((← more p).map .path)
  | .projection owner depth p => do pure ((← more p).map (.projection owner depth))
  | _ => pure none

/-- A type that a hidden group holds together, continued as a path if it goes on as one. What is
no path itself becomes the owner of the path behind it. -/
def hiddenType (groupArguments : Bool) : Parser Ty := emitting do
  let held ← hidden inner.anyType
  let isWord (trees : List Tree) : Bool := (firstWord? trees).isSome
  let further (p : Path) : Parser (Option Path) := do
    pure (some (.mk p.absolute (p.segments ++ (← moreSegments inner false))))
  let applied (p : Path) : Parser (Option Path) := do
    match p.last?.map Segment.arguments with
    | some .none => further (p.withArguments (← angleArguments inner))
    | _ => pure none
  let t ←
    if ← seesBehindColons isWord then
      match ← extendedPath? further held with
      | some longer => pure longer
      | none => pure (.projection held 0 (← path inner false))
    else if (groupArguments && (← seesMark "<")) || (← seesBehindColons (startsWithMark "<")) then
      pure ((← extendedPath? applied held).getD (.group held))
    else pure (.group held)
  pure (t, t.code)

/-! ## Function pointers -/

def linkage? : Parser Unit := do
  if ← keyword? "extern" then string?

/-- One parameter of a function pointer, behind its attributes. The first one may be a receiver. -/
def pointerParameter (first : Bool) : Parser Unit := do
  let receives (trees : List Tree) : Bool := first && startsWithWord "self" trees
  let named (trees : List Tree) : Bool :=
    (startsWithName trees || startsWithWord "_" trees || receives trees) &&
      startsWithMark ":" (past 1 trees) && !startsWithMark "::" (past 1 trees)
  let changing (trees : List Tree) : Bool :=
    startsWithWord "mut" trees && receives (past 1 trees)
  if changing (← look) then
    let _ ← writtenCode do
      keyword "mut"
      let typed := named (← look)
      keyword "self"
      whenever typed do
        mark ":"
        let _ ← inner.anyType
  else
    let receiver := receives (← look)
    let name := named (← look)
    whenever name do
      let _ ← anyWord
      mark ":"
    if !(receiver && name) && changing (← look) then
      keyword "mut"
      keyword "self"
    else
      let _ ← inner.anyType

def seesVariadic (trees : List Tree) : Bool :=
  startsWithMark "..." trees ||
    ((startsWithName trees || startsWithWord "_" trees) && startsWithMark ":" (past 1 trees) &&
      startsWithMark "..." (past 2 trees))

def pointerParameters (first : Bool) : Nat → Parser Unit
  | 0 => failure
  | n + 1 => do
    if ← atEnd then pure ()
    else
      skipAttributes inner
      if seesVariadic (← look) then
        if !(← seesMark "...") then
          let _ ← anyWord
          mark ":"
        mark "..."
        let _ ← mark? ","
      else
        pointerParameter inner first
        if ← atEnd then pure ()
        else
          mark ","
          pointerParameters false n

def functionPointer : Parser Unit := do
  let _ ← keyword? "unsafe"
  linkage?
  keyword "fn"
  group .paren (do pointerParameters inner true (← fuel))
  let _ ← returnType? inner false

/-! ## Bounds as types -/

/-- Bounds of an object or `impl` type, at least one of them a trait. -/
def traitSum (plus allowCapture allowConst : Bool) : Parser (List Bound × Bool) := do
  let (bs, trailing) ← boundSum inner plus allowCapture allowConst (← fuel)
  let namesTrait := bs.any fun
    | .trait _ _ _ | .other _ => true
    | .lifetime _ | .capture _ => false
  if namesTrait then pure (bs, trailing) else failure

/-- The type of an object; with `*` behind its word it is kept as written. -/
def objectType (plus : Bool) : Parser Ty := do
  let (found, code) ← keepingWritten do
    let keyed ← keyword? "dyn"
    let star ← if keyed then mark? "*" else pure false
    let (bs, trailing) ← traitSum inner plus false false
    pure (if star then none else some (Ty.object keyed bs trailing), star)
  pure (found.getD (.other code))

/-! ## Parentheses -/

/-- What stands in parentheses: a tuple, a relaxed bound or one type. -/
inductive Enclosed
  | tuple (elements : List Ty) (trailing : Bool)
  | relaxed (b : Bound)
  | single (t : Ty)
  | closed (t : Ty)

def enclosed : Parser Enclosed := do
  if ← atEnd then pure (.tuple [] false)
  else if ← seesLifetime then pure (.closed (← objectType inner true))
  else if ← seesMark "?" then
    let (_, front, p) ← traitBound inner false
    pure (.relaxed (.trait true front p))
  else
    let first ← inner.anyType
    if ← mark? "," then
      let (others, trailing) ← commaList inner.anyType
      pure (.tuple (first :: others) (others.isEmpty || trailing))
    else pure (.single first)

def parenType (plus : Bool) : Parser Ty := do
  match ← group .paren (enclosed inner) with
  | .tuple elements trailing => pure (.tuple elements trailing)
  | .closed t => pure (.paren t)
  | .relaxed b =>
    let (others, trailing) ← moreBounds inner true (← fuel)
    pure (.object false (b :: others) trailing)
  | .single t =>
    let first : Option Bound := match t with
      | .path p => some (.trait true [] p)
      | .object false [.trait _ modifiers p] false => some (.trait true modifiers p)
      | .object false [b] false => some b
      | _ => none
    match first with
    | some b =>
      if plus && (← seesMark "+") then
        let (others, trailing) ← moreBounds inner true (← fuel)
        pure (.object false (b :: others) trailing)
      else pure (.paren t)
    | none => pure (.paren t)

/-! ## Types -/

/-- Whether a part of the language comes first that only its compiler knows. -/
def startsBuiltin (trees : List Tree) : Bool :=
  startsWithWord "builtin" trees && startsWithMark "#" (past 1 trees)

def builtinCall : Parser Unit := do
  keyword "builtin"
  mark "#"
  let _ ← ident
  opaqueParens

/-- A type that starts with a path; `front` is the binder ahead of it. -/
def pathType (plus : Bool) (front : Code) : Parser Ty := do
  match ← ownedPath inner false with
  | (some (owner, depth), p) => pure (.projection owner depth p)
  | (none, p) =>
    if ← seesCall p then
      let tail ← codeOf callTail
      pure (.other (p.code ++ tail))
    else if !front.isEmpty || (plus && (← seesMark "+")) then
      let (others, trailing) ←
        if plus then moreBounds inner false (← fuel) else pure ([], false)
      pure (.object false (.trait false front p :: others) trailing)
    else pure (.path p)

def startsPath (trees : List Tree) : Bool :=
  startsWithName trees || ["super", "self", "Self", "crate"].any (startsWithWord · trees)

def startsPointer (trees : List Tree) : Bool :=
  ["fn", "unsafe", "extern"].any (startsWithWord · trees)

def boundType (plus : Bool) : Parser Ty := emitting do
  let (found, code) ← keepingWritten do
    let front ← codeOf (binder? inner)
    let trees ← look
    if startsPointer trees then
      pure (some (Ty.other (front ++ (← codeOf (functionPointer inner)))), false)
    else if startsBuiltin trees then
      builtinCall
      pure (none, true)
    else if startsPath trees then pure (some (← pathType inner plus front), false)
    else failure
  let t := found.getD (.other code)
  pure (t, t.code)

def typeWith (plus groupArguments : Bool) : Parser Ty := do
  if ← seesHidden then hiddenType inner groupArguments
  else
    match ← look with
    | .group .paren _ _ :: _ => parenType inner plus
    | .group .bracket _ _ :: _ =>
      group .bracket do
        let element ← inner.anyType
        if ← mark? ";" then pure (.array element (← codeOf inner.anyExpr))
        else pure (.slice element)
    | .lifetime _ _ :: _ => objectType inner true
    | .mark '*' _ _ :: _ =>
      mark "*"
      let mutable ← keyword? "mut"
      whenever (!mutable) (keyword "const")
      pure (.pointer mutable (← inner.type false true))
    | .mark '&' _ _ :: _ =>
      mark "&"
      let life ← lifetime?
      let mutable ← keyword? "mut"
      pure (.reference life mutable (← inner.type false true))
    | .mark '!' _ _ :: _ =>
      mark "!"
      pure .never
    | .mark '<' _ _ :: _ | .mark ':' _ _ :: _ => pathType inner plus []
    | .ident "dyn" _ :: _ => objectType inner plus
    | .ident "impl" _ :: _ =>
      keyword "impl"
      let (bs, trailing) ← traitSum inner plus true true
      pure (.implBound bs trailing)
    | .ident "_" _ :: _ =>
      keyword "_"
      pure .infer
    | _ => boundType inner plus

/-! ## Generic arguments -/

def argumentWith : Parser Argument := do
  if (← seesLifetime) && !(← seesMark "+" 1) then pure (.lifetime (← lifetime))
  else if (← seesLiteral) || (← seesGroup .brace) then
    pure (.value (← codeOf (constArgument inner)))
  else
    let t ← typeWith inner true true
    match t with
    | .path (.mk false [.mk name .none]) => named name .none t
    | .path (.mk false [.mk name (.angle turbofish as trailing)]) =>
      named name (.angle turbofish as trailing) t
    | _ => pure (.type t)
where
  named (name : String) (own : Arguments) (t : Ty) : Parser Argument := do
    if ← mark? "=" then
      if (← seesLiteral) || (← seesGroup .brace) then
        pure (.bindingValue name own (← codeOf (constArgument inner)))
      else pure (.binding name own (← inner.anyType))
    else if ← mark? ":" then
      let (bs, trailing) ← boundsUntil inner (seesAnyMark [",", ">"]) (← fuel)
      pure (.constraint name own bs trailing)
    else pure (.type t)

end Statewright.Grammar.Parser
