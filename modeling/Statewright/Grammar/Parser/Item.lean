import Statewright.Grammar.Parser.Expr
import Statewright.Grammar.Parser.Function

/-!
# Parsing items

Some items are of no form that can be taken apart and put together again, such as a function
without a body: they are kept as written.
-/

namespace Statewright.Grammar.Parser

variable (inner : Inner)

def front : Parser (List Attribute × Code) := do
  let attributes ← outerAttributes inner
  pure (attributes, ← codeOf visibility)

def skipFront : Parser Unit := do
  let _ ← front inner

def behindFront : Parser (Option (Bool × List Tree)) := glimpse do
  skipAttributes inner
  pure (← visibility, ← look)

/-! ## Fields -/

/-- A field with a name. One without may have fields of its own. -/
def namedField : Nat → Parser NamedField
  | 0 => failure
  | n + 1 => do
    let front ← codeOf (skipFront inner)
    let name ← identOrBlank
    mark ":"
    let trees ← look
    let nested := startsWithWord "struct" trees ||
      (startsWithWord "union" trees && startsWithGroup .brace (past 1 trees))
    if name == "_" && nested then
      let content ← writtenCode do
        let _ ← anyWord
        group .brace (commaList (namedField n))
      pure { front, name, ty := .other content }
    else pure { front, name, ty := ← inner.anyType }

def namedFields : Parser (List NamedField × Bool) := do
  let n ← fuel
  group .brace (commaList (namedField inner n))

def tupleFields : Parser Code := group .paren do
  codeOf do
    let _ ← commaList do
      skipFront inner
      inner.anyType

/-! ## Structs, enums and unions -/

def structItem : Parser Struct := do
  let (attributes, vis) ← front inner
  keyword "struct"
  let (name, pos) ← identAt
  let bare ← genericParameters inner
  let early ← seesWhere
  let g ← predicatesOf inner bare
  let finish (g : Generics) (fields : Fields) : Struct :=
    { attributes, visibility := vis, name, pos, generics := g, fields }
  if ← seesGroup .brace then
    let (fields, trailing) ← namedFields inner
    pure (finish g (.named fields trailing))
  else if !early && (← seesGroup .paren) then
    let content ← tupleFields inner
    let late ← predicatesOf inner g
    mark ";"
    pure (finish late (.tuple content))
  else
    mark ";"
    pure (finish g .unit)

def member : Parser Member := do
  skipAttributes inner
  let _ ← unprinted visibility
  let (name, pos) ← identAt
  if ← seesGroup .brace then
    let _ ← namedFields inner
  else if ← seesGroup .paren then
    let _ ← tupleFields inner
  let discriminant ← if ← mark? "=" then pure (some (← inner.expr true)) else pure none
  pure { name, pos, discriminant }

def enumItem : Parser Enum := do
  let ((name, members), code) ← withCode do
    skipFront inner
    keyword "enum"
    let name ← ident
    let bare ← genericParameters inner
    let _ ← predicatesOf inner bare
    let (members, _) ← group .brace (commaList (member inner))
    pure (name, members)
  pure { name, members, code }

def unionItem : Parser Item := do
  let (name, code) ← withCode do
    skipFront inner
    keyword "union"
    let name ← ident
    let bare ← genericParameters inner
    let _ ← predicatesOf inner bare
    let _ ← namedFields inner
    pure name
  pure (.typeItem name code)

/-! ## Types and constants -/

/-- A type behind its word: its name, whether it has bounds, and whether it is defined. -/
structure NamedType where
  name : String
  bounded : Bool
  defined : Bool

/-- A type with a name. Its predicates stand in front of the definition, behind it, or in either
place. -/
def namedType (early late : Bool) : Parser NamedType := do
  keyword "type"
  let name ← ident
  let bare ← genericParameters inner
  let bounded ← seesMark ":"
  let stops : Parser Bool := do pure ((← seesWhere) || (← seesAnyMark ["=", ";"]))
  let _ ← strictColonBounds inner stops
  let before := early && (← seesWhere)
  let g ← if early then predicatesOf inner bare else pure bare
  let defined ← mark? "="
  whenever defined do
    let _ ← inner.anyType
  whenever (late && !before) do
    let _ ← predicatesOf inner g
  mark ";"
  pure { name, bounded, defined }

/-- A type alias; one with bounds or without a definition is no type. -/
def aliasItem : Parser Item := do
  let (name?, code) ← keepingWritten do
    skipFront inner
    let found ← namedType inner true false
    if found.bounded || !found.defined then pure (none, true) else pure (some found.name, false)
  pure <| match name? with
    | some name => .typeItem name code
    | none => .other code

structure Constant where
  valued : Bool
  generic : Bool

def constant : Parser Constant := do
  keyword "const"
  let _ ← identOrBlank
  let parameters ← seesMark "<"
  let bare ← genericParameters inner
  mark ":"
  let _ ← inner.anyType
  let valued ← mark? "="
  whenever valued inner.anyExpr
  let predicates ← seesWhere
  let _ ← predicatesOf inner bare
  mark ";"
  pure { valued, generic := parameters || predicates }

/-- A variable of the program; tells whether its type or its value is missing. -/
def static : Parser Bool := do
  keyword "static"
  let _ ← keyword? "mut"
  let _ ← ident
  let typed := !(← seesMark "=")
  whenever typed do
    mark ":"
    let _ ← inner.anyType
  let valued ← mark? "="
  whenever valued inner.anyExpr
  mark ";"
  pure (!typed || !valued)

/-! ## Imports and calls -/

def rename? : Parser Unit := do
  if ← keyword? "as" then
    let _ ← identOrBlank

/-- Entries of a group of imports; tells whether `::` stands in front of one. -/
def useEntries (allowRoot : Bool) : Nat → Parser Bool
  | 0 => failure
  | n + 1 => do
    if ← atEnd then pure false
    else
      let rooted ← if allowRoot then mark? "::" else pure false
      let below ← inner.useTree (allowRoot && !rooted)
      if ← atEnd then pure (rooted || below)
      else
        mark ","
        let others ← useEntries allowRoot n
        pure (rooted || below || others)

def useTreeWith (allowRoot : Bool) : Parser Bool := do
  if ← mark? "*" then pure false
  else if ← seesGroup .brace then group .brace (do useEntries inner allowRoot (← fuel))
  else
    let text ← anyWord
    if !(Text.isPlainIdent text || ["self", "super", "crate", "try"].contains text) then failure
    if ← mark? "::" then inner.useTree false
    else
      rename?
      pure false

/-- An import; tells whether some entry of a group starts with `::`. -/
def useItem : Parser Bool := do
  keyword "use"
  let absolute ← mark? "::"
  let rooted ← useTreeWith inner !absolute
  mark ";"
  pure rooted

def externCrate : Parser Unit := do
  keyword "extern"
  keyword "crate"
  let _ ← if ← seesKeyword "self" then anyWord else ident
  rename?
  mark ";"

def generatorCall (named : Bool) : Parser Unit := do
  let _ ← wordPath
  mark "!"
  if named then
    if (← seesIdent) || (← seesKeyword "try") then
      let _ ← anyWord
  match ← anyGroup with
  | .brace => pure ()
  | _ => mark ";"

def startsCall (trees : List Tree) : Bool :=
  startsWithName trees || ["self", "super", "crate"].any (startsWithWord · trees) ||
    startsWithMark "::" trees

def generator : Parser Unit := do
  keyword "macro"
  let _ ← ident
  let content : Parser Unit := do
    let _ ← anyGroup
  if ← seesGroup .paren then content
  if ← seesGroup .brace then content else failure

/-! ## Implementations -/

def associated : Parser Associated := do
  let ahead ← glimpse do
    skipAttributes inner
    let visible ← visibility
    let specialized ← if ← seesMark "!" 1 then pure false else keyword? "default"
    pure (visible || specialized, ← look)
  let kept (p : Parser Bool) : Parser Associated := do
    let (_, code) ← keepingWritten do
      skipFront inner
      pure ((), ← p)
    pure (.other code)
  match ahead with
  | none => failure
  | some (modified, trees) =>
    if startsFunction false trees then
      let (found, code) ← keepingWritten do
        let head ← methodHead inner
        if ← mark? ";" then pure (none, true)
        else pure (some (← Method.withBody inner head), false)
      pure <| match found with
        | some m => .method m
        | none => .other code
    else match firstWord? trees with
      | some "const" =>
        kept do
          let _ ← keyword? "default"
          let found ← constant inner
          pure (!found.valued || found.generic)
      | some "type" =>
        kept do
          let _ ← keyword? "default"
          let found ← namedType inner false true
          pure (found.bounded || !found.defined)
      | _ =>
        if modified || !startsCall trees then failure
        kept do
          generatorCall false
          pure false

/-- An implementation. One with a visibility, a conditional one and one of what is no path are kept
as written. -/
def implementation : Parser Item := do
  let (found, code) ← keepingWritten do
    let attributes ← codeOf (skipAttributes inner)
    let (visible, front) ← withCode do
      let visible ← visibility
      let _ ← keyword? "default"
      let _ ← keyword? "unsafe"
      keyword "impl"
      pure visible
    let bare ← if opensParameters (← look) then genericParameters inner else pure {}
    let conditional := (← seesKeyword "const") || ((← seesMark "?") && (← seesKeyword "const" 1))
    whenever conditional do
      let _ ← mark? "?"
      keyword "const"
    let negative := (← seesMark "!") && !(← seesGroup .brace 1)
    let negation ← codeOf (whenever negative (mark "!"))
    let first ← inner.anyType
    let isTrait ← keyword? "for"
    if negative && !isTrait then failure
    let owner ← if isTrait then inner.anyType else pure first
    let g ← predicatesOf inner bare
    let (innerAttributes, entries) ← group .brace do
      let found ← codeOf (innerAttributes inner)
      pure (found, ← untilEnd (associated inner) (← fuel))
    let plain := match first.ungrouped with
      | .path _ => true
      | _ => false
    let traitFront :=
      if isTrait then some (negation ++ first.code ++ word "for") else none
    let asWritten := visible || conditional || (isTrait && !plain)
    let found : Implementation :=
      { attributes, front, generics := g, traitFront, owner, innerAttributes, entries }
    pure (if asWritten then none else some found, asWritten)
  pure <| match found with
    | some i => .implementation i
    | none => .other code

/-! ## Traits -/

def traitEntry : Parser Unit := do
  let _ ← keepingWritten do
    skipAttributes inner
    let visible ← visibility
    let specialized ← keyword? "default"
    let trees ← look
    let modified := visible || specialized
    if startsFunction false trees then
      let _ ← signature inner false
      if ← seesGroup .brace then opaqueBlock inner else mark ";"
      pure ((), modified)
    else match firstWord? trees with
      | some "const" => pure ((), (← constant inner).generic || modified)
      | some "type" =>
        let _ ← namedType inner false true
        pure ((), modified)
      | _ =>
        if modified || !startsCall trees then failure
        generatorCall false
        pure ((), false)

/-- A trait behind its attributes and its visibility, or another name for bounds. -/
def traitItem : Parser Unit := do
  let unsafety ← keyword? "unsafe"
  let auto ← keyword? "auto"
  keyword "trait"
  let _ ← ident
  let bare ← genericParameters inner
  if !unsafety && !auto && (← seesMark "=") then
    mark "="
    let stops : Parser Bool := do pure ((← seesWhere) || (← seesMark ";"))
    strictBounds inner false stops (← fuel)
    let _ ← predicatesOf inner bare
    mark ";"
  else
    let stops : Parser Bool := do pure ((← seesWhere) || (← seesGroup .brace))
    let _ ← strictColonBounds inner stops
    let _ ← predicatesOf inner bare
    group .brace do
      let _ ← innerAttributes inner
      let _ ← untilEnd (traitEntry inner) (← fuel)

/-! ## Code defined elsewhere -/

def foreignEntry : Parser Unit := do
  let _ ← keepingWritten do
    skipAttributes inner
    let visible ← visibility
    let trees ← look
    let changed := startsWithWord "unsafe" trees || startsWithWord "safe" trees
    if startsFunction true trees then
      let s ← signature inner true
      let defined ← seesGroup .brace
      if defined then opaqueBlock inner else mark ";"
      pure ((), s.qualifiers.isSafe || defined)
    else if startsWithWord "static" trees || (changed && startsWithWord "static" (past 1 trees)) then
      whenever changed do
        let _ ← anyWord
      keyword "static"
      let _ ← keyword? "mut"
      let _ ← ident
      mark ":"
      let _ ← inner.anyType
      let valued ← mark? "="
      whenever valued inner.anyExpr
      mark ";"
      pure ((), changed || valued)
    else if startsWithWord "type" trees then
      let found ← namedType inner true true
      pure ((), found.bounded || found.defined)
    else
      if visible || !startsCall trees then failure
      generatorCall false
      pure ((), false)

def foreignBlock : Parser Unit := do
  let _ ← keyword? "unsafe"
  keyword "extern"
  string?
  group .brace do
    let _ ← innerAttributes inner
    let _ ← untilEnd (foreignEntry inner) (← fuel)

/-! ## Modules -/

def moduleWords : Parser Unit := do
  let _ ← keyword? "unsafe"
  keyword "mod"

def moduleName : Parser String := do if ← seesKeyword "try" then anyWord else ident

def nestedModule : Parser Unit := do
  moduleWords
  let _ ← moduleName
  if ← mark? ";" then pure ()
  else group .brace do
    let _ ← innerAttributes inner
    let _ ← untilEnd inner.item (← fuel)

/-! ## Items -/

/-- A function; one without a body is kept as written. -/
def function : Parser Bool := do
  let _ ← signature inner false
  if ← mark? ";" then pure true
  else
    opaqueBlock inner
    pure false

def itemWith : Parser Item := do
  match ← behindFront inner with
  | none => failure
  | some (visible, trees) =>
    let next := past 1 trees
    let kept (p : Parser Bool) : Parser Item := do
      let (_, code) ← keepingWritten do
        skipFront inner
        pure ((), ← p)
      pure (.other code)
    let plain (p : Parser Unit) : Parser Item := kept do
      p
      pure false
    let foreign : Parser Item := do
      let code ← codeOf do
        skipAttributes inner
        foreignBlock inner
      pure (.other code)
    let call : Parser Item := do
      if visible || !startsCall trees then failure
      plain (generatorCall true)
    if startsFunction false trees then kept (function inner)
    else match firstWord? trees with
      | some "struct" => pure (.struct (← structItem inner))
      | some "enum" => pure (.enum (← enumItem inner))
      | some "union" => if startsWithName next then unionItem inner else call
      | some "type" => aliasItem inner
      | some "impl" => implementation inner
      | some "default" => if startsWithMark "!" next then call else implementation inner
      | some "use" => kept (useItem inner)
      | some "static" => kept (static inner)
      | some "const" =>
        kept do
          let found ← constant inner
          pure (!found.valued || found.generic)
      | some "extern" => if startsWithWord "crate" next then plain externCrate else foreign
      | some "unsafe" =>
        if startsWithWord "impl" next then implementation inner
        else if startsWithWord "extern" next then foreign
        else if startsWithWord "mod" next then plain (nestedModule inner)
        else plain (traitItem inner)
      | some "mod" => plain (nestedModule inner)
      | some "trait" => plain (traitItem inner)
      | some "auto" => if startsWithWord "trait" next then plain (traitItem inner) else call
      | some "macro" =>
        kept do
          generator
          pure true
      | _ => call

def moduleWith : Parser Module := do
  let attributes ← codeOf (skipAttributes inner)
  let front ← codeOf do
    let _ ← visibility
    moduleWords
  let name ← moduleName
  if ← mark? ";" then pure { attributes, front, name, innerAttributes := [], items := none }
  else
    let (innerAttributes, items) ← group .brace do
      let found ← codeOf (innerAttributes inner)
      pure (found, ← untilEnd (itemWith inner) (← fuel))
    pure { attributes, front, name, innerAttributes, items := some items }

end Statewright.Grammar.Parser
