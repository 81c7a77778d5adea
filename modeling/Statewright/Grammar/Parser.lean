import Statewright.Grammar.Literal
import Statewright.Text.Identifier
import Statewright.Token.Tree

/-!
# Parsing token trees

A parser consumes trees from the left, or fails without a reason. It also keeps the code it has
taken, in the form it is printed in and as it was written, so that a part nobody looks into can be
kept as code. Hidden groups are seen through by every step that does not ask for one.
-/

namespace Statewright.Grammar

open Text

structure Cursor where
  ahead : List Tree
  taken : List Token
  written : List Token

abbrev Parser := StateT Cursor Option

/-! ## Looking at trees -/

def exposed : List Tree → List Tree
  | .hidden _ content :: rest =>
    match exposed content with
    | [] => exposed rest
    | opened => opened ++ rest
  | trees => trees

def past : Nat → List Tree → List Tree
  | 0, trees => exposed trees
  | n + 1, trees =>
    match exposed trees with
    | [] => []
    | _ :: rest => past n rest

def behindMarks? : List Char → List Tree → Option (List Tree)
  | [], trees => some trees
  | [c], .mark d _ _ :: rest => if c == d then some rest else none
  | c :: more, .mark d joint _ :: rest =>
    if c == d && joint then behindMarks? more (exposed rest) else none
  | _, _ => none

def startsWithMark (marks : String) (trees : List Tree) : Bool :=
  (behindMarks? marks.toList (exposed trees)).isSome

def startsWithAnyMark (marks : List String) (trees : List Tree) : Bool :=
  marks.any (startsWithMark · trees)

def firstWord? (trees : List Tree) : Option String :=
  match exposed trees with
  | .ident text _ :: _ => some text
  | _ => none

def startsWithWord (word : String) (trees : List Tree) : Bool := firstWord? trees == some word

def startsWithName (trees : List Tree) : Bool := ((firstWord? trees).map isPlainIdent).getD false

def startsWithGroup (d : Delimiter) (trees : List Tree) : Bool :=
  match exposed trees with
  | .group e _ _ :: _ => d = e
  | _ => false

def startsWithLifetime (trees : List Tree) : Bool :=
  match exposed trees with
  | .lifetime _ _ :: _ => true
  | _ => false

def startsWithLiteral (trees : List Tree) : Bool :=
  match exposed trees with
  | .literal _ _ :: _ => true
  | .ident "true" _ :: _ | .ident "false" _ :: _ => true
  | .mark '-' _ _ :: rest =>
    match exposed rest with
    | .literal text _ :: _ => (text.toList.head?.map Char.isDigit).getD false
    | _ => false
  | _ => false

def startsWithString (trees : List Tree) : Bool :=
  match exposed trees with
  | .literal text _ :: _ => (Literal.ofText text).string?.isSome
  | _ => false

namespace Parser

/-! ## Steps -/

def look (offset : Nat := 0) : Parser (List Tree) := fun s => some (past offset s.ahead, s)

def rest : Parser (List Tree) := fun s => some (s.ahead, s)

def atEnd : Parser Bool := fun s => some (s.ahead.isEmpty, s)

def step : Parser Tree := fun s =>
  match exposed s.ahead with
  | t :: rest =>
    let tokens := t.tokens.reverse
    some (t, ⟨rest, tokens ++ s.taken, tokens ++ s.written⟩)
  | [] => none

def fuel : Parser Nat := fun s => some (Tree.sizeOfList s.ahead + 1, s)

/-! ## Code taken -/

def withCode {α : Type} (p : Parser α) : Parser (α × Code) := fun s =>
  match p { s with taken := [] } with
  | some (a, t) => some ((a, t.taken.reverse), { t with taken := t.taken ++ s.taken })
  | none => none

def codeOf {α : Type} (p : Parser α) : Parser Code := do
  let (_, taken) ← withCode p
  pure taken

def emitting {α : Type} (p : Parser (α × Code)) : Parser α := fun s =>
  match p { s with taken := [] } with
  | some ((a, code), t) => some (a, { t with taken := code.reverse ++ s.taken })
  | none => none

def unprinted {α : Type} (p : Parser α) : Parser α := emitting do pure (← p, [])

def withWritten {α : Type} (p : Parser α) : Parser (α × Code) := fun s =>
  match p { s with written := [] } with
  | some (a, t) => some ((a, t.written.reverse), { t with written := t.written ++ s.written })
  | none => none

/-- Runs a parser; if it says so, its code stays as written. Returns the code beside the result. -/
def keepingWritten {α : Type} (p : Parser (α × Bool)) : Parser (α × Code) := emitting do
  let (((a, asWritten), printed), written) ← withWritten (withCode p)
  let code := if asWritten then written else printed
  pure ((a, code), code)

def writtenCode {α : Type} (p : Parser α) : Parser Code := do
  let (_, code) ← keepingWritten do pure (← p, true)
  pure code

/-! ## Choices -/

def attempt {α : Type} (p : Parser α) : Parser (Option α) := fun s =>
  match p s with
  | some (a, t) => some (some a, t)
  | none => some (none, s)

def glimpse {α : Type} (p : Parser α) : Parser (Option α) := fun s => some ((p s).map (·.1), s)

def whenever (condition : Bool) (p : Parser Unit) : Parser Unit := if condition then p else pure ()

/-- Runs a parser on trees that it must use up; also returns the code it took. -/
def within {α : Type} (p : Parser α) (trees : List Tree) : Option (α × Code) :=
  match p ⟨trees, [], []⟩ with
  | some (a, s) => if s.ahead.isEmpty then some (a, s.taken.reverse) else none
  | none => none

def onAll {α : Type} (p : Parser α) (trees : List Tree) : Option α := (p.within trees).map (·.1)

/-! ## Words and marks -/

def seesMark (marks : String) (offset : Nat := 0) : Parser Bool := do
  pure (startsWithMark marks (← look offset))

def seesAnyMark (marks : List String) : Parser Bool := do pure (startsWithAnyMark marks (← look))

def mark (marks : String) : Parser Unit := do
  if ← seesMark marks then
    emitting do
      for _ in marks.toList do
        let _ ← step
      pure ((), marks.toList.map fun c => .mark c)
  else failure

def mark? (marks : String) : Parser Bool := do
  if ← seesMark marks then
    mark marks
    pure true
  else pure false

def seesWord? : Parser (Option String) := do pure (firstWord? (← look))

def seesKeyword (word : String) (offset : Nat := 0) : Parser Bool := do
  pure (startsWithWord word (← look offset))

def keyword (word : String) : Parser Unit := do
  if ← seesKeyword word then
    let _ ← step
  else failure

def keyword? (word : String) : Parser Bool := do
  if ← seesKeyword word then
    let _ ← step
    pure true
  else pure false

def seesIdent (offset : Nat := 0) : Parser Bool := do pure (startsWithName (← look offset))

def anyWord : Parser String := do
  match ← step with
  | .ident text _ => pure text
  | _ => failure

def ident : Parser String := do
  let text ← anyWord
  if isPlainIdent text then pure text else failure

def identOrBlank : Parser String := do if ← seesKeyword "_" then anyWord else ident

def identAt : Parser (String × Position) := do
  match ← look with
  | t :: _ =>
    let text ← ident
    pure (text, t.pos)
  | [] => failure

def seesLifetime (offset : Nat := 0) : Parser Bool := do pure (startsWithLifetime (← look offset))

def lifetime : Parser String := do
  match ← step with
  | .lifetime text _ => pure text
  | _ => failure

def lifetime? : Parser (Option String) := do
  if ← seesLifetime then
    let text ← lifetime
    pure (some text)
  else pure none

/-! ## Literals -/

def seesLiteral : Parser Bool := do pure (startsWithLiteral (← look))

/-- A literal; a sign in front of a number belongs to it. -/
def literal : Parser Literal := do
  let negative ← mark? "-"
  match ← step with
  | .literal text _ => pure (Literal.ofText (if negative then "-" ++ text else text))
  | .ident "true" _ => if negative then failure else pure (.bool true)
  | .ident "false" _ => if negative then failure else pure (.bool false)
  | _ => failure

def string? : Parser Unit := do
  if startsWithString (← look) then
    let _ ← step

def fieldNumber : Parser Unit := emitting do
  match ← step with
  | .literal text _ =>
    match integer? text with
    | some (n, "") => if n < Int.pow 2 32 then pure ((), [.literal (toString n)]) else failure
    | _ => failure
  | _ => failure

/-- The name or the number of a field; tells whether it is a name. -/
def fieldName : Parser Bool := do
  if ← seesIdent then
    let _ ← ident
    pure true
  else
    fieldNumber
    pure false

/-! ## Groups -/

def seesGroup (d : Delimiter) (offset : Nat := 0) : Parser Bool := do
  pure (startsWithGroup d (← look offset))

def group {α : Type} (d : Delimiter) (p : Parser α) : Parser α := fun s =>
  match exposed s.ahead with
  | t@(.group e _ content) :: rest =>
    if d = e then
      (p.within content).map fun (a, code) =>
        (a, ⟨rest, (delimited d code).reverse ++ s.taken, t.tokens.reverse ++ s.written⟩)
    else none
  | _ => none

/-- Takes a group of any delimiter without looking into it; a hidden one is none. -/
def anyGroup : Parser Delimiter := fun s =>
  match s.ahead with
  | .group d _ _ :: _ => (step s).map fun (_, t) => (d, t)
  | _ => none

def opaqueParens : Parser Unit := do
  match ← step with
  | .group .paren _ _ => pure ()
  | _ => failure

def seesHidden : Parser Bool := fun s =>
  match s.ahead with
  | .hidden _ _ :: _ => some (true, s)
  | _ => some (false, s)

def hidden {α : Type} (p : Parser α) : Parser α := fun s =>
  match s.ahead with
  | t@(.hidden _ content) :: rest =>
    (p.within content).map fun (a, code) =>
      (a, ⟨rest, code.reverse ++ s.taken, t.tokens.reverse ++ s.written⟩)
  | _ => none

def emptyHidden? : Parser Bool := fun s =>
  match s.ahead with
  | .hidden _ [] :: rest => some (true, { s with ahead := rest })
  | _ => some (false, s)

/-! ## Repetition -/

/-- Entries up to the end, with `separator` between them and maybe behind the last one. Returns
whether it stands there. -/
def entries {α : Type} (separator : Parser Unit) (p : Parser α) : Nat → Parser (List α × Bool)
  | 0 => failure
  | n + 1 => do
    if ← atEnd then pure ([], false)
    else
      let first ← p
      if ← atEnd then pure ([first], false)
      else
        separator
        let (others, trailing) ← entries separator p n
        pure (first :: others, others.isEmpty || trailing)

def commaList {α : Type} (p : Parser α) : Parser (List α × Bool) := do
  entries (mark ",") p (← fuel)

def entriesUpTo {α : Type} (closing : String) (p : Parser α) : Nat → Parser (List α × Bool)
  | 0 => failure
  | n + 1 => do
    if ← seesMark closing then pure ([], false)
    else
      let first ← p
      if ← seesMark closing then pure ([first], false)
      else
        mark ","
        let (others, trailing) ← entriesUpTo closing p n
        pure (first :: others, others.isEmpty || trailing)

def angleList {α : Type} (p : Parser α) : Parser (List α × Bool) := do
  mark "<"
  let found ← entriesUpTo ">" p (← fuel)
  mark ">"
  pure found

def repeated {α : Type} (p : Parser (Option α)) : Nat → Parser (List α)
  | 0 => pure []
  | n + 1 => do
    match ← p with
    | none => pure []
    | some a =>
      let others ← repeated p n
      pure (a :: others)

def untilEnd {α : Type} (p : Parser α) : Nat → Parser (List α)
  | 0 => failure
  | n + 1 => do
    if ← atEnd then pure []
    else
      let first ← p
      pure (first :: (← untilEnd p n))

end Parser

end Statewright.Grammar
