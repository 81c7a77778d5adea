import Statewright.Grammar.Parser.Pattern

/-!
# Parsing functions
-/

namespace Statewright.Grammar.Parser

variable (inner : Inner)

/-! ## Words in front -/

structure Qualifiers where
  isAsync : Bool
  isSafe : Bool

/-- The words in front of `fn`; `foreign` admits the word that declares a function safe. -/
def qualifiers (foreign : Bool) : Parser Qualifiers := do
  let _ ← keyword? "const"
  let isAsync ← keyword? "async"
  let unsafety ← keyword? "unsafe"
  let isSafe ← if foreign && !unsafety then keyword? "safe" else pure false
  linkage?
  pure { isAsync, isSafe }

def startsFunction (foreign : Bool) (trees : List Tree) : Bool :=
  match qualifiers foreign ⟨trees, [], []⟩ with
  | some (_, s) => startsWithWord "fn" s.ahead
  | none => false

/-! ## Inputs -/

inductive Input
  | receiver (r : Receiver)
  | typed (ty : Ty)
  | variadic

def Input.isReceiver : Input → Bool
  | receiver _ => true
  | _ => false

def receiver : Parser Receiver := do
  let reference ← mark? "&"
  whenever reference do
    let _ ← lifetime?
  let mutable ← keyword? "mut"
  keyword "self"
  if !reference then
    if ← mark? ":" then
      let _ ← inner.anyType
  pure (if !reference then .owned else if mutable then .exclusive else .shared)

/-- One input behind its attributes. A type with arguments may stand without a pattern. -/
def input : Parser Input := do
  if ← mark? "..." then pure .variadic
  else
    match ← attempt (receiver inner) with
    | some r => pure (.receiver r)
    | none =>
      if (← seesIdent) && (← seesMark "<" 1) then emitting do
        let ty ← inner.anyType
        pure (.typed ty, word "_" ++ symbol ':' ++ ty.code)
      else
        let _ ← inner.pattern
        mark ":"
        if ← mark? "..." then pure .variadic else pure (.typed (← inner.anyType))

/-- The inputs of a function. A receiver stands nowhere but in front, a variadic input nowhere but
at the end. -/
def inputs (first : Bool) : Nat → Parser (List Input)
  | 0 => failure
  | n + 1 => do
    if ← atEnd then pure []
    else
      skipAttributes inner
      let found ← input inner
      if found.isReceiver && !first then failure
      let parted ← mark? ","
      if ← atEnd then pure [found]
      else
        let isVariadic := match found with
          | .variadic => true
          | _ => false
        if isVariadic || !parted then failure
        pure (found :: (← inputs false n))

/-! ## Signatures -/

structure Signature where
  qualifiers : Qualifiers
  front : Code
  name : String
  generics : Generics
  inputs : Code
  receiver : Receiver
  parameters : List Ty
  output : Option Ty

def signature (foreign : Bool) : Parser Signature := do
  let (words, front) ← withCode do
    let words ← qualifiers foreign
    keyword "fn"
    pure words
  let name ← ident
  let bare ← genericParameters inner
  let (entries, content) ← group .paren (withCode (do inputs inner true (← fuel)))
  let output ← returnType? inner true
  let generics ← predicatesOf inner bare
  let receiver := match entries with
    | .receiver r :: _ => r
    | _ => .none
  let parameters := entries.filterMap fun
    | .typed ty => some ty
    | _ => none
  pure { qualifiers := words, front, name, generics, inputs := content, receiver, parameters, output }

/-! ## Methods -/

def methodHead : Parser Method := do
  let attributes ← outerAttributes inner
  let front ← codeOf do
    let _ ← visibility
    let _ ← keyword? "default"
  let s ← signature inner false
  pure
    { attributes, innerAttributes := [], front := front ++ s.front, name := s.name
      generics := s.generics, inputs := s.inputs, receiver := s.receiver
      parameters := s.parameters, output := s.output, isAsync := s.qualifiers.isAsync, body := [] }

def Method.withBody (m : Method) : Parser Method :=
  group .brace do
    let innerAttributes ← innerAttributes inner
    pure { m with innerAttributes, body := ← codeOf inner.statements }

def methodWith : Parser Method := do
  let head ← methodHead inner
  Method.withBody inner head

end Statewright.Grammar.Parser
