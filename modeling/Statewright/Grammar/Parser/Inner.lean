import Statewright.Grammar.Expr
import Statewright.Grammar.Generics
import Statewright.Grammar.Parser

/-!
# Inner parts

Types, expressions, patterns and items stand inside each other. A parser of one of them takes the
parsers of all of them for what it holds inside; one recursion at the end ties the knot.
-/

namespace Statewright.Grammar

structure Inner where
  /-- A type. The first flag allows a sum of bounds, the second one arguments in angle brackets
  behind a hidden group. -/
  type : Bool → Bool → Parser Ty
  argument : Parser Argument
  parameter : Parser Parameter
  expr : Bool → Parser Expr
  operand : Bool → Parser Expr
  rightSide : Bool → Nat → Parser Expr
  /-- An expression that may end behind its block. Tells whether it starts with code as written,
  which takes no attributes. -/
  body : Parser (Expr × Bool)
  pattern : Parser Bool
  statements : Parser Unit
  item : Parser Unit
  /-- A tree of imported names. The flag allows `::` in front of its entries; tells whether some
  entry has it. -/
  useTree : Bool → Parser Bool

def Inner.none : Inner where
  type _ _ := failure
  argument := failure
  parameter := failure
  expr _ := failure
  operand _ := failure
  rightSide _ _ := failure
  body := failure
  pattern := failure
  statements := failure
  item := failure
  useTree _ := failure

def Inner.anyType (inner : Inner) : Parser Ty := inner.type true true

def Inner.anyExpr (inner : Inner) : Parser Unit := do
  let _ ← inner.expr true

end Statewright.Grammar
