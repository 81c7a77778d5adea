import Statewright.Grammar.Literal
import Statewright.Grammar.Type

/-!
# Expressions

Only the shapes that a declaration can give a meaning to are kept apart: paths, literals, signs,
parentheses and hidden groups. Every other expression is its kind and its code.
-/

namespace Statewright.Grammar

inductive ExprKind
  | array | assign | asyncBlock | await | binary | block | breakOff | call | cast | closure
  | constBlock | goOn | field | forLoop | group | conditional | index | infer | letIn | literal
  | loop | macroCall | matchOn | methodCall | paren | path | range | reference | repetition
  | giveBack | structLiteral | tryOp | tryBlock | tuple | unary | unknown | unsafeBlock | verbatim
  | whileLoop | yieldOut
  deriving DecidableEq, Repr

def ExprKind.name : ExprKind → String
  | array => "array"
  | assign => "assign"
  | asyncBlock => "async"
  | await => "await"
  | binary => "binary"
  | block => "block"
  | breakOff => "break"
  | call => "call"
  | cast => "cast"
  | closure => "closure"
  | constBlock => "const"
  | goOn => "continue"
  | field => "field"
  | forLoop => "for_loop"
  | group => "group"
  | conditional => "if"
  | index => "index"
  | infer => "infer"
  | letIn => "let"
  | literal => "lit"
  | loop => "loop"
  | macroCall => "macro"
  | matchOn => "match"
  | methodCall => "method_call"
  | paren => "paren"
  | path => "path"
  | range => "range"
  | reference => "reference"
  | repetition => "repeat"
  | giveBack => "return"
  | structLiteral => "struct"
  | tryOp => "try"
  | tryBlock => "try_block"
  | tuple => "tuple"
  | unary => "unary"
  | unknown => "unknown"
  | unsafeBlock => "unsafe"
  | verbatim => "verbatim"
  | whileLoop => "while"
  | yieldOut => "yield"

inductive Expr
  | path (p : Path)
  | projection (owner : Ty) (depth : Nat) (p : Path)
  | literal (l : Literal)
  | negated (operand : Expr)
  | paren (inner : Expr)
  | group (inner : Expr)
  | unit
  | attributed (attributes : Code) (inner : Expr)
  | other (kind : ExprKind) (content : Code)

namespace Expr

def kind : Expr → ExprKind
  | path _ | projection _ _ _ => .path
  | literal _ => .literal
  | negated _ => .unary
  | paren _ => .paren
  | group _ => .group
  | unit => .tuple
  | attributed _ inner => inner.kind
  | other k _ => k

def code : Expr → Code
  | path p => p.code
  | projection owner depth p => (Ty.projection owner depth p).code
  | literal l => l.tokens
  | negated operand => symbol '-' ++ operand.code
  | paren inner => parens inner.code
  | group inner => inner.code
  | unit => parens []
  | attributed attributes inner => attributes ++ inner.code
  | other _ content => content

def withAttributes (attributes : Code) (e : Expr) : Expr :=
  if attributes.isEmpty then e else attributed attributes e

def bare : Expr → Expr
  | attributed _ inner => inner.bare
  | e => e

/-- The expression without hidden groups around it; attributes of such groups go with them. -/
def ungrouped : Expr → Expr
  | group inner => inner.ungrouped
  | attributed _ (group inner) => inner.ungrouped
  | e => e

def integer? : Expr → Option Int
  | literal (.int text) => integerValue? text
  | negated operand => operand.integer?.map (-·)
  | paren inner | group inner | attributed _ inner => inner.integer?
  | _ => none

end Expr

end Statewright.Grammar
