import Statewright.Grammar.Type

/-!
# Generic parameters

A declaration prints its parameters in three ways: in full, as the header of an implementation
(without defaults) and as the arguments of its own type (names only). Lifetimes come first in each.
-/

namespace Statewright.Grammar

inductive ParameterKind
  | lifetime
  | type
  | const
  deriving DecidableEq, Repr

structure Parameter where
  kind : ParameterKind
  attributes : Code := []
  name : Code
  bounds : Code := []
  fallback : Code := []

namespace Parameter

def header (p : Parameter) : Code :=
  p.attributes ++ (if p.kind = .const then word "const" else []) ++ p.name ++ p.bounds

def code (p : Parameter) : Code := p.header ++ p.fallback

end Parameter

structure Generics where
  parameters : List Parameter := []
  trailing : Bool := false
  predicates : List Code := []
  predicatesTrailing : Bool := false

namespace Generics

/-- Parameters in angle brackets, each printed by `print`; nothing if there are none. -/
def bracketed (g : Generics) (print : Parameter → Code) : Code :=
  if g.parameters.isEmpty then []
  else
    symbol '<' ++
      orderedArguments (g.parameters.map fun p => (p.kind = .lifetime, print p)) g.trailing ++
      symbol '>'

def code (g : Generics) : Code := g.bracketed Parameter.code

def headers (g : Generics) : Code := g.bracketed Parameter.header

def arguments (g : Generics) : Code := g.bracketed Parameter.name

def predicateCode (g : Generics) : Code :=
  if g.predicates.isEmpty then []
  else word "where" ++ punctuated (symbol ',') g.predicatesTrailing g.predicates

end Generics

end Statewright.Grammar
