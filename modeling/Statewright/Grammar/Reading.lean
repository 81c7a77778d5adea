import Statewright.Grammar.Parser.Item
import Statewright.Grammar.Parser.Statement

/-!
# Reading code

The parsers of the parts of a program that can be read on their own. What stands inside another
part takes at least one tree less, so the number of trees bounds the nesting.
-/

namespace Statewright.Grammar.Parser

def nested : Nat → Inner
  | 0 => .none
  | n + 1 =>
    { type := fun plus groupArguments => typeWith (nested n) plus groupArguments
      argument := fun s => argumentWith (nested n) s
      parameter := fun s => parameter (nested n) false s
      expr := fun structs => exprWith (nested n) structs
      operand := fun structs => operandWith (nested n) structs
      rightSide := fun structs level => rightSideWith (nested n) structs level
      body := fun s => bodyWith (nested n) s
      pattern := fun s => patternWith (nested n) s
      statements := fun s => statementsWith (nested n) s
      item := fun s => (itemWith (nested n) s).map fun (_, t) => ((), t)
      useTree := fun allowRoot => useTreeWith (nested n) allowRoot }

def deep {α : Type} (p : Inner → Parser α) : Parser α := do p (nested (← fuel))

def type : Parser Ty := deep Inner.anyType

def typePath : Parser Path := deep fun inner => path inner false

def expr : Parser Expr := deep fun inner => inner.expr true

def attributes : Parser (List Attribute) := deep outerAttributes

def attributeForm : Parser AttributeInput := deep attributeInput

def generics : Parser Generics := deep genericParameters

def wherePredicates (g : Generics) : Parser Generics := deep fun inner => predicatesOf inner g

def item : Parser Item := deep itemWith

def method : Parser Method := deep methodWith

def module : Parser Module := deep moduleWith

end Statewright.Grammar.Parser
