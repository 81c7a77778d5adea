import Statewright.Declaration.Problem
import Statewright.Grammar.Reading
import Statewright.Hierarchy
import Statewright.Token.Lexer
import Statewright.Variant

/-!
# Values of arguments

Each kind of value accepts an expression, seen through hidden groups, or a string that is read as
the same thing again. What a string yields has the place of the string.
-/

namespace Statewright.Declaration

open Grammar

structure Reference where
  expr : Expr
  pos : Position

namespace Reference

def display (r : Reference) : String :=
  match r.expr.bare with
  | .path p | .projection _ _ p => "::".intercalate p.names
  | .literal (.int text) => text
  | .literal (.string text) => (decodeString text).1
  | .literal l => Token.flat l.tokens
  | _ => Token.compact r.expr.code

end Reference

/-- Reads the decoded text of a string literal; all of it has the literal's place. -/
def reread? {α : Type} (p : Parser α) (literal : String) (pos : Position) : Option α :=
  let (text, suffix) := decodeString literal
  if suffix.isEmpty then (Token.trees? text).bind fun trees => p.onAll (Tree.allMovedTo pos trees)
  else none

structure Value where
  expr : Expr
  pos : Position

def Value.content (v : Value) : Expr := v.expr.ungrouped.bare

abbrev Reader (α : Type) := Value → Except Problem α

def wrongLiteral {α : Type} (l : Literal) : Except Problem α := .error (.wrongType l.kindName)

def wrongExpr {α : Type} (e : Expr) : Except Problem α := .error (.wrongType e.kind.name)

def orUnreadable {α : Type} : Option α → Except Problem α
  | some a => .ok a
  | none => .error .unreadable

def reference : Reader Reference := fun v =>
  match v.content with
  | .literal (.string text) =>
    orUnreadable ((reread? Parser.expr text v.pos).map fun e => ⟨e, v.pos⟩)
  | .literal l => .ok ⟨.literal l, v.pos⟩
  | _ => .ok ⟨v.expr.ungrouped, v.pos⟩

def typePath : Reader Path := fun v =>
  match v.content with
  | .path p | .projection _ _ p => .ok p
  | .literal (.string text) =>
    match Token.trees? (decodeString text).1 with
    | some trees => orUnreadable (Parser.onAll Parser.typePath trees)
    | none => .error .unreadable
  | .literal l => wrongLiteral l
  | e => wrongExpr e

def payloadType : Reader Ty := fun v =>
  match v.content with
  | .path p => .ok (.path p)
  | .projection owner depth p => .ok (.projection owner depth p)
  | .unit => .ok .unit
  | .literal (.string text) => orUnreadable (reread? Parser.type text v.pos)
  | .literal l => wrongLiteral l
  | e => wrongExpr e

def methodName : Reader String := fun v =>
  match v.content with
  | .path p =>
    match p.word? with
    | some name => .ok name
    | none => .error .noMethodName
  | .projection _ _ _ => .error .noMethodName
  | .literal (.string text) => orUnreadable (reread? Parser.ident text v.pos)
  | .literal l => wrongLiteral l
  | e => wrongExpr e

/-- A name from a closed list: a path or a string; hidden groups are not opened. -/
def choice {α : Type} (ofText? : String → Option α) : Reader α := fun v =>
  let known (text : String) : Except Problem α :=
    match ofText? text with
    | some a => .ok a
    | none => .error (.unknownValue text)
  match v.expr.bare with
  | .path p | .projection _ _ p => known ((p.last?.map Segment.ident).getD "")
  | .literal (.string text) => known (decodeString text).1
  | .literal l => wrongLiteral l
  | e => wrongExpr e

def variant : Reader Variant := choice Variant.ofText?

def historyMode : Reader HistoryMode := choice HistoryMode.ofText?

def truth : Reader Bool := fun v =>
  match v.content with
  | .literal (.bool b) => .ok b
  | .literal (.string text) =>
    match (decodeString text).1 with
    | "true" => .ok true
    | "false" => .ok false
    | other => .error (.unknownValue other)
  | .literal l => wrongLiteral l
  | e => wrongExpr e

end Statewright.Declaration
