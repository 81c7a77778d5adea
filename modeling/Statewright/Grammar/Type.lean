import Statewright.Token

/-!
# Types

Types as written, with the hidden groups around them kept. Parts that no rule looks into
(array lengths, function pointers, calls of code generators) are kept as code.
-/

namespace Statewright.Grammar

mutual

inductive Ty
  | path (p : Path)
  /-- `<owner as a::b>::c`: the first `depth` segments of the path stand inside the brackets. -/
  | projection (owner : Ty) (depth : Nat) (p : Path)
  | reference (lifetime : Option String) (mutable : Bool) (target : Ty)
  | pointer (mutable : Bool) (target : Ty)
  | tuple (elements : List Ty) (trailing : Bool)
  | paren (inner : Ty)
  | group (inner : Ty)
  | slice (element : Ty)
  | array (element : Ty) (length : Code)
  | implBound (bounds : List Bound) (trailing : Bool)
  | object (keyword : Bool) (bounds : List Bound) (trailing : Bool)
  | never
  | infer
  | other (content : Code)

inductive Path
  | mk (absolute : Bool) (segments : List Segment)

inductive Segment
  | mk (ident : String) (arguments : Arguments)

inductive Arguments
  | none
  | angle (turbofish : Bool) (arguments : List Argument) (trailing : Bool)
  | call (inputs : List Ty) (trailing : Bool) (output : Option Ty)

inductive Argument
  | lifetime (text : String)
  | type (ty : Ty)
  | value (content : Code)
  | binding (name : String) (arguments : Arguments) (ty : Ty)
  | bindingValue (name : String) (arguments : Arguments) (content : Code)
  | constraint (name : String) (arguments : Arguments) (bounds : List Bound) (trailing : Bool)

inductive Bound
  | lifetime (text : String)
  | trait (parenthesized : Bool) (modifiers : Code) (p : Path)
  | capture (content : Code)
  | other (content : Code)

end

namespace Segment

def ident : Segment → String
  | mk i _ => i

def arguments : Segment → Arguments
  | mk _ a => a

end Segment

namespace Path

def absolute : Path → Bool
  | mk a _ => a

def segments : Path → List Segment
  | mk _ s => s

def word (name : String) : Path := mk false [.mk name .none]

def last? (p : Path) : Option Segment := p.segments.getLast?

def word? (p : Path) : Option String :=
  match p with
  | mk false [.mk name .none] => some name
  | _ => none

def names (p : Path) : List String := p.segments.map Segment.ident

end Path

/-! ## Printing -/

def Argument.isLifetime : Argument → Bool
  | .lifetime _ => true
  | _ => false

def orderedArguments (entries : List (Bool × Code)) (trailing : Bool) : Code :=
  let withComma := entries.zipIdx.map fun ((early, c), i) =>
    (early, c, i + 1 < entries.length || trailing)
  let sorted := withComma.filter (·.1) ++ withComma.filter (!·.1)
  go true sorted
where
  go : Bool → List (Bool × Code × Bool) → Code
    | _, [] => []
    | separated, (early, c, comma) :: rest =>
      (if !separated && !early then symbol ',' else []) ++ c ++ (if comma then symbol ',' else []) ++
        go comma rest

mutual

def Ty.code : Ty → Code
  | .path p => p.code
  | .projection owner depth p =>
    match p with
    | .mk absolute segments =>
      let names := Segment.codes segments
      let lead : Code := if absolute then colons else []
      if depth = 0 then
        symbol '<' ++ owner.code ++ symbol '>' ++ lead ++ punctuated colons false names
      else
        symbol '<' ++ owner.code ++ word "as" ++ lead ++ punctuated colons false (names.take depth) ++
          symbol '>' ++ (names.drop depth).flatMap (colons ++ ·)
  | .reference lifetime mutable target =>
    symbol '&' ++ (lifetime.map fun l => [Token.lifetime l]).getD [] ++
      (if mutable then word "mut" else []) ++ target.code
  | .pointer mutable target => symbol '*' ++ word (if mutable then "mut" else "const") ++ target.code
  | .tuple elements trailing => parens (punctuated [','] trailing (Ty.codes elements))
  | .paren inner => parens inner.code
  | .group inner => inner.code
  | .slice element => brackets element.code
  | .array element length => brackets (element.code ++ symbol ';' ++ length)
  | .implBound bounds trailing => word "impl" ++ punctuated ['+'] trailing (Bound.codes bounds)
  | .object keyword bounds trailing =>
    (if keyword then word "dyn" else []) ++ punctuated ['+'] trailing (Bound.codes bounds)
  | .never => symbol '!'
  | .infer => word "_"
  | .other content => content

def Ty.codes : List Ty → List Code
  | [] => []
  | t :: rest => t.code :: Ty.codes rest

def Path.code : Path → Code
  | .mk absolute segments =>
    (if absolute then colons else []) ++ punctuated colons false (Segment.codes segments)

def Segment.code : Segment → Code
  | .mk ident arguments => .ident ident :: arguments.code

def Segment.codes : List Segment → List Code
  | [] => []
  | s :: rest => s.code :: Segment.codes rest

def Arguments.code : Arguments → Code
  | .none => []
  | .angle turbofish arguments trailing =>
    (if turbofish then colons else []) ++ symbol '<' ++
      orderedArguments (Argument.codes arguments) trailing ++ symbol '>'
  | .call inputs trailing output =>
    parens (punctuated [','] trailing (Ty.codes inputs)) ++
      (match output with
        | some t => arrow ++ t.code
        | none => [])

def Argument.codes : List Argument → List (Bool × Code)
  | [] => []
  | a :: rest => (a.isLifetime, a.code) :: Argument.codes rest

def Argument.code : Argument → Code
  | .lifetime text => [Token.lifetime text]
  | .type ty => ty.code
  | .value content => content
  | .binding name arguments ty => .ident name :: arguments.code ++ symbol '=' ++ ty.code
  | .bindingValue name arguments content => .ident name :: arguments.code ++ symbol '=' ++ content
  | .constraint name arguments bounds trailing =>
    .ident name :: arguments.code ++ symbol ':' ++ punctuated ['+'] trailing (Bound.codes bounds)

def Bound.code : Bound → Code
  | .lifetime text => [Token.lifetime text]
  | .trait parenthesized modifiers p =>
    if parenthesized then parens (modifiers ++ p.code) else modifiers ++ p.code
  | .capture content | .other content => content

def Bound.codes : List Bound → List Code
  | [] => []
  | b :: rest => b.code :: Bound.codes rest

end

def Ty.text (t : Ty) : String := Token.compact t.code

def Ty.flat (t : Ty) : String := Token.flat t.code

namespace Ty

def unit : Ty := tuple [] false

def named (name : String) : Ty := path (.word name)

def ungrouped : Ty → Ty
  | group inner => inner.ungrouped
  | t => t

def lastSegment? : Ty → Option Segment
  | path p => p.last?
  | group inner => inner.lastSegment?
  | _ => none

end Ty

def Segment.typeArguments (s : Segment) : List Ty :=
  match s.arguments with
  | .angle _ arguments _ => arguments.filterMap fun
    | .type t => some t
    | _ => none
  | _ => []

/-! ## Sameness -/

/-- Whether two types are written alike: the same text, blanks aside, or two paths whose last
segments have the same name and the same arguments. -/
def Ty.same (a b : Ty) : Bool :=
  a.text == b.text ||
    match lastWritten? a, lastWritten? b with
    | some s, some t => s.ident == t.ident && s.arguments.code == t.arguments.code
    | _, _ => false
where
  lastWritten? : Ty → Option Segment
    | .path p | .projection _ _ p => p.last?
    | _ => none

end Statewright.Grammar
