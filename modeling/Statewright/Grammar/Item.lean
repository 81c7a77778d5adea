import Statewright.Grammar.Expr
import Statewright.Grammar.Generics
import Statewright.Token.Tree

/-!
# Items

A module is a list of items. Structs and inherent implementations are kept apart far enough to
read declarations from them and to print them again with fields added or attributes removed;
every other item keeps its code.
-/

namespace Statewright.Grammar

inductive AttributeInput
  | word
  | list (content : List Tree)
  | value (e : Expr) (pos : Position)

structure Attribute where
  pos : Position
  path : Path
  input : AttributeInput
  code : Code

def Attribute.isNamed (a : Attribute) (name : String) : Bool := a.path.word? == some name

structure NamedField where
  front : Code := []
  name : String
  ty : Ty

def NamedField.code (f : NamedField) : Code := f.front ++ word f.name ++ symbol ':' ++ f.ty.code

inductive Fields
  | named (fields : List NamedField) (trailing : Bool)
  | unit
  | tuple (content : Code)

structure Struct where
  attributes : List Attribute
  visibility : Code
  name : String
  pos : Position
  generics : Generics
  fields : Fields

namespace Struct

def code (s : Struct) : Code :=
  s.attributes.flatMap Attribute.code ++ s.visibility ++ word "struct" ++ word s.name ++
    s.generics.code ++
    match s.fields with
    | .named fields trailing =>
      s.generics.predicateCode ++ braces (punctuated (symbol ',') trailing (fields.map NamedField.code))
    | .unit => s.generics.predicateCode ++ symbol ';'
    | .tuple content => parens content ++ s.generics.predicateCode ++ symbol ';'

/-- Adds fields behind the struct's own; a tuple struct stays as it is. -/
def withFields (s : Struct) (added : List NamedField) : Struct :=
  match s.fields with
  | .named fields trailing =>
    { s with fields := .named (fields ++ added) (trailing && added.isEmpty) }
  | .unit => { s with fields := .named added false }
  | .tuple _ => s

end Struct

structure Member where
  name : String
  pos : Position
  discriminant : Option Expr

structure Enum where
  name : String
  members : List Member
  code : Code

inductive Receiver
  | none
  | shared
  | exclusive
  | owned
  deriving DecidableEq, Repr

structure Method where
  attributes : List Attribute
  innerAttributes : List Attribute
  front : Code
  name : String
  generics : Generics
  inputs : Code
  receiver : Receiver
  parameters : List Ty
  output : Option Ty
  isAsync : Bool
  body : Code

def Method.code (m : Method) : Code :=
  m.attributes.flatMap Attribute.code ++ m.front ++ word m.name ++ m.generics.code ++
    parens m.inputs ++ (m.output.map fun t => arrow ++ t.code).getD [] ++
    m.generics.predicateCode ++ braces (m.innerAttributes.flatMap Attribute.code ++ m.body)

inductive Associated
  | method (m : Method)
  | other (code : Code)

def Associated.code : Associated → Code
  | method m => m.code
  | other c => c

structure Implementation where
  attributes : Code
  front : Code
  generics : Generics
  traitFront : Option Code
  owner : Ty
  innerAttributes : Code
  entries : List Associated

def Implementation.code (i : Implementation) : Code :=
  i.attributes ++ i.front ++ i.generics.code ++ i.traitFront.getD [] ++ i.owner.code ++
    i.generics.predicateCode ++ braces (i.innerAttributes ++ i.entries.flatMap Associated.code)

inductive Item
  | struct (s : Struct)
  | enum (e : Enum)
  | implementation (i : Implementation)
  | typeItem (name : String) (code : Code)
  | other (code : Code)

def Item.code : Item → Code
  | struct s => s.code
  | enum e => e.code
  | implementation i => i.code
  | typeItem _ c => c
  | other c => c

structure Module where
  attributes : Code
  front : Code
  name : String
  innerAttributes : Code
  items : Option (List Item)

def Module.code (m : Module) : Code :=
  m.attributes ++ m.front ++ word m.name ++
    match m.items with
    | some items => braces (m.innerAttributes ++ items.flatMap Item.code)
    | none => symbol ';'

end Statewright.Grammar
