import Statewright.Text.Quoted

/-!
# Tokens

Code is a flat list of tokens; a delimited group is its opening mark, its content and its closing
mark. Two printed forms: the *flat* text, one blank between tokens, and the *lines*, cut after
every brace and semicolon.
-/

namespace Statewright

inductive Delimiter
  | paren
  | bracket
  | brace
  deriving DecidableEq, Repr

namespace Delimiter

def opening : Delimiter → Char
  | paren => '('
  | bracket => '['
  | brace => '\x7b'

def closing : Delimiter → Char
  | paren => ')'
  | bracket => ']'
  | brace => '\x7d'

end Delimiter

inductive Token
  | ident (text : String)
  | lifetime (text : String)
  /-- One punctuation character. Where code is carried through as written, `joint` tells that
  another one follows at once. -/
  | mark (char : Char) (joint : Bool := false)
  | literal (text : String)
  | opening (delimiter : Delimiter)
  | closing (delimiter : Delimiter)
  deriving DecidableEq, Repr

namespace Token

instance : Coe String Token := ⟨.ident⟩
instance : Coe Char Token := ⟨fun c => .mark c⟩

def text : Token → String
  | ident s | lifetime s | literal s => s
  | mark c _ => c.toString
  | opening d => d.opening.toString
  | closing d => d.closing.toString

def endsLine : Token → Bool
  | opening .brace | closing .brace => true
  | mark c _ => c == ';'
  | _ => false

def flat (tokens : List Token) : String := " ".intercalate (tokens.map text)

def compact (tokens : List Token) : String :=
  String.ofList ((flat tokens).toList.filter (· != ' '))

def splitLines : List Token → List (List Token)
  | [] => []
  | t :: rest =>
    if t.endsLine then [t] :: splitLines rest
    else match splitLines rest with
      | [] => [[t]]
      | line :: lines => (t :: line) :: lines

def lines (tokens : List Token) : List String := (splitLines tokens).map flat

end Token

abbrev Code := List Token

def symbol (char : Char) : Code := [.mark char]

def word (text : String) : Code := [.ident text]

def code (pieces : List Code) : Code := pieces.flatten

def delimited (d : Delimiter) (content : Code) : Code :=
  .opening d :: content ++ [.closing d]

def parens (content : Code) : Code := delimited .paren content
def brackets (content : Code) : Code := delimited .bracket content
def braces (content : Code) : Code := delimited .brace content

def colons : Code := [':', ':']

def arrow : Code := ['-', '>']

def fatArrow : Code := ['=', '>']

def pathOf : List String → Code
  | [] => []
  | [word] => [.ident word]
  | word :: rest => .ident word :: colons ++ pathOf rest

def absolutePath (words : List String) : Code := colons ++ pathOf words

/-- Entries with `separator` between neighbours, and behind the last one if `trailing`. -/
def punctuated (separator : Code) (trailing : Bool) : List Code → Code
  | [] => []
  | [entry] => if trailing then entry ++ separator else entry
  | entry :: rest => entry ++ separator ++ punctuated separator trailing rest

def commaSeparated (entries : List Code) : Code := punctuated [','] false entries

def commaTerminated (entries : List Code) : Code := punctuated [','] true entries

def textLiteral (value : String) : Token := .literal (Text.quoted value)

end Statewright
