import Statewright.Token
import Statewright.Token.Number

/-!
# Literals

A literal keeps the text it was written with. The text decides its kind, the value of a string
and the value of an integer.
-/

namespace Statewright.Grammar

open Text Token

inductive Literal
  | string (text : String)
  | byteString (text : String)
  | cString (text : String)
  | byte (text : String)
  | char (text : String)
  | int (text : String)
  | float (text : String)
  | bool (value : Bool)
  | unread (text : String)
  deriving DecidableEq, Repr

/-! ## Integers -/

def opensExponent : List Char → Bool
  | '_' :: rest => opensExponent rest
  | c :: _ => c == '+' || c == '-' || c.isDigit
  | [] => false

/-- The value of digits in `base`, separators dropped, with the suffix behind them; nothing for
text that goes on as a fraction. `value` is none until the first digit. -/
def digitsValue (base : Nat) (value : Option Nat) : List Char → Option (Nat × List Char)
  | [] => value.map (·, [])
  | '_' :: rest => digitsValue base value rest
  | c :: rest =>
    match digitValue? c with
    | some v =>
      if v < base then digitsValue base (some (value.getD 0 * base + v)) rest
      else if c.isDigit then none
      else if base == 10 && (c == 'e' || c == 'E') && opensExponent rest then none
      else value.map (·, c :: rest)
    | none => if base == 10 && c == '.' then none else value.map (·, c :: rest)

/-- The value an integer text denotes and its suffix, whatever its size. -/
def integer? (text : String) : Option (Int × String) :=
  let signed := match text.toList with
    | '-' :: rest => (true, rest)
    | chars => (false, chars)
  let (base, skip) := radix signed.2
  match signed.2 with
  | c :: _ =>
    if c.isDigit then
      (digitsValue base none (signed.2.drop skip)).map fun (n, suffix) =>
        (if signed.1 then -(n : Int) else (n : Int), String.ofList suffix)
    else none
  | [] => none

def leastValue : Int := -Int.pow 2 127
def greatestValue : Int := Int.pow 2 127 - 1

def integerValue? (text : String) : Option Int :=
  (integer? text).bind fun (v, _) => if leastValue ≤ v ∧ v ≤ greatestValue then some v else none

/-! ## Strings -/

/-- Joins lines: a backslash at the end of a line goes, and with it the spaces, tabs and line ends
behind it. `margin` holds while these are dropped. -/
def joinLines : Bool → List Char → List Char
  | _, [] => []
  | _, ['\\'] => ['\\']
  | _, '\\' :: '\n' :: rest => joinLines true rest
  | _, '\\' :: '\r' :: rest => joinLines true rest
  | _, '\\' :: c :: rest => '\\' :: c :: joinLines false rest
  | margin, c :: rest =>
    if margin && [' ', '\t', '\n', '\r'].contains c then joinLines true rest else c :: joinLines false rest

def unescaped : Char → Char
  | 'n' => '\n'
  | 'r' => '\r'
  | 't' => '\t'
  | '0' => '\x00'
  | c => c

/-- The value of a quoted string behind its opening quote, and the suffix behind the closing one.
`point` holds the digits read so far inside the braces of a code point escape. -/
def decodeQuoted : Option Nat → List Char → List Char × List Char
  | _, [] => ([], [])
  | some point, c :: rest =>
    if c == '\x7d' then
      let (body, suffix) := decodeQuoted none rest
      (Char.ofNat point :: body, suffix)
    else match digitValue? c with
      | some v => decodeQuoted (some (point * 16 + v)) rest
      | none => decodeQuoted (some point) rest
  | none, '"' :: rest => ([], rest)
  | none, '\r' :: '\n' :: rest =>
    let (body, suffix) := decodeQuoted none rest
    ('\n' :: body, suffix)
  | none, '\\' :: 'x' :: a :: b :: rest =>
    let (body, suffix) := decodeQuoted none rest
    (Char.ofNat ((digitValue? a).getD 0 * 16 + (digitValue? b).getD 0) :: body, suffix)
  | none, '\\' :: 'u' :: '\x7b' :: rest => decodeQuoted (some 0) rest
  | none, '\\' :: c :: rest =>
    let (body, suffix) := decodeQuoted none rest
    (unescaped c :: body, suffix)
  | none, c :: rest =>
    let (body, suffix) := decodeQuoted none rest
    (c :: body, suffix)

def decodeRaw (hashes : Nat) : List Char → List Char × List Char
  | [] => ([], [])
  | c :: rest =>
    if c == '"' && rest.take hashes == List.replicate hashes '#' then ([], rest.drop hashes)
    else
      let (body, suffix) := decodeRaw hashes rest
      (c :: body, suffix)

def decodeString (text : String) : String × String :=
  let (body, suffix) := match text.toList with
    | 'r' :: rest =>
      let hashes := (rest.takeWhile (· == '#')).length
      decodeRaw hashes (rest.drop (hashes + 1))
    | '"' :: rest => decodeQuoted none (joinLines false rest)
    | chars => (chars, [])
  (String.ofList body, String.ofList suffix)

namespace Literal

/-- The kind of a literal decided by its first characters; a number that is no integer is a
float. -/
def ofText (text : String) : Literal :=
  match text.toList with
  | '"' :: _ | 'r' :: _ => string text
  | 'b' :: '\'' :: _ => byte text
  | 'b' :: _ => byteString text
  | 'c' :: _ => cString text
  | '\'' :: _ => char text
  | '(' :: _ => unread text
  | _ => if (integer? text).isSome then int text else float text

/-- The token of a literal; a sign is a token of its own. -/
def tokens : Literal → Code
  | bool value => [.ident (if value then "true" else "false")]
  | string s | byteString s | cString s | byte s | char s | unread s => [.literal s]
  | int s | float s =>
    match s.toList with
    | '-' :: rest => [.mark '-', .literal (String.ofList rest)]
    | _ => [.literal s]

def kindName : Literal → String
  | string _ => "string"
  | byteString _ => "byte string"
  | cString _ => "unknown"
  | byte _ => "byte"
  | char _ => "char"
  | int _ => "int"
  | float _ => "float"
  | bool _ => "bool"
  | unread _ => "verbatim"

def string? : Literal → Option String
  | string s => some (decodeString s).1
  | _ => none

end Literal

end Statewright.Grammar
