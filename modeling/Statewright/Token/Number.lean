import Statewright.Text.Identifier

/-!
# Numbers in a text

How many characters a number takes at the head of a text. A fraction needs a digit or nothing
that could be a name behind its point; an exponent without digits is read as a suffix.
-/

namespace Statewright.Token

open Text

def wordLength : List Char → Nat
  | [] => 0
  | c :: rest => if isIdentStart c then (rest.takeWhile isIdentContinue).length + 1 else 0

def endsWord : List Char → Bool
  | [] => true
  | c :: _ => !isIdentContinue c

/-- Digits, separators and at most one point. Returns the length, whether a point was read,
and the rest, which is behind the exponent letter if the flag says so. -/
def mantissa (point : Bool) : List Char → Option (Nat × Bool × Bool × List Char)
  | [] => some (0, point, false, [])
  | c :: rest =>
    if c.isDigit || c == '_' then (mantissa point rest).map fun (n, r) => (n + 1, r)
    else if c == '.' then
      if point then some (0, point, false, c :: rest)
      else match rest with
        | d :: _ =>
          if d == '.' || isIdentStart d then none
          else (mantissa true rest).map fun (n, r) => (n + 1, r)
        | [] => some (1, true, false, [])
    else if c == 'e' || c == 'E' then some (1, point, true, rest)
    else some (0, point, false, c :: rest)

/-- Length of the exponent behind its letter, if it has a digit and at most one sign. -/
def exponent (signed valued : Bool) : List Char → Option Nat
  | [] => if valued then some 0 else none
  | c :: rest =>
    if c == '+' || c == '-' then
      if valued then some 0 else if signed then none else (exponent true valued rest).map (· + 1)
    else if c.isDigit then (exponent signed true rest).map (· + 1)
    else if c == '_' then (exponent signed valued rest).map (· + 1)
    else if valued then some 0 else none

def fractionDigits : List Char → Option Nat
  | [] => none
  | c :: rest =>
    if c.isDigit then
      match mantissa false (c :: rest) with
      | none => none
      | some (n, point, false, _) => if point then some n else none
      | some (n, point, true, behind) =>
        match exponent false false behind with
        | some m => some (n + m)
        | none => if point then some (n - 1) else none
    else none

def withSuffix (digits : Nat) (text : List Char) : Option Nat :=
  let n := digits + wordLength (text.drop digits)
  if endsWord (text.drop n) then some n else none

def digitValue? (c : Char) : Option Nat :=
  if c.isDigit then some (c.toNat - 48)
  else if 'a' ≤ c ∧ c ≤ 'f' then some (c.toNat - 87)
  else if 'A' ≤ c ∧ c ≤ 'F' then some (c.toNat - 55)
  else none

def radix : List Char → Nat × Nat
  | '0' :: 'x' :: _ => (16, 2)
  | '0' :: 'o' :: _ => (8, 2)
  | '0' :: 'b' :: _ => (2, 2)
  | _ => (10, 0)

/-- Length of integer digits; `empty` until the first digit. A decimal digit too large for the
radix is an error, a letter ends the number. -/
def integerDigits (base : Nat) (empty : Bool) : List Char → Option Nat
  | [] => if empty then none else some 0
  | c :: rest =>
    if c == '_' then
      if empty && base == 10 then none else (integerDigits base empty rest).map (· + 1)
    else match digitValue? c with
      | some v =>
        if v < base then (integerDigits base false rest).map (· + 1)
        else if c.isDigit then none
        else if empty then none else some 0
      | none => if empty then none else some 0

def numberLength? (text : List Char) : Option Nat :=
  ((fractionDigits text).bind (withSuffix · text)).or
    (let (base, skip) := radix text
     (integerDigits base true (text.drop skip)).bind fun n => withSuffix (skip + n) text)

end Statewright.Token
