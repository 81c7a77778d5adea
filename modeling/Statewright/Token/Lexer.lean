import Statewright.Token.Number
import Statewright.Token.Tree

/-!
# Reading tokens

A text is read from the left: blanks and comments are dropped, documentation comments become
attributes, and the longest lexeme at the head is cut off. Every scanner answers with the number
of characters its lexeme takes.
-/

namespace Statewright.Token

open Text

/-! ## Quoted lexemes -/

inductive QuoteKind
  | text
  | bytes
  | terminated
  deriving DecidableEq

inductive QuoteState
  | plain
  | point (length value : Nat)

def byteEscape (kind : QuoteKind) (high low : Char) : Bool :=
  match digitValue? high, digitValue? low with
  | some h, some l =>
    match kind with
    | .text => h < 8
    | .bytes => true
    | .terminated => h != 0 || l != 0
  | _, _ => false

def letterEscape (kind : QuoteKind) (c : Char) : Bool :=
  ['n', 'r', 't', '\\', '\'', '"'].contains c || (c == '0' && kind != .terminated)

def isScalar (value : Nat) : Bool := value < 0xD800 || (0xDFFF < value && value < 0x110000)

def plainAllowed (kind : QuoteKind) (c : Char) : Bool :=
  match kind with
  | .text => true
  | .bytes => c.toNat < 128
  | .terminated => c != '\x00'

def quotedLength (kind : QuoteKind) : QuoteState → List Char → Option Nat
  | _, [] => none
  | .point n value, c :: rest =>
    if c == '_' && n > 0 then (quotedLength kind (.point n value) rest).map (· + 1)
    else if c == '\x7d' && n > 0 then
      if isScalar value && (kind != .terminated || value != 0) then
        (quotedLength kind .plain rest).map (· + 1)
      else none
    else match digitValue? c with
      | some v =>
        if n == 6 then none
        else (quotedLength kind (.point (n + 1) (value * 16 + v)) rest).map (· + 1)
      | none => none
  | .plain, '"' :: _ => some 1
  | .plain, '\r' :: '\n' :: rest => (quotedLength kind .plain rest).map (· + 2)
  | .plain, '\r' :: _ => none
  | .plain, '\\' :: 'x' :: a :: b :: rest =>
    if byteEscape kind a b then (quotedLength kind .plain rest).map (· + 4) else none
  | .plain, '\\' :: 'u' :: '\x7b' :: rest =>
    if kind == .bytes then none else (quotedLength kind (.point 0 0) rest).map (· + 3)
  | .plain, '\\' :: '\n' :: rest => (quotedLength kind .plain rest).map (· + 2)
  | .plain, '\\' :: '\r' :: '\n' :: rest => (quotedLength kind .plain rest).map (· + 3)
  | .plain, '\\' :: c :: rest =>
    if letterEscape kind c then (quotedLength kind .plain rest).map (· + 2) else none
  | .plain, c :: rest =>
    if c == '\\' then none
    else if plainAllowed kind c then (quotedLength kind .plain rest).map (· + 1) else none

def rawLength (kind : QuoteKind) (hashes : Nat) : List Char → Option Nat
  | [] => none
  | '\r' :: '\n' :: rest => (rawLength kind hashes rest).map (· + 2)
  | c :: rest =>
    if c == '"' && (rest.take hashes) == List.replicate hashes '#' then some (hashes + 1)
    else if c == '\r' || !plainAllowed kind c then none
    else (rawLength kind hashes rest).map (· + 1)

def rawTail (kind : QuoteKind) (text : List Char) : Option Nat :=
  let hashes := (text.takeWhile (· == '#')).length
  if hashes > 255 then none
  else match text.drop hashes with
    | '"' :: rest => (rawLength kind hashes rest).map (· + hashes + 1)
    | _ => none

def charLength (kind : QuoteKind) : List Char → Option Nat
  | '\\' :: 'x' :: a :: b :: _ => if byteEscape kind a b then some 4 else none
  | '\\' :: 'u' :: '\x7b' :: rest =>
    if kind == .bytes then none
    else
      let body := rest.takeWhile (· != '\x7d')
      -- the escape is read as inside a literal that ends right behind it
      (quotedLength kind (.point 0 0) (body ++ ['\x7d', '"'])).map fun _ => body.length + 4
  | '\\' :: c :: _ => if letterEscape kind c then some 2 else none
  | '\\' :: _ => none
  | c :: _ => if plainAllowed kind c then some 1 else none
  | [] => none

def charTail (kind : QuoteKind) (text : List Char) : Option Nat :=
  (charLength kind text).bind fun n =>
    match text.drop n with
    | '\'' :: _ => some (n + 1)
    | _ => none

def literalLength? (text : List Char) : Option Nat :=
  let suffixed (skip : Nat) (tail : Option Nat) : Option Nat :=
    tail.map fun n => skip + n + wordLength (text.drop (skip + n))
  match text with
  | '"' :: rest => suffixed 1 (quotedLength .text .plain rest)
  | 'r' :: rest => suffixed 1 (rawTail .text rest)
  | 'b' :: '"' :: rest => suffixed 2 (quotedLength .bytes .plain rest)
  | 'b' :: 'r' :: rest => suffixed 2 (rawTail .bytes rest)
  | 'c' :: '"' :: rest => suffixed 2 (quotedLength .terminated .plain rest)
  | 'c' :: 'r' :: rest => suffixed 2 (rawTail .terminated rest)
  | 'b' :: '\'' :: rest => suffixed 2 (charTail .bytes rest)
  | '\'' :: rest => suffixed 1 (charTail .text rest)
  | _ => numberLength? text

/-- What stands for code that could not be read; it counts as a literal. -/
def unreadMark : List Char := "(/*ERROR*/)".toList

/-! ## Words and marks -/

def identLength? (text : List Char) : Option Nat :=
  match text with
  | 'r' :: '#' :: rest =>
    let n := wordLength rest
    let word := String.ofList (rest.take n)
    if n = 0 || ["_", "super", "self", "Self", "crate"].contains word then none else some (n + 2)
  | _ =>
    let n := wordLength text
    if n = 0 then none else some n

def literalOpenings : List String :=
  ["r\"", "r#\"", "r##", "b\"", "b'", "br\"", "br#", "c\"", "cr\"", "cr#"]

def opensLiteral (text : List Char) : Bool :=
  literalOpenings.any fun p => p.toList.isPrefixOf text

def markChars : List Char := "~!@#$%^&*-=+|;:,<.>/?'".toList

/-- The punctuation character at the head, unless it opens a comment. -/
def markAt? : List Char → Option Char
  | '/' :: '/' :: _ | '/' :: '*' :: _ => none
  | c :: _ => if markChars.contains c then some c else none
  | [] => none

def lifetimeTail (text : List Char) : Option Nat :=
  (identLength? text).bind fun n =>
    match text.drop n with
    | '\'' :: _ => none
    | '#' :: _ => if ['r', '#'].isPrefixOf text then some n else none
    | _ => some n

/-! ## Blanks and comments -/

def lineLength : List Char → Nat
  | [] => 0
  | '\n' :: _ => 0
  | '\r' :: '\n' :: _ => 0
  | _ :: rest => lineLength rest + 1

def commentLength : Nat → List Char → Option Nat
  | _, [] => none
  | depth, '/' :: '*' :: rest => (commentLength (depth + 1) rest).map (· + 2)
  | depth, '*' :: '/' :: rest =>
    if depth ≤ 1 then some 2 else (commentLength (depth - 1) rest).map (· + 2)
  | depth, _ :: rest => (commentLength depth rest).map (· + 1)

def blankLength (text : List Char) : Nat :=
  match text with
  | '/' :: '/' :: '/' :: '/' :: _ => lineLength text
  | '/' :: '/' :: '/' :: _ | '/' :: '/' :: '!' :: _ => 0
  | '/' :: '/' :: _ => lineLength text
  | '/' :: '*' :: '*' :: '/' :: _ => 4
  | '/' :: '*' :: '*' :: '*' :: rest => ((commentLength 1 ('*' :: '*' :: rest)).map (· + 2)).getD 0
  | '/' :: '*' :: '*' :: _ | '/' :: '*' :: '!' :: _ => 0
  | '/' :: '*' :: rest => ((commentLength 1 rest).map (· + 2)).getD 0
  | c :: _ => if isBlank c then 1 else 0
  | [] => 0

def hasLoneReturn : List Char → Bool
  | [] => false
  | '\r' :: '\n' :: rest => hasLoneReturn rest
  | c :: rest => c == '\r' || hasLoneReturn rest

def docComment? (text : List Char) : Option (Nat × List Char × Bool) :=
  let line (inner : Bool) : Option (Nat × List Char × Bool) :=
    let n := lineLength (text.drop 3)
    some (n + 3, (text.drop 3).take n, inner)
  let block (inner : Bool) : Option (Nat × List Char × Bool) :=
    (commentLength 1 (text.drop 2)).map fun n => (n + 2, (text.drop 3).take (n - 3), inner)
  let found := match text with
    | '/' :: '/' :: '!' :: _ => line true
    | '/' :: '*' :: '!' :: _ => block true
    | '/' :: '/' :: '/' :: '/' :: _ => none
    | '/' :: '/' :: '/' :: _ => line false
    | '/' :: '*' :: '*' :: '*' :: _ => none
    | '/' :: '*' :: '*' :: _ => block false
    | _ => none
  found.filter fun (_, body, _) => !hasLoneReturn body

/-! ## The reader -/

def placeBehind (p : Position) (chars : List Char) : Position :=
  chars.foldl (fun p c => if c == '\n' then ⟨p.line + 1, 0⟩ else ⟨p.line, p.column + 1⟩) p

def docTrees (p : Position) (body : List Char) (inner : Bool) : List Tree :=
  [Tree.mark '#' false p] ++ (if inner then [Tree.mark '!' false p] else []) ++
    [Tree.group .bracket p [.ident "doc" p, .mark '=' false p,
      .literal (quoted (String.ofList body)) p]]

def leaf? (p : Position) (text : List Char) : Option (Tree × Nat) :=
  let taken (n : Nat) := String.ofList (text.take n)
  match literalLength? text with
  | some n => some (.literal (taken n) p, n)
  | none =>
    match markAt? text with
    | some '\'' =>
      (lifetimeTail (text.drop 1)).map fun n => (.lifetime (taken (n + 1)) p, n + 1)
    | some c => some (.mark c (markAt? (text.drop 1)).isSome p, 1)
    | none =>
      if unreadMark.isPrefixOf text then some (.literal (taken unreadMark.length) p, unreadMark.length)
      else if opensLiteral text then none
      else (identLength? text).map fun n => (.ident (taken n) p, n)

/-- An open group: its delimiter, its place, and the trees read before it, last first. -/
structure Frame where
  delimiter : Delimiter
  pos : Position
  before : List Tree

def opened? : Char → Option Delimiter
  | '(' => some .paren
  | '[' => some .bracket
  | '\x7b' => some .brace
  | _ => none

def closed? : Char → Option Delimiter
  | ')' => some .paren
  | ']' => some .bracket
  | '\x7d' => some .brace
  | _ => none

/-- Reads a text into trees; `fuel` bounds the number of lexemes, `done` holds the trees of the
innermost open group, last first. -/
def readTrees : Nat → Position → List Char → List Frame → List Tree → Option (List Tree)
  | 0, _, _, _, _ => none
  | _ + 1, _, [], [], done => some done.reverse
  | _ + 1, _, [], _ :: _, _ => none
  | fuel + 1, p, c :: rest, frames, done =>
    let text := c :: rest
    let skip := blankLength text
    if skip > 0 then readTrees fuel (placeBehind p (text.take skip)) (text.drop skip) frames done
    else match docComment? text with
      | some (n, body, inner) =>
        readTrees fuel (placeBehind p (text.take n)) (text.drop n) frames
          ((docTrees p body inner).reverse ++ done)
      | none =>
        match if unreadMark.isPrefixOf text then none else opened? c with
        | some d => readTrees fuel (placeBehind p [c]) rest (⟨d, p, done⟩ :: frames) []
        | none =>
          match closed? c with
          | some d =>
            match frames with
            | [] => none
            | frame :: outer =>
              if frame.delimiter = d then
                readTrees fuel (placeBehind p [c]) rest outer
                  (.group d frame.pos done.reverse :: frame.before)
              else none
          | none =>
            match leaf? p text with
            | some (t, n) =>
              readTrees fuel (placeBehind p (text.take n)) (text.drop n) frames (t :: done)
            | none => none

/-- The trees of a text, or nothing if it cannot be cut into tokens or a delimiter is open. -/
def trees? (text : String) : Option (List Tree) :=
  let chars := text.toList
  let body := if chars.head? == some '\uFEFF' then chars.drop 1 else chars
  readTrees (body.length + 1) (placeBehind ⟨1, 0⟩ (chars.take (chars.length - body.length)))
    body [] []

end Statewright.Token
