import Statewright.Token

/-!
# Token trees

What reading a text yields: tokens with their place, grouped by delimiter. A group may also be
*hidden*: it holds code together without any mark in the text, and leaves no token of its own.
-/

namespace Statewright

structure Position where
  line : Nat
  column : Nat
  deriving DecidableEq, Repr, Inhabited

def Position.none : Position := ⟨1, 0⟩

inductive Tree
  | ident (text : String) (pos : Position)
  | lifetime (text : String) (pos : Position)
  /-- `joint`: another punctuation character follows at once. -/
  | mark (char : Char) (joint : Bool) (pos : Position)
  | literal (text : String) (pos : Position)
  | group (delimiter : Delimiter) (pos : Position) (content : List Tree)
  | hidden (pos : Position) (content : List Tree)

namespace Tree

def pos : Tree → Position
  | ident _ p | lifetime _ p | mark _ _ p | literal _ p | group _ p _ | hidden p _ => p

mutual

def tokens : Tree → List Token
  | ident s _ => [.ident s]
  | lifetime s _ => [.lifetime s]
  | mark c joint _ => [.mark c joint]
  | literal s _ => [.literal s]
  | group d _ content => .opening d :: tokensOf content ++ [.closing d]
  | hidden _ content => tokensOf content

def tokensOf : List Tree → List Token
  | [] => []
  | t :: rest => t.tokens ++ tokensOf rest

end

mutual

def size : Tree → Nat
  | group _ _ content | hidden _ content => sizeOfList content + 1
  | _ => 1

def sizeOfList : List Tree → Nat
  | [] => 0
  | t :: rest => t.size + sizeOfList rest

end

mutual

def movedTo (p : Position) : Tree → Tree
  | ident s _ => ident s p
  | lifetime s _ => lifetime s p
  | mark c joint _ => mark c joint p
  | literal s _ => literal s p
  | group d _ content => group d p (allMovedTo p content)
  | hidden _ content => hidden p (allMovedTo p content)

def allMovedTo (p : Position) : List Tree → List Tree
  | [] => []
  | t :: rest => t.movedTo p :: allMovedTo p rest

end

mutual

/-- Turns every `__group ( .. )` into a hidden group. -/
def hideGroups : List Tree → List Tree
  | [] => []
  | ident "__group" p :: group .paren _ content :: rest =>
    hidden p (hideGroups content) :: hideGroups rest
  | t :: rest => t.hideInside :: hideGroups rest

def hideInside : Tree → Tree
  | group d p content => group d p (hideGroups content)
  | hidden p content => hidden p (hideGroups content)
  | ident s p => ident s p
  | lifetime s p => lifetime s p
  | mark c joint p => mark c joint p
  | literal s p => literal s p

end

end Tree

end Statewright
