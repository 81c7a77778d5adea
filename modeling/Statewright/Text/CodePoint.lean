/-!
# Sets of code points

A set of code points is written as the rising list of its edges: a point where membership
switches. A point belongs to the set when an odd number of edges lie at or below it.
-/

namespace Statewright.Text

def insideEdges (edges : List Nat) (point : Nat) : Bool :=
  (edges.takeWhile (· ≤ point)).length % 2 == 1

def spaceEdges : List Nat := [
    9, 14, 32, 33, 133, 134, 160, 161, 5760, 5761, 8192, 8203, 8232, 8234, 8239, 8240, 8287,
    8288, 12288, 12289]

def isSpace (c : Char) : Bool := insideEdges spaceEdges c.toNat

def isBlank (c : Char) : Bool := isSpace c || c == '\u200e' || c == '\u200f'

end Statewright.Text
