/-!
# Likeness of words

The Jaro–Winkler measure, used to guess which name was meant: the share of matching characters
and their order, raised by a common opening.
-/

namespace Statewright.Text

/-- The first position from `low` on, and before `high`, that holds `c` and is not taken. -/
def matchPosition (c : Char) (word : List Char) (taken : List Nat) (low high : Nat) : Option Nat :=
  (word.zipIdx.find? fun (d, j) => low ≤ j && j < high && d == c && !taken.contains j).map (·.2)

/-- Pairs up equal characters at most `reach` positions apart, left to right. Returns the
matched characters of `a`, in order, and the positions matched in `b`. -/
def matchedPairs (reach : Nat) (b : List Char) : List (Char × Nat) → List Nat → List Char × List Nat
  | [], taken => ([], taken)
  | (c, i) :: rest, taken =>
    match matchPosition c b taken (i - reach) (i + reach + 1) with
    | some j =>
      let (chars, positions) := matchedPairs reach b rest (taken ++ [j])
      (c :: chars, positions)
    | none => matchedPairs reach b rest taken

def jaro (a b : List Char) : Float :=
  if a.isEmpty && b.isEmpty then 1.0
  else if a.isEmpty || b.isEmpty then 0.0
  else
    let reach := max a.length b.length / 2 - 1
    let (left, positions) := matchedPairs reach b a.zipIdx []
    let right := (b.zipIdx.filter fun (_, j) => positions.contains j).map (·.1)
    let matched := left.length
    let swapped := ((left.zip right).filter fun (c, d) => c != d).length / 2
    if matched = 0 then 0.0
    else
      (matched.toFloat / a.length.toFloat + matched.toFloat / b.length.toFloat
        + (matched - swapped).toFloat / matched.toFloat) / 3.0

def likeness (a b : String) : Float :=
  let plain := jaro a.toList b.toList
  if plain > 0.7 then
    let opening := (((a.toList.take 4).zip b.toList).takeWhile fun (c, d) => c == d).length
    plain + 0.1 * opening.toFloat * (1.0 - plain)
  else plain

/-- The candidate most like `word`, the first of equals, if its likeness is above 0.8. -/
def closest? (word : String) (candidates : List String) : Option String :=
  (candidates.foldl (fun (best : Option (Float × String)) candidate =>
    let score := likeness word candidate
    match best with
    | none => if score > 0.8 then some (score, candidate) else none
    | some (top, _) => if score > 0.8 && top < score then some (score, candidate) else best)
    none).map (·.2)

end Statewright.Text
