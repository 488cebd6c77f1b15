/-!
# Similar texts

How much two texts have in common, by their longest common blocks: the longest block of equal
characters is matched first, then the parts to its left and to its right are matched in the same
way.
-/

namespace GraphQLModels.Text

/-- The number of characters at the beginning that two texts share. -/
def commonStart : List Char → List Char → Nat
  | a :: as, b :: bs => if a == b then commonStart as bs + 1 else 0
  | _, _ => 0

/-- A block of equal characters: where it begins in either text, and its length. -/
structure Block where
  left : Nat := 0
  right : Nat := 0
  size : Nat := 0
deriving DecidableEq, Repr

/-- The longest block of all beginnings in the second text, the earliest of those. -/
def longestBlockAt (left : Nat) (as : List Char) : Nat → Block → List Char → Block
  | _, best, [] => best
  | right, best, b :: bs =>
    let size := commonStart as (b :: bs)
    longestBlockAt left as (right + 1) (if best.size < size then ⟨left, right, size⟩ else best) bs

/-- The longest block of all beginnings in both texts: of several the one that is earliest in the
first text, and then in the second. -/
def longestBlockFrom (bs : List Char) : Nat → Block → List Char → Block
  | _, best, [] => best
  | left, best, a :: as =>
    longestBlockFrom bs (left + 1) (longestBlockAt left (a :: as) 0 best bs) as

/-- The longest block that two texts share. -/
def longestBlock (as bs : List Char) : Block := longestBlockFrom bs 0 {} as

/-- The number of characters in the blocks that two texts share, up to a number of blocks deep. -/
def matchedWithin : Nat → List Char → List Char → Nat
  | 0, _, _ => 0
  | n + 1, as, bs =>
    let block := longestBlock as bs
    if block.size == 0 then 0
    else
      block.size + matchedWithin n (as.take block.left) (bs.take block.right) +
        matchedWithin n (as.drop (block.left + block.size)) (bs.drop (block.right + block.size))

/-- The number of characters in the blocks that two texts share. -/
def matchedCharacters (as bs : List Char) : Nat := matchedWithin (as.length + 1) as bs

/-- A candidate, with the characters it shares with a word and the characters of both. -/
structure Likeness where
  candidate : String
  shared : Nat
  total : Nat
deriving DecidableEq, Repr

namespace Likeness

/-- The likeness of a candidate to a word. -/
def of (word candidate : String) : Likeness where
  candidate
  shared := matchedCharacters candidate.toList word.toList
  total := candidate.length + word.length

/-- Whether a candidate shares at least three fifths of the characters. -/
def isClose (l : Likeness) : Bool := 3 * l.total ≤ 10 * l.shared

/-- Whether a candidate comes before another: the more alike, then the later by its characters. -/
def precedes (a b : Likeness) : Bool :=
  if a.shared * b.total == b.shared * a.total then b.candidate ≤ a.candidate
  else b.shared * a.total ≤ a.shared * b.total

end Likeness

/-- The up to three candidates that are closest to a word, best first. -/
def closeMatches (word : String) (candidates : List String) : List String :=
  let close := (candidates.map (Likeness.of word)).filter Likeness.isClose
  ((close.mergeSort Likeness.precedes).take 3).map (·.candidate)

end GraphQLModels.Text
