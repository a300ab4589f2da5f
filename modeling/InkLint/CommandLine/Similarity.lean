/-!
# Similar words

How alike two words are is measured by Jaro's rule. Two equal characters count as common if they
are not too far apart, each character of either word in at most one pair; half the number of places
where the common characters, read off each word in order, differ is the number of transpositions.
The measure is the mean of three shares: of the first word that is common, of the second word that
is common, and of the common characters that are not transposed. It is taken in double precision,
so two measures that are equal as fractions may still differ.
-/

namespace InkLint

namespace Similarity

/-- A word, each character with whether it is taken. -/
abbrev Marked := List (Char × Bool)

/-- Takes the first free `c` that stands in places `low` to `high`, if there is one; the first
character of the list stands in place `index`. -/
def take? (c : Char) (low high index : Nat) : Marked → Option Marked
  | [] => none
  | (d, taken) :: rest =>
    if low ≤ index ∧ index ≤ high ∧ d = c ∧ taken = false then some ((d, true) :: rest)
    else (take? c low high (index + 1) rest).map ((d, taken) :: ·)

/-- Pairs the characters of a word, the first of which stands in place `index`, with free ones of
the other word at most `reach` places away. The result has the common characters in the order of
the first word, and the other word as it is then marked. -/
def pair (reach index : Nat) : List Char → Marked → List Char × Marked
  | [], marked => ([], marked)
  | c :: rest, marked =>
    match take? c (index - reach) (index + reach) 0 marked with
    | some marked =>
      let (common, marked) := pair reach (index + 1) rest marked
      (c :: common, marked)
    | none => pair reach (index + 1) rest marked

/-- How far apart two common characters may stand. -/
def reach (a b : List Char) : Nat :=
  max a.length b.length / 2 - 1

/-- The common characters, in the order of each word. -/
def common (a b : List Char) : List Char × List Char :=
  let (inA, marked) := pair (reach a b) 0 a (b.map (·, false))
  (inA, (marked.filter (·.2)).map (·.1))

/-- The number of transpositions between two lists of the same characters. -/
def transpositions (s t : List Char) : Nat :=
  ((s.zip t).filter fun p => p.1 != p.2).length / 2

/-- How alike two words are, between nothing and one. -/
def measure (a b : List Char) : Float :=
  let (inA, inB) := common a b
  let m := inA.length
  if m = 0 then 0
  else
    (share m a.length + share m b.length + share (m - transpositions inA inB) m) / 3
where
  /-- A part of a whole. -/
  share (part whole : Nat) : Float := part.toFloat / whole.toFloat

/-- The most alike of the words that are more than seven tenths alike. Of equally good ones the last
is taken. -/
def best? (a : List Char) (words : List String) : Option String :=
  let candidates := (words.map fun word => (measure a word.toList, word)).filter (0.7 < ·.1)
  (candidates.foldl
    (fun best candidate => if best.all (·.1 ≤ candidate.1) then some candidate else best)
    none).map (·.2)

end Similarity

end InkLint
