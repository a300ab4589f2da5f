import InkLint.Text.Pattern.Atom

/-!
# Sets of a pattern

A set in brackets lists characters, ranges and further sets, and may join several lists by
operators. `set?` reads one and gives its height with what follows it.
-/

namespace InkLint

namespace Pattern

/-- A set whose closing bracket has not been read. -/
structure OpenSet where
  isNegated : Bool
  /-- The heights of the items since the last operator. -/
  items : List Nat := []
  /-- The height of what stands before the last operator. -/
  left : Option Nat := none

namespace OpenSet

/-- The set with one more item. -/
def add (s : OpenSet) (height : Nat) : OpenSet :=
  { s with items := height :: s.items }

/-- The height of what stands in the brackets. -/
def height (s : OpenSet) : Nat :=
  match s.left with
  | none => joined s.items
  | some left => max left (joined s.items) + 1

/-- The set after an operator. -/
def operate (s : OpenSet) : OpenSet :=
  { s with items := [], left := some s.height }

/-- Reads hyphens at the start of a set, which stand for themselves. Each round reads one. -/
def readHyphens (m : Modes) : Nat → OpenSet → List Char → OpenSet × List Char
  | rounds + 1, s, '-' :: rest => readHyphens m rounds (s.add 0) (m.skip rest)
  | _, s, text => (s, text)

/-- Reads the start of a set; the text follows the bracket. After a negation, hyphens stand for
themselves, and if there are none a closing bracket does. -/
def start (m : Modes) (text : List Char) : OpenSet × List Char :=
  let text := m.skip text
  let isNegated := text.head? = some '^'
  let text := if isNegated then m.skip (text.drop 1) else text
  match text with
  | ']' :: rest => ({ isNegated := isNegated, items := [0] }, m.skip rest)
  | _ => readHyphens m text.length { isNegated := isNegated } text

end OpenSet

/-- The names of sets that may stand inside a set. -/
def setNames : List String :=
  ["alnum", "alpha", "ascii", "blank", "cntrl", "digit", "graph", "lower", "print", "punct",
   "space", "upper", "word", "xdigit"]

/-- A named set and what follows it; the text follows its first bracket. -/
def namedSet? : List Char → Option (Atom × List Char)
  | ':' :: text =>
    let isNegated := text.head? = some '^'
    let text := if isNegated then text.drop 1 else text
    let name := text.takeWhile (· != ':')
    match text.dropWhile (· != ':') with
    | ':' :: ']' :: rest =>
      if setNames.contains (String.ofList name) then some (.set isNegated, rest) else none
    | _ => none
  | _ => none

/-- A member of a set. -/
def member? (m : Modes) : List Char → Option (Atom × List Char)
  | [] => none
  | '\\' :: text => escape? m text
  | c :: text => some (.literal c false, text)

/-- What follows a member of a set, or two that are the ends of a range. A hyphen makes no range
before another one or before the closing bracket. -/
def range? (m : Modes) (text : List Char) : Option (List Char) := do
  let (first, rest) ← member? m text
  let rest := m.skip rest
  let alone := if first.isMember m then some rest else none
  match rest with
  | '-' :: next =>
    if m.afterHyphen? next = some ']' ∨ m.afterHyphen? next = some '-' then alone
    else
      match first, member? m (m.skip next) with
      | .literal a _, some (last@(.literal b _), rest) =>
        if a ≤ b ∧ first.isMember m ∧ last.isMember m then some rest else none
      | _, _ => none
  | _ => alone

/-- Reads on until a set and those around it are closed. Each round reads a character or more. -/
def closeSets (m : Modes) : Nat → OpenSet → List OpenSet → List Char → Option (Nat × List Char)
  | 0, _, _, _ => none
  | rounds + 1, s, outer, text =>
    match m.skip text with
    | [] => none
    | '[' :: rest =>
      match namedSet? rest with
      | some (named, rest) =>
        if named.isMember m then closeSets m rounds (s.add 0) outer rest else none
      | none =>
        let (inner, rest) := OpenSet.start m rest
        closeSets m rounds inner (s :: outer) rest
    | ']' :: rest =>
      if (Atom.set s.isNegated).isAllowed m then
        match outer with
        | [] => some (s.height + 1, rest)
        | parent :: outer => closeSets m rounds (parent.add (s.height + 1)) outer rest
      else none
    | '&' :: '&' :: rest => closeSets m rounds s.operate outer rest
    | '-' :: '-' :: rest => closeSets m rounds s.operate outer rest
    | '~' :: '~' :: rest => closeSets m rounds s.operate outer rest
    | text =>
      match range? m text with
      | some rest => closeSets m rounds (s.add 0) outer rest
      | none => none

/-- The height of a set and what follows it; the text follows its first bracket. -/
def set? (m : Modes) (text : List Char) : Option (Nat × List Char) :=
  let (s, rest) := OpenSet.start m text
  closeSets m (text.length + 1) s [] rest

end Pattern

end InkLint
