import InkLint.Text.Letter
import InkLint.Text.Pattern.Set

/-!
# Patterns

Which texts are regular expressions. Nothing is ever matched here: the question is only whether a
text can be read as one, so a reader returns what follows the part it has read.

Parts of a pattern stand in one another, and how deep they may do so is limited. What has been read
of a group therefore keeps the heights of its pieces and of its alternatives.

The texts in question hold no closing brace. A counted repetition or a set that is named in braces
therefore never ends, and an opening brace is refused wherever it is not inside a set.
-/

namespace InkLint

namespace Pattern

/-! ## Groups -/

/-- What an opening parenthesis starts. -/
inductive Opening where
  /-- A group, with the modes inside and a name if it has one. -/
  | group (modes : Modes) (name : Option (List Char))
  /-- Modes for the rest of the group around it. -/
  | modes (modes : Modes)
deriving DecidableEq, Repr

/-- Whether a group can have this name. -/
def isName : List Char → Bool
  | [] => false
  | c :: rest =>
    (c == '_' || isLetter c) &&
      rest.all fun c => ['_', '.', '[', ']'].contains c || isLetter c || isNumber c

/-- A group with a name up to an angle bracket. -/
def name? (m : Modes) (text : List Char) : Option (Opening × List Char) :=
  match text.dropWhile (· != '>') with
  | _ :: rest =>
    let name := text.takeWhile (· != '>')
    if isName name then some (.group m (some name), rest) else none
  | [] => none

/-- Flags up to a colon, which starts a group, or to a closing parenthesis. Each stands at most
once, and so does the hyphen after which they are turned off. -/
def flags? (m : Modes) (text : List Char) : Option (Opening × List Char) :=
  let isEnd (c : Char) : Bool := c == ':' || c == ')'
  let flags := text.takeWhile (!isEnd ·)
  if flags.all (['i', 'm', 's', 'U', 'u', 'R', 'x', '-'].contains ·) && flags.eraseDups == flags &&
      flags.getLast? != some '-' then
    match text.dropWhile (!isEnd ·) with
    | ':' :: rest => some (.group (m.switch flags) none, rest)
    | ')' :: rest => if flags.isEmpty then none else some (.modes (m.switch flags), rest)
    | _ => none
  else none

/-- What an opening parenthesis starts; the text follows it. No group can look around. -/
def opening? (m : Modes) (text : List Char) : Option (Opening × List Char) :=
  match m.skip text with
  | '?' :: '=' :: _ => none
  | '?' :: '!' :: _ => none
  | '?' :: '<' :: '=' :: _ => none
  | '?' :: '<' :: '!' :: _ => none
  | '?' :: 'P' :: '<' :: text => name? m text
  | '?' :: '<' :: text => name? m text
  | '?' :: text => flags? m text
  | text => some (.group m none, text)

/-! ## Whole patterns -/

/-- A piece of an alternative. -/
structure Piece where
  height : Nat := 0
  /-- Whether it can be repeated, unlike a change of modes. -/
  repeatable : Bool := true

/-- What has been read of a group, or of the whole pattern. -/
structure OpenGroup where
  /-- The modes for what comes next. -/
  modes : Modes := {}
  /-- The pieces of the last alternative, from the last on. -/
  pieces : List Piece := []
  /-- The heights of the alternatives before it. -/
  earlier : List Nat := []

namespace OpenGroup

/-- The group with one more piece. -/
def add (g : OpenGroup) (piece : Piece) : OpenGroup :=
  { g with pieces := piece :: g.pieces }

/-- The heights of all alternatives. -/
def alternatives (g : OpenGroup) : List Nat :=
  joined (g.pieces.map (·.height)) :: g.earlier

/-- The height of what stands in the group. -/
def height (g : OpenGroup) : Nat :=
  joined g.alternatives

/-- The group after a bar, which ends an alternative. -/
def split (g : OpenGroup) : OpenGroup :=
  { g with pieces := [], earlier := g.alternatives }

/-- The group with its last piece repeated. -/
def repeatLast? (g : OpenGroup) : Option OpenGroup :=
  match g.pieces with
  | [] => none
  | piece :: pieces =>
    if piece.repeatable then
      some { g with pieces := { height := piece.height + 1 } :: pieces }
    else none

end OpenGroup

/-- How high a pattern may be. -/
def maxHeight : Nat := 250

/-- Whether the text goes on and ends as a pattern, after a group, those around it and the names
met so far. Each round reads a character or more. -/
def goesOn : Nat → OpenGroup → List OpenGroup → List (List Char) → List Char → Bool
  | 0, _, _, _, _ => false
  | rounds + 1, g, outer, names, text =>
    match g.modes.skip text with
    | [] => outer.isEmpty && g.height ≤ maxHeight
    | '\x7b' :: _ => false
    | '|' :: rest => goesOn rounds g.split outer names rest
    | ')' :: rest =>
      match outer with
      | [] => false
      | parent :: outer => goesOn rounds (parent.add { height := g.height + 1 }) outer names rest
    | '(' :: rest =>
      match opening? g.modes rest with
      | some (.group inner none, rest) =>
        goesOn rounds { modes := inner } (g :: outer) names rest
      | some (.group inner (some name), rest) =>
        !names.contains name && goesOn rounds { modes := inner } (g :: outer) (name :: names) rest
      | some (.modes next, rest) =>
        goesOn rounds { g.add { repeatable := false } with modes := next } outer names rest
      | none => false
    | '[' :: rest =>
      match set? g.modes rest with
      | some (height, rest) => goesOn rounds (g.add { height := height }) outer names rest
      | none => false
    | c :: rest =>
      if c = '?' ∨ c = '*' ∨ c = '+' then
        match g.repeatLast? with
        | some g =>
          goesOn rounds g outer names (if rest.head? = some '?' then rest.drop 1 else rest)
        | none => false
      else
        match atom? g.modes (c :: rest) with
        | some (atom, rest) => atom.isAllowed g.modes && goesOn rounds (g.add {}) outer names rest
        | none => false

end Pattern

/-- Whether a text without closing braces is a regular expression. -/
def isPattern (text : List Char) : Bool :=
  Pattern.goesOn (text.length + 1) {} [] [] text

end InkLint
