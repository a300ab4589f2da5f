import InkLint.Text.Blank

/-!
# Atoms of a pattern

An atom is the least a pattern consists of: a character, or an escape. The modes in force decide
how it is read and whether it is allowed. `Modes.skip` passes over what verbose mode leaves out,
`escape?` reads an escape, and `Atom.isAllowed` and `Atom.isMember` say which atoms may stand in a
pattern and in one of its sets.
-/

namespace InkLint

namespace Pattern

/-! ## Modes -/

/-- How a part of a pattern is read. -/
structure Modes where
  /-- Whether blanks and comments are left out. -/
  verbose : Bool := false
  /-- Whether it is about characters rather than bytes. -/
  unicode : Bool := true
deriving DecidableEq, Repr

/-- Whether a mode is on after some flags. A flag turns its mode on, or off after a hyphen. -/
def switched (flags : List Char) (flag : Char) (now : Bool) : Bool :=
  (flags.takeWhile (· != '-')).contains flag || (now && !flags.contains flag)

/-- A text without the blanks and comments it starts with. A comment goes from a number sign to the
end of its line, and `inComment` says whether the text starts in one. -/
def skipBlanks (inComment : Bool) : List Char → List Char
  | [] => []
  | c :: rest =>
    if inComment then skipBlanks (c != '\n') rest
    else if c = '#' then skipBlanks true rest
    else if isBlank c then skipBlanks false rest
    else c :: rest

namespace Modes

/-- The modes after some flags. -/
def switch (m : Modes) (flags : List Char) : Modes :=
  { verbose := switched flags 'x' m.verbose, unicode := switched flags 'u' m.unicode }

/-- The text from the next character on that is not left out. -/
def skip (m : Modes) (text : List Char) : List Char :=
  if m.verbose then skipBlanks false text else text

/-- The character that decides whether a hyphen in a set makes a range; the text follows the
hyphen. Blanks and one number sign are passed over, but the comment itself is not. -/
def afterHyphen? (m : Modes) (text : List Char) : Option Char :=
  if m.verbose then
    let rest := text.dropWhile isBlank
    let rest := if rest.head? = some '#' then (rest.drop 1).dropWhile isBlank else rest
    rest.head? <|> text.head?
  else text.head?

end Modes

/-! ## Atoms -/

/-- What one character, or one escape, stands for. -/
inductive Atom where
  /-- Itself; `isByte` says whether it is written as a byte. -/
  | literal (c : Char) (isByte : Bool)
  /-- Any character. -/
  | any
  /-- A character of a known set, or one that is not in it. -/
  | set (isNegated : Bool)
  /-- A character of a general category. -/
  | category
  /-- An end of the text or of a line. -/
  | edge
  /-- An end of a word. -/
  | boundary
deriving DecidableEq, Repr

namespace Atom

/-- Whether the atom may stand in a pattern. A pattern about bytes knows no categories and must not
match a part of a character; one about characters cannot find the ends of words. -/
def isAllowed (m : Modes) : Atom → Bool
  | literal c isByte => m.unicode || !isByte || c.toNat < 0x80
  | any => m.unicode
  | set isNegated => m.unicode || !isNegated
  | category => m.unicode
  | edge => true
  | boundary => !m.unicode

/-- Whether the atom may stand in a set. A set of bytes holds no other characters than ASCII. -/
def isMember (m : Modes) : Atom → Bool
  | literal c _ => m.unicode || c.toNat < 0x80
  | edge => false
  | boundary => false
  | atom => atom.isAllowed m

end Atom

/-- The value of a hexadecimal digit. -/
def hexValue? (c : Char) : Option Nat :=
  if c.isDigit then some (c.toNat - 0x30)
  else if 'a' ≤ c ∧ c ≤ 'f' then some (c.toNat - 0x57)
  else if 'A' ≤ c ∧ c ≤ 'F' then some (c.toNat - 0x37)
  else none

/-- The number written with so many hexadecimal digits more, after those that make up `code`. -/
def code? (m : Modes) : Nat → Nat → List Char → Option (Nat × List Char)
  | 0, code, text => some (code, text)
  | count + 1, code, text =>
    match m.skip text with
    | [] => none
    | c :: rest => (hexValue? c).bind fun digit => code? m count (16 * code + digit) rest

/-- The character with a code of so many hexadecimal digits. Two of them are a byte. -/
def coded? (m : Modes) (count : Nat) (text : List Char) : Option (Atom × List Char) := do
  let (code, rest) ← code? m count 0 text
  if code.isValidChar then some (.literal (Char.ofNat code) (count == 2), rest) else none

/-- The letters of the general categories, in lower case. -/
def generalCategories : List Char :=
  ['c', 'l', 'm', 'n', 'p', 's', 'z']

/-- The control characters that have a letter. -/
def controls : List (Char × Char) :=
  [('a', '\x07'), ('f', '\x0c'), ('t', '\t'), ('n', '\n'), ('r', '\r'), ('v', '\x0b')]

/-- Whether a character stands for itself after a backslash. -/
def isEscapable (c : Char) : Bool :=
  c.toNat < 0x80 && !c.isAlphanum && c != '<' && c != '>'

/-- What an escape stands for; the text follows the backslash. -/
def escape? (m : Modes) : List Char → Option (Atom × List Char)
  | [] => none
  | 'x' :: text => coded? m 2 text
  | 'u' :: text => coded? m 4 text
  | 'U' :: text => coded? m 8 text
  | c :: text =>
    if c = 'p' ∨ c = 'P' then
      match m.skip text with
      | kind :: text =>
        if generalCategories.contains kind.toLower then some (.category, text) else none
      | [] => none
    else if ['d', 's', 'w'].contains c then some (.set false, text)
    else if ['D', 'S', 'W'].contains c then some (.set true, text)
    else if ['A', 'z'].contains c then some (.edge, text)
    else if ['b', 'B', '<', '>'].contains c then some (.boundary, text)
    else if isEscapable c then some (.literal c false, text)
    else (controls.lookup c).map fun d => (.literal d false, text)

/-- The atom a text starts with, outside of sets. -/
def atom? (m : Modes) : List Char → Option (Atom × List Char)
  | [] => none
  | '\\' :: text => escape? m text
  | '.' :: text => some (.any, text)
  | c :: text => some (if c = '^' ∨ c = '$' then .edge else .literal c false, text)

/-! ## Heights -/

/-- The height of parts that stand side by side: one more than that of the highest, unless there is
only one. -/
def joined : List Nat → Nat
  | [] => 0
  | [height] => height
  | heights => heights.foldl max 0 + 1

end Pattern

end InkLint
