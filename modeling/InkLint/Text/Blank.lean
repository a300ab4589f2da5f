/-!
# White space

The characters with the Unicode property White_Space. Core's `Char.isWhitespace` knows only some
of the ASCII ones, so the table is spelled out.
-/

namespace InkLint

/-- The White_Space characters, in order. -/
def blanks : List Char :=
  ['\t', '\n', '\x0b', '\x0c', '\r', ' ', '\x85', '\xa0', '\u1680',
   '\u2000', '\u2001', '\u2002', '\u2003', '\u2004', '\u2005', '\u2006', '\u2007', '\u2008',
   '\u2009', '\u200a', '\u2028', '\u2029', '\u202f', '\u205f', '\u3000']

/-- Whether a character is white space. -/
def isBlank (c : Char) : Bool :=
  blanks.contains c

theorem isBlank_iff {c : Char} : isBlank c = true ↔ c ∈ blanks := by
  simp [isBlank]

end InkLint
