import InkLint.Text.Utf8

/-!
# Text without control sequences

What is written to an output that is no terminal is first freed of control sequences: those that
start with an escape character, and single control characters other than tabs and line ends. A
sequence ends at its last character or where another one starts.
-/

namespace InkLint

namespace Plain

/-- What kind of sequence is being read. -/
inductive Mode where
  /-- None. -/
  | ground
  /-- One that has only begun. -/
  | escape
  /-- One with a character between its start and its end. -/
  | between
  /-- A control sequence with parameters. -/
  | parameters
  /-- The head of a string for a device. -/
  | head
  /-- Such a head after a parameter. -/
  | headParameters
  /-- Such a head after a character that follows the parameters. -/
  | headBetween
  /-- A string that a string terminator ends. -/
  | body
  /-- A string that a bell ends. -/
  | command
deriving DecidableEq, Repr

/-- Whether a byte is a tab, a line end or a form feed. -/
def isSpacing (b : UInt8) : Bool :=
  b == 0x09 || b == 0x0a || b == 0x0c || b == 0x0d

/-- Whether a byte is shown outside of sequences. -/
def isShown (b : UInt8) : Bool :=
  (0x20 ≤ b && b != 0x7f) || isSpacing b

/-- The mode after a byte that is not shown as part of a text. -/
def Mode.next (m : Mode) (b : UInt8) : Mode :=
  if b = 0x1b then .escape
  else if b = 0x18 ∨ b = 0x1a then .ground
  else
    match m with
    | .ground => .ground
    | .escape =>
      if b = 0x5b then .parameters
      else if b = 0x5d then .command
      else if b = 0x50 then .head
      else if b = 0x58 ∨ b = 0x5e ∨ b = 0x5f then .body
      else if 0x20 ≤ b ∧ b ≤ 0x2f then .between
      else if 0x30 ≤ b ∧ b ≤ 0x7e then .ground
      else .escape
    | .between => if 0x30 ≤ b ∧ b ≤ 0x7e then .ground else .between
    | .parameters => if 0x40 ≤ b ∧ b ≤ 0x7e then .ground else .parameters
    | .head =>
      if 0x40 ≤ b ∧ b ≤ 0x7e then .body
      else if 0x30 ≤ b ∧ b ≤ 0x3f then .headParameters
      else if 0x20 ≤ b ∧ b ≤ 0x2f then .headBetween
      else .head
    | .headParameters =>
      if 0x3c ≤ b ∧ b ≤ 0x7e then .body
      else if 0x20 ≤ b ∧ b ≤ 0x2f then .headBetween
      else .headParameters
    | .headBetween => if 0x30 ≤ b ∧ b ≤ 0x7e then .body else .headBetween
    | .body => if b = 0x9c then .ground else .body
    | .command => if b = 0x07 then .ground else .command

/-- Whether a byte that is met in this mode starts a text that is shown. A tab or a line end does so
even inside a sequence that is not a string. -/
def Mode.shows (m : Mode) (b : UInt8) : Bool :=
  match m with
  | .ground => isShown b && (b < 0x80 || 0xc2 ≤ b)
  | .escape | .between | .parameters => isSpacing b
  | .head | .headParameters | .headBetween | .body | .command => false

/-- What is shown of some bytes. While a text is being shown, it goes on up to the first byte that
is not; a sequence that it interrupted goes on after it, unless the text was more than ASCII. -/
def strip (m : Mode) (showing : Bool) : Bytes → Bytes
  | [] => []
  | b :: rest =>
    if showing && isShown b then b :: strip (if b < 0x80 then m else .ground) true rest
    else if m.shows b then b :: strip m true rest
    else strip (m.next b) false rest

/-- The text of some bytes as it is shown on an output that is no terminal. -/
def display (bytes : Bytes) : String :=
  String.ofList (Utf8.decodeLossy (strip .ground false (Utf8.encode (Utf8.decodeLossy bytes))))

end Plain

end InkLint
