/-!
# JSON documents

Values are written with two blanks of indentation for each level, one item on each line. A value
that has no written form breaks the text off where it would stand, so what a value is written as is
a `Draft`: some text, and whether it is the whole of it.
-/

namespace InkLint

/-- The beginning of a text, and whether it is all of it. -/
structure Draft where
  text : List Char
  isWhole : Bool := true
deriving DecidableEq, Repr

namespace Draft

/-- A draft that breaks off at once. -/
def broken : Draft :=
  ⟨[], false⟩

/-- One draft after another; after a break nothing follows. -/
def append (a b : Draft) : Draft :=
  if a.isWhole then ⟨a.text ++ b.text, b.isWhole⟩ else a

instance : Append Draft := ⟨append⟩

theorem append_def (a b : Draft) :
    a ++ b = if a.isWhole then ⟨a.text ++ b.text, b.isWhole⟩ else a := rfl

theorem append_assoc (a b c : Draft) : a ++ b ++ c = a ++ (b ++ c) := by
  simp only [append_def]
  cases ha : a.isWhole <;> cases hb : b.isWhole <;> simp [ha, hb]

end Draft

/-- A JSON value. -/
inductive Json where
  | text (s : String)
  | number (n : Nat)
  | list (items : List Json)
  | object (fields : List (String × Json))
  /-- A value that cannot be written. -/
  | unwritable
deriving Repr

namespace Json

/-! ## Texts -/

/-- A digit of a number below sixteen, letters in lower case. -/
def hexDigit (n : Nat) : Char :=
  if n < 10 then Char.ofNat (0x30 + n) else Char.ofNat (0x57 + n)

/-- How a character stands inside quotes. -/
def escape (c : Char) : List Char :=
  if c = '"' then ['\\', '"']
  else if c = '\\' then ['\\', '\\']
  else if c = '\x08' then ['\\', 'b']
  else if c = '\x0c' then ['\\', 'f']
  else if c = '\n' then ['\\', 'n']
  else if c = '\r' then ['\\', 'r']
  else if c = '\t' then ['\\', 't']
  else if c.toNat < 0x20 then
    ['\\', 'u', '0', '0', hexDigit (c.toNat / 16), hexDigit (c.toNat % 16)]
  else [c]

/-- A text in quotes. -/
def quote (s : String) : List Char :=
  '"' :: s.toList.flatMap escape ++ ['"']

/-! ## Values -/

/-- A new line at a depth. -/
def newline (depth : Nat) : List Char :=
  '\n' :: List.replicate (2 * depth) ' '

/-- What stands after an item, depending on whether others follow. -/
def comma (more : Bool) : List Char :=
  if more then [','] else []

mutual

/-- The written form of a value that stands at a depth. -/
def render (depth : Nat) : Json → Draft
  | text s => ⟨quote s, true⟩
  | number n => ⟨Nat.toDigits 10 n, true⟩
  | list items =>
    if items.isEmpty then ⟨['[', ']'], true⟩
    else ⟨['['], true⟩ ++ renderItems (depth + 1) items ++ ⟨newline depth ++ [']'], true⟩
  | object fields =>
    if fields.isEmpty then ⟨['\x7b', '\x7d'], true⟩
    else ⟨['\x7b'], true⟩ ++ renderFields (depth + 1) fields ++ ⟨newline depth ++ ['\x7d'], true⟩
  | unwritable => Draft.broken

/-- The items of a list, each on a line of its own. -/
def renderItems (depth : Nat) : List Json → Draft
  | [] => ⟨[], true⟩
  | item :: rest =>
    ⟨newline depth, true⟩ ++ render depth item ++ ⟨comma !rest.isEmpty, true⟩ ++
      renderItems depth rest

/-- The fields of an object, each on a line of its own. -/
def renderFields (depth : Nat) : List (String × Json) → Draft
  | [] => ⟨[], true⟩
  | (key, value) :: rest =>
    ⟨newline depth ++ quote key ++ [':', ' '], true⟩ ++ render depth value ++
      ⟨comma !rest.isEmpty, true⟩ ++ renderFields depth rest

end

end Json

end InkLint
