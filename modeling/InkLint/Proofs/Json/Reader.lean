import InkLint.Proofs.Json.Grammar
import InkLint.Proofs.Text.Utf8

/-!
# Reading JSON texts

A reader for JSON texts by recursive descent. Each part of it takes one part of a text off its
front. It is *sound* for a relation of the grammar if what it takes off is in the relation, and
*complete* if it takes off whatever is in the relation and stands in front of a suitable rest: a
number ends only where no digit follows.
-/

namespace InkLint

namespace Json

namespace Reader

open Grammar

/-- Takes a value off the front of a text. -/
abbrev Read (α : Type) := List Char → Option (α × List Char)

variable {α : Type}

/-! ## The reader -/

/-- Four hexadecimal digits. -/
def unit : Read Nat
  | a :: b :: c :: d :: rest => (unit? a b c d).map (·, rest)
  | _ => none

/-- What follows a backslash. -/
def escaped : Read Char := fun s =>
  if s.head? = some 'u' then do
    let (n, s) ← unit s.tail
    if IsHigh n then
      if ['\\', 'u'] <+: s then do
        let (m, s) ← unit (s.drop 2)
        if IsLow m then some (Char.ofNat (0x10000 + (n - 0xd800) * 0x400 + (m - 0xdc00)), s)
        else none
      else none
    else if IsLow n then none
    else some (Char.ofNat n, s)
  else do
    let c ← s.head?.bind short?
    some (c, s.tail)

/-- One character between quotes. -/
def character : Read Char
  | [] => none
  | c :: s =>
    if c = '\\' then escaped s
    else if 0x20 ≤ c.toNat ∧ c ≠ '"' then some (c, s)
    else none

/-- The characters up to the closing quote, and the quote. -/
def characters : Nat → Read (List Char)
  | 0, _ => none
  | n + 1, s =>
    if s.head? = some '"' then some ([], s.tail)
    else do
      let (c, s) ← character s
      let (cs, s) ← characters n s
      some (c :: cs, s)

def quoted : Read String := fun s =>
  if s.head? = some '"' then do
    let (cs, s) ← characters s.length s.tail
    some (String.ofList cs, s)
  else none

def digits : Read (List Char) := fun s =>
  if s.takeWhile Char.isDigit = [] then none
  else some (s.takeWhile Char.isDigit, s.dropWhile Char.isDigit)

def whole : Read ℕ := fun s => do
  let (ds, s) ← digits s
  if ds = ['0'] then some (0, s)
  else if ds.head? = some '0' then none
  else some (Nat.ofDigitChars 10 ds 0, s)

def fraction : Read ℚ := fun s =>
  if s.head? = some '.' then do
    let (ds, s) ← digits s.tail
    some (Nat.ofDigitChars 10 ds 0 / 10 ^ ds.length, s)
  else some (0, s)

def signed : Read ℤ := fun s =>
  if s.head? = some '-' then do
    let (ds, s) ← digits s.tail
    some (-Nat.ofDigitChars 10 ds 0, s)
  else if s.head? = some '+' then do
    let (ds, s) ← digits s.tail
    some (Nat.ofDigitChars 10 ds 0, s)
  else do
    let (ds, s) ← digits s
    some (Nat.ofDigitChars 10 ds 0, s)

def exponent : Read ℤ := fun s =>
  if s.head? = some 'e' ∨ s.head? = some 'E' then signed s.tail
  else some (0, s)

def magnitude : Read ℚ := fun s => do
  let (n, s) ← whole s
  let (f, s) ← fraction s
  let (e, s) ← exponent s
  some ((n + f) * 10 ^ e, s)

def number : Read ℚ := fun s =>
  if s.head? = some '-' then do
    let (q, s) ← magnitude s.tail
    some (-q, s)
  else magnitude s

def padded (read : Read α) : Read α := fun s => do
  let (a, s) ← read (s.dropWhile isSpace)
  some (a, s.dropWhile isSpace)

def separated (read : Read α) : Nat → Read (List α)
  | 0, _ => none
  | n + 1, s => do
    let (a, s) ← read s
    if s.head? = some ',' then do
      let (as, s) ← separated read n s.tail
      some (a :: as, s)
    else some ([a], s)

def closed (close : Char) (read : Read (List α)) : Read (List α) := fun s =>
  if (s.dropWhile isSpace).head? = some close then some ([], (s.dropWhile isSpace).tail)
  else do
    let (as, s) ← read s
    if s.head? = some close then some (as, s.tail) else none

def member (read : Read Data) : Read (String × Data) := fun s => do
  let (name, s) ← padded quoted s
  if s.head? = some ':' then do
    let (value, s) ← padded read s.tail
    some ((name, value), s)
  else none

def literal (word : List Char) (value : Data) : Read Data := fun s =>
  if word <+: s then some (value, s.drop word.length) else none

/-- A value, of a text that is at most so long. The first character tells its kind. -/
def value : Nat → Read Data
  | 0, _ => none
  | n + 1, s =>
    if s.head? = some '"' then do
      let (content, s) ← quoted s
      some (.text content, s)
    else if s.head? = some '[' then do
      let (items, s) ← closed ']' (separated (padded (value n)) n) s.tail
      some (.list items, s)
    else if s.head? = some '\x7b' then do
      let (fields, s) ← closed '\x7d' (separated (member (value n)) n) s.tail
      some (.object fields, s)
    else if s.head? = some 'n' then literal ['n', 'u', 'l', 'l'] .null s
    else if s.head? = some 't' then literal ['t', 'r', 'u', 'e'] (.bool true) s
    else if s.head? = some 'f' then literal ['f', 'a', 'l', 's', 'e'] (.bool false) s
    else do
      let (q, s) ← number s
      some (.number q, s)

/-- The value of a whole text. -/
def readText (s : List Char) : Option Data := do
  let (v, rest) ← padded (value s.length) s
  if rest = [] then some v else none

/-- The value of a text in UTF-8. -/
def readBytes (bs : Bytes) : Option Data :=
  (Utf8.decode? bs).bind readText

/-! ## Sound and complete parts -/

/-- What is taken off the front stands for the value that is given. -/
def Sound (P : α → List Char → Prop) (read : Read α) : Prop :=
  ∀ s a rest, read s = some (a, rest) → ∃ t, P a t ∧ s = t ++ rest

/-- What stands for a value, is not too long and stands in front of a suitable rest is taken off. -/
def Complete (n : Nat) (Before : List Char → Prop) (P : α → List Char → Prop) (read : Read α) :
    Prop :=
  ∀ a t rest, P a t → t.length ≤ n → Before rest → read (t ++ rest) = some (a, rest)

theorem cons_of_head? {c : Char} {s : List Char} (h : s.head? = some c) : s = c :: s.tail :=
  List.eq_cons_of_mem_head? h

end Reader

end Json

end InkLint
