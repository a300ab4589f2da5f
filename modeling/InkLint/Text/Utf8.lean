/-!
# Bytes and UTF-8

Names, paths, arguments and file contents are byte strings. A byte string is cut from left to
right into *segments*: a segment is one well-formed UTF-8 sequence, kept as its character, or one
maximal part of an ill-formed sequence, kept as `none`. Everything else here is a view of that
list:

* `decodeLossy` writes one replacement character for each ill-formed segment,
* `decode?` accepts exactly the byte strings without an ill-formed segment.

`encode` is the inverse direction.
-/

namespace InkLint

/-- A string of bytes. -/
abbrev Bytes := List UInt8

namespace Utf8

/-! ## Writing -/

/-- The UTF-8 bytes of a text. -/
def encode (text : List Char) : Bytes :=
  text.flatMap String.utf8EncodeChar

@[simp] theorem encode_nil : encode [] = [] := rfl

@[simp] theorem encode_append (s t : List Char) : encode (s ++ t) = encode s ++ encode t := by
  simp [encode]

/-! ## The reading machine -/

/-- A character that has begun and is not complete: how many bytes are still missing, the range
the next one must lie in, and the bits read so far. -/
structure Pending where
  missing : Nat
  low : UInt8
  high : UInt8
  bits : Nat
deriving DecidableEq, Repr

/-- What a byte above `0x7f` announces when it stands first. The range of the second byte
excludes overlong forms, surrogates and everything beyond the last code point. -/
def lead (b : UInt8) : Option Pending :=
  if 0xc2 ≤ b ∧ b ≤ 0xdf then some ⟨1, 0x80, 0xbf, b.toNat - 0xc0⟩
  else if b = 0xe0 then some ⟨2, 0xa0, 0xbf, 0⟩
  else if b = 0xed then some ⟨2, 0x80, 0x9f, 0xd⟩
  else if 0xe1 ≤ b ∧ b ≤ 0xef then some ⟨2, 0x80, 0xbf, b.toNat - 0xe0⟩
  else if b = 0xf0 then some ⟨3, 0x90, 0xbf, 0⟩
  else if 0xf1 ≤ b ∧ b ≤ 0xf3 then some ⟨3, 0x80, 0xbf, b.toNat - 0xf0⟩
  else if b = 0xf4 then some ⟨3, 0x80, 0x8f, 4⟩
  else none

/-- The reader: segments already cut, the latest first, and the character that has begun. -/
structure Reader where
  done : List (Option Char) := []
  pending : Option Pending := none
deriving Repr

/-- Reads a byte that stands between characters. -/
def Reader.start (done : List (Option Char)) (b : UInt8) : Reader :=
  if b < 0x80 then ⟨some (Char.ofNat b.toNat) :: done, none⟩
  else
    match lead b with
    | some p => ⟨done, some p⟩
    | none => ⟨none :: done, none⟩

/-- Reads one byte. A byte that cannot continue the character that has begun ends it as
ill-formed and is then read again as a first byte. -/
def Reader.feed (r : Reader) (b : UInt8) : Reader :=
  match r.pending with
  | none => Reader.start r.done b
  | some p =>
    if p.low ≤ b ∧ b ≤ p.high then
      let bits := p.bits * 64 + (b.toNat - 0x80)
      if p.missing = 1 then ⟨some (Char.ofNat bits) :: r.done, none⟩
      else ⟨r.done, some ⟨p.missing - 1, 0x80, 0xbf, bits⟩⟩
    else Reader.start (none :: r.done) b

/-- The segments once no byte follows: a character that has begun is ill-formed. -/
def Reader.finish (r : Reader) : List (Option Char) :=
  match r.pending with
  | none => r.done.reverse
  | some _ => (none :: r.done).reverse

/-! ## Reading -/

/-- The segments of a byte string, `none` for an ill-formed one. -/
def segments (bs : Bytes) : List (Option Char) :=
  (bs.foldl Reader.feed {}).finish

/-- The character that stands for an ill-formed segment. -/
def replacement : Char := '\ufffd'

/-- The text of a byte string, each ill-formed segment replaced by one `replacement`. -/
def decodeLossy (bs : Bytes) : List Char :=
  (segments bs).map (·.getD replacement)

/-- The text of a byte string that is UTF-8 throughout. -/
def decode? (bs : Bytes) : Option (List Char) :=
  if (segments bs).all Option.isSome then some (decodeLossy bs) else none

@[simp] theorem segments_nil : segments [] = [] := rfl

@[simp] theorem decodeLossy_nil : decodeLossy [] = [] := rfl

/-- Where strict reading succeeds, lossy reading gives the same text. -/
theorem decodeLossy_of_decode? {bs : Bytes} {text : List Char} (h : decode? bs = some text) :
    decodeLossy bs = text := by
  unfold decode? at h
  split at h <;> simp_all

end Utf8

/-- The UTF-8 bytes of a string. -/
def Bytes.ofString (s : String) : Bytes :=
  Utf8.encode s.toList

instance : Coe String Bytes := ⟨Bytes.ofString⟩

end InkLint
