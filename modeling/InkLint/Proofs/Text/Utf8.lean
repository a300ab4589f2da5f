import InkLint.Text.Utf8
import Mathlib

/-!
# UTF-8 both ways

Reading takes back what writing wrote (`segments_encode`, `decode?_encode`), and the byte strings
that strict reading accepts are exactly those that writing produces (`decode?_eq_some_iff`).

The first half feeds the bytes of one character to a reader that stands between characters. The
second half keeps the bytes that the reader has taken for the character that has begun
(`Pending.Begun`): when the last one comes in, they are the bytes of the character it is read as.
-/

namespace InkLint

namespace Utf8

variable {done : List (Option Char)} {p : Pending} {held bs : Bytes} {b : UInt8}
variable {text : List Char}

/-! ## Texts and their bytes -/

theorem encode_flatten (texts : List (List Char)) :
    encode texts.flatten = (texts.map encode).flatten := by
  induction texts with
  | nil => rfl
  | cons text texts ih => rw [List.flatten_cons, encode_append, ih, List.map_cons, List.flatten_cons]

theorem encode_eq_nil_iff : encode text = [] ↔ text = [] := by
  cases text with
  | nil => simp
  | cons c text => simp [encode, String.utf8EncodeChar_ne_nil]

/-! ## First bytes -/

theorem lead_two {x : Nat} (hx : 2 ≤ x) (hx' : x < 32) :
    lead (UInt8.ofNat (x + 192)) = some ⟨1, 0x80, 0xbf, x⟩ := by
  interval_cases x <;> rfl

theorem lead_three {x : Nat} (hx : x < 16) :
    lead (UInt8.ofNat (x + 224)) =
      some ⟨2, if x = 0 then 0xa0 else 0x80, if x = 13 then 0x9f else 0xbf, x⟩ := by
  interval_cases x <;> rfl

theorem lead_four {x : Nat} (hx : x ≤ 4) :
    lead (UInt8.ofNat (x + 240)) =
      some ⟨3, if x = 0 then 0x90 else 0x80, if x = 4 then 0x8f else 0xbf, x⟩ := by
  interval_cases x <;> rfl

theorem lead_none {n : Nat} (h : n < 0xc2 ∨ 0xf5 ≤ n) (h' : n < 0x100) :
    lead (UInt8.ofNat n) = none := by
  rcases h with h | h <;> interval_cases n <;> rfl

theorem start_lead (h : lead b = some p) : Reader.start done b = ⟨done, some p⟩ := by
  have hb : ¬b < 0x80 := by
    intro hlt
    have hlt : b.toNat < 0x80 := UInt8.lt_iff_toNat_lt.1 hlt
    have hnone := lead_none (n := b.toNat) (by omega) (by omega)
    rw [UInt8.ofNat_toNat, h] at hnone
    cases hnone
  simp [Reader.start, hb, h]

/-! ## Characters -/

section Steps

variable {low high : UInt8} {bits missing : Nat}

theorem feed_more (hlow : low ≤ b) (hhigh : b ≤ high) :
    Reader.feed ⟨done, some ⟨missing + 2, low, high, bits⟩⟩ b =
      ⟨done, some ⟨missing + 1, 0x80, 0xbf, bits * 64 + (b.toNat - 0x80)⟩⟩ := by
  simp [Reader.feed, hlow, hhigh]

theorem feed_last (hlow : low ≤ b) (hhigh : b ≤ high) :
    Reader.feed ⟨done, some ⟨1, low, high, bits⟩⟩ b =
      ⟨some (Char.ofNat (bits * 64 + (b.toNat - 0x80))) :: done, none⟩ := by
  simp [Reader.feed, hlow, hhigh]

end Steps

/-- A number below 64 as the byte that continues a character. -/
theorem continuation {n : Nat} (h : n < 64) :
    (UInt8.ofNat (n + 128)).toNat = n + 128 ∧
      0x80 ≤ UInt8.ofNat (n + 128) ∧ UInt8.ofNat (n + 128) ≤ 0xbf := by
  interval_cases n <;> decide

theorem continuation_le_iff {m n : Nat} (hm : m < 64) (hn : n < 64) :
    UInt8.ofNat (m + 128) ≤ UInt8.ofNat (n + 128) ↔ m ≤ n := by
  rw [UInt8.le_iff_toNat_le, (continuation hm).1, (continuation hn).1]
  omega

theorem feed_two {x y : Nat} (hx : 2 ≤ x) (hx' : x < 32) (hy : y < 64) :
    [UInt8.ofNat (x + 192), UInt8.ofNat (y + 128)].foldl Reader.feed ⟨done, none⟩ =
      ⟨some (Char.ofNat (x * 64 + y)) :: done, none⟩ := by
  obtain ⟨hval, hlow, hhigh⟩ := continuation hy
  calc
    _ = Reader.feed ⟨done, some ⟨1, 0x80, 0xbf, x⟩⟩ (UInt8.ofNat (y + 128)) := by
      rw [List.foldl_cons, List.foldl_cons, List.foldl_nil]
      exact congrArg (Reader.feed · _) (start_lead (lead_two hx hx'))
    _ = _ := by
      rw [feed_last hlow hhigh, hval]
      simp

theorem feed_three {x y z : Nat} (hx : x < 16) (hy : y < 64) (hz : z < 64) (hlow : x = 0 → 32 ≤ y)
    (hhigh : x = 13 → y < 32) :
    [UInt8.ofNat (x + 224), UInt8.ofNat (y + 128), UInt8.ofNat (z + 128)].foldl Reader.feed
        ⟨done, none⟩ =
      ⟨some (Char.ofNat ((x * 64 + y) * 64 + z)) :: done, none⟩ := by
  obtain ⟨hy', hylow, hyhigh⟩ := continuation hy
  obtain ⟨hz', hzlow, hzhigh⟩ := continuation hz
  rw [List.foldl_cons, List.foldl_cons, List.foldl_cons, List.foldl_nil,
    show Reader.feed ⟨done, none⟩ (UInt8.ofNat (x + 224)) = _ from start_lead (lead_three hx),
    feed_more, feed_last hzlow hzhigh, hy', hz']
  · simp
  · split
    · exact (continuation_le_iff (m := 32) (by omega) hy).2 (hlow ‹_›)
    · exact hylow
  · split
    · exact (continuation_le_iff (n := 31) hy (by omega)).2 (Nat.le_of_lt_succ (hhigh ‹_›))
    · exact hyhigh

theorem feed_four {x y z w : Nat} (hx : x ≤ 4) (hy : y < 64) (hz : z < 64) (hw : w < 64)
    (hlow : x = 0 → 16 ≤ y) (hhigh : x = 4 → y < 16) :
    [UInt8.ofNat (x + 240), UInt8.ofNat (y + 128), UInt8.ofNat (z + 128),
        UInt8.ofNat (w + 128)].foldl Reader.feed ⟨done, none⟩ =
      ⟨some (Char.ofNat (((x * 64 + y) * 64 + z) * 64 + w)) :: done, none⟩ := by
  obtain ⟨hy', hylow, hyhigh⟩ := continuation hy
  obtain ⟨hz', hzlow, hzhigh⟩ := continuation hz
  obtain ⟨hw', hwlow, hwhigh⟩ := continuation hw
  rw [List.foldl_cons, List.foldl_cons, List.foldl_cons, List.foldl_cons, List.foldl_nil,
    show Reader.feed ⟨done, none⟩ (UInt8.ofNat (x + 240)) = _ from start_lead (lead_four hx),
    feed_more, feed_more hzlow hzhigh, feed_last hwlow hwhigh, hy', hz', hw']
  · simp
  · split
    · exact (continuation_le_iff (m := 16) (by omega) hy).2 (hlow ‹_›)
    · exact hylow
  · split
    · exact (continuation_le_iff (n := 15) hy (by omega)).2 (Nat.le_of_lt_succ (hhigh ‹_›))
    · exact hyhigh

/-! ## Characters as they are written -/

theorem val_ofNat {v : Nat} (h : v < 0xd800 ∨ 0xdfff < v ∧ v < 0x110000) :
    (Char.ofNat v).val.toNat = v := by
  have hv : v.isValidChar := h
  have htoNat : (Char.ofNat v).toNat = v := by rw [Char.toNat_ofNat, if_pos hv]
  exact htoNat

theorem utf8EncodeChar_one {x : Nat} (hx : x < 128) :
    String.utf8EncodeChar (Char.ofNat x) = [UInt8.ofNat x] := by
  simp only [String.utf8EncodeChar, val_ofNat (v := x) (by omega)]
  rw [if_pos (by omega)]

theorem utf8EncodeChar_ascii (h : b < 0x80) : String.utf8EncodeChar (Char.ofNat b.toNat) = [b] := by
  rw [utf8EncodeChar_one (UInt8.lt_iff_toNat_lt.1 h), UInt8.ofNat_toNat]

theorem utf8EncodeChar_two {x y : Nat} (hx : 2 ≤ x) (hx' : x < 32) (hy : y < 64) :
    String.utf8EncodeChar (Char.ofNat (x * 64 + y)) =
      [UInt8.ofNat (x + 192), UInt8.ofNat (y + 128)] := by
  have hhead : (x * 64 + y) / 64 % 32 = x := by omega
  have hlast : (x * 64 + y) % 64 = y := by omega
  simp only [String.utf8EncodeChar, val_ofNat (v := x * 64 + y) (by omega), hhead, hlast]
  rw [if_neg (by omega), if_pos (by omega)]

theorem utf8EncodeChar_three {x y z : Nat} (hx : x < 16) (hy : y < 64) (hz : z < 64)
    (hlow : x = 0 → 32 ≤ y) (hhigh : x = 13 → y < 32) :
    String.utf8EncodeChar (Char.ofNat ((x * 64 + y) * 64 + z)) =
      [UInt8.ofNat (x + 224), UInt8.ofNat (y + 128), UInt8.ofNat (z + 128)] := by
  have hhead : ((x * 64 + y) * 64 + z) / 4096 % 16 = x := by omega
  have hmid : ((x * 64 + y) * 64 + z) / 64 % 64 = y := by omega
  have hlast : ((x * 64 + y) * 64 + z) % 64 = z := by omega
  simp only [String.utf8EncodeChar, val_ofNat (v := (x * 64 + y) * 64 + z) (by omega), hhead, hmid,
    hlast]
  rw [if_neg (by omega), if_neg (by omega), if_pos (by omega)]

theorem utf8EncodeChar_four {x y z w : Nat} (hx : x ≤ 4) (hy : y < 64) (hz : z < 64) (hw : w < 64)
    (hlow : x = 0 → 16 ≤ y) (hhigh : x = 4 → y < 16) :
    String.utf8EncodeChar (Char.ofNat (((x * 64 + y) * 64 + z) * 64 + w)) =
      [UInt8.ofNat (x + 240), UInt8.ofNat (y + 128), UInt8.ofNat (z + 128),
        UInt8.ofNat (w + 128)] := by
  have hhead : (((x * 64 + y) * 64 + z) * 64 + w) / 262144 % 8 = x := by omega
  have hsecond : (((x * 64 + y) * 64 + z) * 64 + w) / 4096 % 64 = y := by omega
  have hthird : (((x * 64 + y) * 64 + z) * 64 + w) / 64 % 64 = z := by omega
  have hlast : (((x * 64 + y) * 64 + z) * 64 + w) % 64 = w := by omega
  simp only [String.utf8EncodeChar, val_ofNat (v := ((x * 64 + y) * 64 + z) * 64 + w) (by omega),
    hhead, hsecond, hthird, hlast]
  rw [if_neg (by omega), if_neg (by omega), if_neg (by omega)]

/-! ## Reading what was written -/

/-- The bytes of a character are read as that character, and the reader is between characters
again. -/
theorem feed_utf8EncodeChar (done : List (Option Char)) (c : Char) :
    (String.utf8EncodeChar c).foldl Reader.feed ⟨done, none⟩ = ⟨some c :: done, none⟩ := by
  obtain ⟨v, rfl, hv⟩ : ∃ v, c = Char.ofNat v ∧ (v < 0xd800 ∨ 0xdfff < v ∧ v < 0x110000) :=
    ⟨c.toNat, (Char.ofNat_toNat c).symm, c.valid⟩
  by_cases h1 : v < 0x80
  · have hb : (UInt8.ofNat v).toNat = v := UInt8.toNat_ofNat_of_lt' (h1.trans (by decide))
    have hlt : UInt8.ofNat v < 0x80 := UInt8.lt_iff_toNat_lt.2 (hb.symm ▸ h1)
    rw [utf8EncodeChar_one h1]
    simp [Reader.feed, Reader.start, hlt, hb]
  · by_cases h2 : v < 0x800
    · rw [show v = v / 64 * 64 + v % 64 by omega,
        utf8EncodeChar_two (by omega) (by omega) (by omega),
        feed_two (by omega) (by omega) (by omega)]
    · by_cases h3 : v < 0x10000
      · rw [show v = (v / 4096 * 64 + v / 64 % 64) * 64 + v % 64 by omega,
          utf8EncodeChar_three (by omega) (by omega) (by omega) (by omega) (by omega),
          feed_three (by omega) (by omega) (by omega) (by omega) (by omega)]
      · rw [show v = ((v / 262144 * 64 + v / 4096 % 64) * 64 + v / 64 % 64) * 64 + v % 64 by omega,
          utf8EncodeChar_four (by omega) (by omega) (by omega) (by omega) (by omega) (by omega),
          feed_four (by omega) (by omega) (by omega) (by omega) (by omega) (by omega)]

theorem feed_encode (done : List (Option Char)) (text : List Char) :
    (encode text).foldl Reader.feed ⟨done, none⟩ = ⟨(text.map some).reverse ++ done, none⟩ := by
  induction text generalizing done with
  | nil => rfl
  | cons c text ih =>
    rw [show encode (c :: text) = String.utf8EncodeChar c ++ encode text from rfl,
      List.foldl_append, feed_utf8EncodeChar, ih]
    simp

/-- **Reading takes back what was written.** -/
theorem segments_encode (text : List Char) : segments (encode text) = text.map some := by
  have h := feed_encode [] text
  rw [List.append_nil] at h
  rw [segments, show ({} : Reader) = ⟨[], none⟩ from rfl, h]
  simp [Reader.finish]

theorem decode?_encode (text : List Char) : decode? (encode text) = some text := by
  simp [decode?, decodeLossy, segments_encode]

theorem decodeLossy_encode (text : List Char) : decodeLossy (encode text) = text :=
  decodeLossy_of_decode? (decode?_encode text)

theorem encode_injective : Function.Injective encode := by
  intro s t h
  have hread := congrArg decode? h
  rwa [decode?_encode, decode?_encode, Option.some.injEq] at hread

/-! ## Bytes of characters that have begun -/

/-- The bytes that were taken for a character that has begun: after the first byte of two, three
or four, after the second of three or four, and after the third of four. -/
inductive Pending.Begun : Pending → Bytes → Prop
  | two {x : Nat} (hx : 2 ≤ x) (hx' : x < 32) : Begun ⟨1, 0x80, 0xbf, x⟩ [UInt8.ofNat (x + 192)]
  | three {x : Nat} (hx : x < 16) :
      Begun ⟨2, if x = 0 then 0xa0 else 0x80, if x = 13 then 0x9f else 0xbf, x⟩
        [UInt8.ofNat (x + 224)]
  | secondOfThree {x y : Nat} (hx : x < 16) (hy : y < 64) (hlow : x = 0 → 32 ≤ y)
      (hhigh : x = 13 → y < 32) :
      Begun ⟨1, 0x80, 0xbf, x * 64 + y⟩ [UInt8.ofNat (x + 224), UInt8.ofNat (y + 128)]
  | four {x : Nat} (hx : x ≤ 4) :
      Begun ⟨3, if x = 0 then 0x90 else 0x80, if x = 4 then 0x8f else 0xbf, x⟩
        [UInt8.ofNat (x + 240)]
  | secondOfFour {x y : Nat} (hx : x ≤ 4) (hy : y < 64) (hlow : x = 0 → 16 ≤ y)
      (hhigh : x = 4 → y < 16) :
      Begun ⟨2, 0x80, 0xbf, x * 64 + y⟩ [UInt8.ofNat (x + 240), UInt8.ofNat (y + 128)]
  | thirdOfFour {x y z : Nat} (hx : x ≤ 4) (hy : y < 64) (hz : z < 64) (hlow : x = 0 → 16 ≤ y)
      (hhigh : x = 4 → y < 16) :
      Begun ⟨1, 0x80, 0xbf, (x * 64 + y) * 64 + z⟩
        [UInt8.ofNat (x + 240), UInt8.ofNat (y + 128), UInt8.ofNat (z + 128)]

theorem begun_of_lead (h : lead b = some p) : p.Begun [b] := by
  obtain ⟨n, hn, rfl⟩ : ∃ n, n < 256 ∧ b = UInt8.ofNat n :=
    ⟨b.toNat, b.toNat_lt, UInt8.ofNat_toNat.symm⟩
  by_cases hnone : n < 0xc2 ∨ 0xf5 ≤ n
  · rw [lead_none hnone hn] at h
    cases h
  · by_cases htwo : n < 0xe0
    · obtain ⟨x, rfl⟩ : ∃ x, n = x + 192 := ⟨n - 192, by omega⟩
      rw [lead_two (by omega) (by omega)] at h
      cases h
      exact .two (by omega) (by omega)
    · by_cases hthree : n < 0xf0
      · obtain ⟨x, rfl⟩ : ∃ x, n = x + 224 := ⟨n - 224, by omega⟩
        rw [lead_three (by omega)] at h
        cases h
        exact .three (by omega)
      · obtain ⟨x, rfl⟩ : ∃ x, n = x + 240 := ⟨n - 240, by omega⟩
        rw [lead_four (by omega)] at h
        cases h
        exact .four (by omega)

/-- What continues a character is a continuing byte. -/
theorem Pending.Begun.range (h : p.Begun held) : 0x80 ≤ p.low ∧ p.high ≤ 0xbf := by
  cases h with
  | two | secondOfThree | secondOfFour | thirdOfFour => dsimp only; decide
  | three | four => constructor <;> dsimp only <;> split <;> decide

/-- A byte within the range stands for six further bits. -/
theorem Pending.Begun.exists_bits (h : p.Begun held) (hlow : p.low ≤ b) (hhigh : b ≤ p.high) :
    ∃ y, y < 64 ∧ b = UInt8.ofNat (y + 128) ∧ b.toNat - 0x80 = y := by
  have hrange := h.range
  have hlow : 128 ≤ b.toNat := UInt8.le_iff_toNat_le.1 (UInt8.le_trans hrange.1 hlow)
  have hhigh : b.toNat ≤ 191 := UInt8.le_iff_toNat_le.1 (UInt8.le_trans hhigh hrange.2)
  refine ⟨b.toNat - 128, by omega, ?_, rfl⟩
  rw [Nat.sub_add_cancel hlow, UInt8.ofNat_toNat]

/-- A byte that is not the last one. -/
theorem Pending.Begun.more (h : p.Begun held) (hlow : p.low ≤ b) (hhigh : b ≤ p.high)
    (hmissing : p.missing ≠ 1) :
    Begun ⟨p.missing - 1, 0x80, 0xbf, p.bits * 64 + (b.toNat - 0x80)⟩ (held ++ [b]) := by
  obtain ⟨y, hy, rfl, hval⟩ := h.exists_bits hlow hhigh
  rw [hval]
  cases h with
  | two | secondOfThree | thirdOfFour => exact absurd rfl hmissing
  | three hx =>
    refine .secondOfThree hx hy ?_ ?_
    · rintro rfl
      exact (continuation_le_iff (m := 32) (by omega) hy).1 hlow
    · rintro rfl
      exact Nat.lt_succ_of_le ((continuation_le_iff (n := 31) hy (by omega)).1 hhigh)
  | four hx =>
    refine .secondOfFour hx hy ?_ ?_
    · rintro rfl
      exact (continuation_le_iff (m := 16) (by omega) hy).1 hlow
    · rintro rfl
      exact Nat.lt_succ_of_le ((continuation_le_iff (n := 15) hy (by omega)).1 hhigh)
  | secondOfFour hx hx' hl hh => exact .thirdOfFour hx hx' hy hl hh

/-- The byte that comes last completes the bytes of the character that is then read. -/
theorem Pending.Begun.complete (h : p.Begun held) (hlow : p.low ≤ b) (hhigh : b ≤ p.high)
    (hmissing : p.missing = 1) :
    String.utf8EncodeChar (Char.ofNat (p.bits * 64 + (b.toNat - 0x80))) = held ++ [b] := by
  obtain ⟨y, hy, rfl, hval⟩ := h.exists_bits hlow hhigh
  rw [hval]
  cases h with
  | two hx hx' => exact utf8EncodeChar_two hx hx' hy
  | secondOfThree hx hx' hl hh => exact utf8EncodeChar_three hx hx' hy hl hh
  | thirdOfFour hx hx' hx'' hl hh => exact utf8EncodeChar_four hx hx' hx'' hy hl hh
  | three | four | secondOfFour => cases hmissing

/-! ## Writing what was read -/

/-- What a reader that has met nothing ill-formed has read: whole characters, and the bytes of the
one that has begun. -/
inductive Reader.Reads : Reader → Bytes → Prop
  | between (text : List Char) : Reads ⟨(text.map some).reverse, none⟩ (encode text)
  | within (text : List Char) {p : Pending} {held : Bytes} (h : p.Begun held) :
      Reads ⟨(text.map some).reverse, some p⟩ (encode text ++ held)

/-- A further character between characters. -/
theorem Reader.Reads.concat (text : List Char) {c : Char} (h : String.utf8EncodeChar c = bs) :
    Reads ⟨some c :: (text.map some).reverse, none⟩ (encode text ++ bs) := by
  have hreads := Reads.between (text ++ [c])
  rw [List.map_append, List.reverse_append, encode_append,
    show encode [c] = bs from (List.append_nil _).trans h] at hreads
  exact hreads

/-- What was cut off stays cut off. -/
theorem Reader.suffix_start (done : List (Option Char)) (b : UInt8) :
    done <:+ (Reader.start done b).done := by
  unfold Reader.start
  split
  · exact List.suffix_cons _ _
  · split
    · exact List.suffix_refl _
    · exact List.suffix_cons _ _

theorem Reader.suffix_feed (r : Reader) (b : UInt8) : r.done <:+ (r.feed b).done := by
  unfold Reader.feed
  split
  · exact Reader.suffix_start _ _
  · split
    · dsimp only
      split
      · exact List.suffix_cons _ _
      · exact List.suffix_refl _
    · exact (List.suffix_cons _ _).trans (Reader.suffix_start _ _)

/-- One byte, unless it shows something ill-formed. -/
theorem Reader.Reads.feed {r : Reader} (h : r.Reads bs) (hfeed : none ∉ (r.feed b).done) :
    (r.feed b).Reads (bs ++ [b]) := by
  cases h with
  | between text =>
    by_cases hb : b < 0x80
    · simpa [Reader.feed, Reader.start, hb] using Reads.concat text (utf8EncodeChar_ascii hb)
    · cases hlead : lead b with
      | none => simp [Reader.feed, Reader.start, hb, hlead] at hfeed
      | some p =>
        simpa [Reader.feed, Reader.start, hb, hlead] using Reads.within text (begun_of_lead hlead)
  | @within text p held h =>
    by_cases hb : p.low ≤ b ∧ b ≤ p.high
    · by_cases hmissing : p.missing = 1
      · simpa [Reader.feed, hb, hmissing] using Reads.concat text (h.complete hb.1 hb.2 hmissing)
      · simpa [Reader.feed, hb, hmissing] using Reads.within text (h.more hb.1 hb.2 hmissing)
    · -- the character that has begun is given up
      refine absurd ?_ hfeed
      simp only [Reader.feed, hb, if_false]
      exact (Reader.suffix_start _ _).mem (by simp)

theorem reads_of_not_mem (bs : Bytes) (h : none ∉ (bs.foldl Reader.feed {}).done) :
    (bs.foldl Reader.feed {}).Reads bs := by
  induction bs using List.reverseRecOn with
  | nil => exact .between []
  | append_singleton bs b ih =>
    rw [List.foldl_append] at h ⊢
    have hbefore : none ∉ (bs.foldl Reader.feed {}).done :=
      fun hmem => h ((Reader.suffix_feed _ b).mem hmem)
    exact (ih hbefore).feed h

/-- A byte string without an ill-formed segment is the bytes of a text. -/
theorem exists_encode (h : none ∉ segments bs) : ∃ text, encode text = bs := by
  unfold segments Reader.finish at h
  have hreads := reads_of_not_mem bs
  generalize bs.foldl Reader.feed {} = r at h hreads
  obtain ⟨done, pending⟩ := r
  cases pending with
  | none =>
    cases hreads (by simpa using h) with
    | between text => exact ⟨text, rfl⟩
  | some p => simp at h

/-- **Strict reading accepts exactly what writing produces**, and gives back what was written. -/
theorem decode?_eq_some_iff : decode? bs = some text ↔ encode text = bs := by
  constructor
  · intro h
    have hsegments : none ∉ segments bs := by
      intro hmem
      have hall : ¬(segments bs).all Option.isSome := by
        simpa using hmem
      rw [decode?, if_neg hall] at h
      cases h
    obtain ⟨written, rfl⟩ := exists_encode hsegments
    rw [decode?_encode] at h
    cases h
    rfl
  · rintro rfl
    exact decode?_encode text

end Utf8

end InkLint
