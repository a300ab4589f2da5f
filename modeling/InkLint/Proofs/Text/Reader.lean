import InkLint.Proofs.Text.Utf8

/-!
# Readers among other bytes

A reader that stands between characters reads what follows as if nothing had come before
(`finish_between`). The first byte of a character never continues another one: whatever has begun
before it is given up, and the reader stands between characters (`Reader.feed_first`). So a text is
read as itself, whatever bytes stand around its own (`segments_append_encode`).
-/

namespace InkLint

namespace Utf8

variable {bs : Bytes} {b : UInt8} {r : Reader} {before : List (Option Char)}

/-! ## Segments that were cut off earlier -/

/-- The reader with further segments cut off before its own. -/
def Reader.behind (r : Reader) (before : List (Option Char)) : Reader :=
  ⟨r.done ++ before, r.pending⟩

theorem start_behind (done before : List (Option Char)) (b : UInt8) :
    Reader.start (done ++ before) b = (Reader.start done b).behind before := by
  unfold Reader.start
  by_cases hb : b < 0x80
  · simp [hb, Reader.behind]
  · cases hlead : lead b <;> simp [hb, Reader.behind]

theorem feed_behind : (r.behind before).feed b = (r.feed b).behind before := by
  obtain ⟨done, pending⟩ := r
  cases pending with
  | none => exact start_behind done before b
  | some p =>
    by_cases hb : p.low ≤ b ∧ b ≤ p.high
    · by_cases hmissing : p.missing = 1 <;> simp [Reader.behind, Reader.feed, hb, hmissing]
    · simpa [Reader.behind, Reader.feed, hb] using start_behind (none :: done) before b

theorem foldl_feed_behind (bs : Bytes) :
    bs.foldl Reader.feed (r.behind before) = (bs.foldl Reader.feed r).behind before := by
  induction bs generalizing r with
  | nil => rfl
  | cons b bs ih => rw [List.foldl_cons, List.foldl_cons, feed_behind, ih]

theorem finish_behind : (r.behind before).finish = before.reverse ++ r.finish := by
  obtain ⟨done, pending⟩ := r
  cases pending <;> simp [Reader.behind, Reader.finish]

/-- A reader that stands between characters reads what follows as if nothing had come before. -/
theorem finish_between (done : List (Option Char)) (bs : Bytes) :
    (bs.foldl Reader.feed ⟨done, none⟩).finish = done.reverse ++ segments bs := by
  rw [show (⟨done, none⟩ : Reader) = Reader.behind {} done from rfl, foldl_feed_behind,
    finish_behind, segments]

/-- The same, once it has read the byte in front. -/
theorem finish_start (done : List (Option Char)) (b : UInt8) (bs : Bytes) :
    (bs.foldl Reader.feed (Reader.start done b)).finish = done.reverse ++ segments (b :: bs) := by
  rw [← finish_between done (b :: bs)]
  rfl

/-! ## First bytes of characters -/

/-- The character that has begun, if any, goes on with a continuing byte. -/
def Reader.Expects (r : Reader) : Prop :=
  ∀ p, r.pending = some p → 0x80 ≤ p.low ∧ p.high ≤ 0xbf

theorem expects_start (done : List (Option Char)) (b : UInt8) :
    (Reader.start done b).Expects := by
  intro p hp
  unfold Reader.start at hp
  by_cases hb : b < 0x80
  · simp [hb] at hp
  · cases hlead : lead b with
    | none => simp [hb, hlead] at hp
    | some q =>
      obtain rfl : q = p := by simpa [hb, hlead] using hp
      exact (begun_of_lead hlead).range

theorem expects_feed (r : Reader) (b : UInt8) : (r.feed b).Expects := by
  obtain ⟨done, pending⟩ := r
  cases pending with
  | none => exact expects_start done b
  | some q =>
    by_cases hb : q.low ≤ b ∧ b ≤ q.high
    · intro p hp
      by_cases hmissing : q.missing = 1
      · simp [Reader.feed, hb, hmissing] at hp
      · simp only [Reader.feed, hb, hmissing, and_self, if_true, if_false, Option.some.injEq] at hp
        subst hp
        exact ⟨UInt8.le_refl _, UInt8.le_refl _⟩
    · simpa [Reader.feed, hb] using expects_start (none :: done) b

theorem expects_foldl (bs : Bytes) : (bs.foldl Reader.feed {}).Expects := by
  induction bs using List.reverseRecOn with
  | nil => intro p hp; cases hp
  | append_singleton bs b ih =>
    rw [List.foldl_append]
    exact expects_feed _ b

/-- A byte that continues nothing ends what has begun. -/
theorem Reader.feed_first (hr : r.Expects) (hb : b < 0x80 ∨ 0xbf < b) :
    r.feed b = Reader.start r.finish.reverse b := by
  obtain ⟨done, pending⟩ := r
  cases pending with
  | none => simp [Reader.feed, Reader.finish]
  | some p =>
    obtain ⟨hlow, hhigh⟩ := hr p rfl
    have hrange : ¬(p.low ≤ b ∧ b ≤ p.high) := by
      rintro ⟨hge, hle⟩
      rcases hb with hb | hb
      · exact absurd (UInt8.lt_of_lt_of_le hb (UInt8.le_trans hlow hge)) (UInt8.lt_irrefl b)
      · exact absurd (UInt8.lt_of_lt_of_le hb (UInt8.le_trans hle hhigh)) (UInt8.lt_irrefl 0xbf)
    simp [Reader.feed, Reader.finish, hrange]

theorem not_continuing (h : b.IsUTF8FirstByte) : b < 0x80 ∨ 0xbf < b := by
  by_contra hb
  simp only [not_or, UInt8.lt_iff_toNat_lt, UInt8.reduceToNat, not_lt] at hb
  obtain ⟨n, hn, rfl⟩ : ∃ n, n < 256 ∧ b = UInt8.ofNat n :=
    ⟨b.toNat, b.toNat_lt, UInt8.ofNat_toNat.symm⟩
  rw [UInt8.toNat_ofNat_of_lt' hn] at hb
  obtain ⟨hlow, hhigh⟩ := hb
  interval_cases n <;> exact absurd h (by decide)

/-- The first byte of a character continues nothing. -/
theorem exists_first_byte (c : Char) :
    ∃ b rest, String.utf8EncodeChar c = b :: rest ∧ (b < 0x80 ∨ 0xbf < b) := by
  have hfirst := UInt8.isUTF8FirstByte_getElem_zero_utf8EncodeChar (c := c)
  obtain ⟨b, rest, hbytes⟩ := List.exists_cons_of_ne_nil (String.utf8EncodeChar_ne_nil (c := c))
  simp only [hbytes, List.getElem_cons_zero] at hfirst
  exact ⟨b, rest, hbytes, not_continuing hfirst⟩

/-! ## Characters among other bytes -/

/-- A character is read as itself, whatever has begun before it. -/
theorem feed_char (hr : r.Expects) (c : Char) :
    (String.utf8EncodeChar c).foldl Reader.feed r = ⟨some c :: r.finish.reverse, none⟩ := by
  obtain ⟨b, rest, hbytes, hb⟩ := exists_first_byte c
  rw [← feed_utf8EncodeChar, hbytes, List.foldl_cons, List.foldl_cons, r.feed_first hr hb]
  rfl

/-- The characters of a text stand among the segments where its bytes stand. -/
theorem segments_append_encode (first rest : Bytes) (c : Char) (text : List Char) :
    segments (first ++ encode (c :: text) ++ rest) =
      segments first ++ (c :: text).map some ++ segments rest := by
  have hencode : encode (c :: text) = String.utf8EncodeChar c ++ encode text := rfl
  rw [segments, List.foldl_append, List.foldl_append, hencode, List.foldl_append,
    feed_char (expects_foldl first), feed_encode, finish_between]
  simp [segments]

/-- A text is read as itself, whatever stands around its bytes. -/
theorem decodeLossy_append_encode (first rest : Bytes) (c : Char) (text : List Char) :
    decodeLossy (first ++ encode (c :: text) ++ rest) =
      decodeLossy first ++ (c :: text) ++ decodeLossy rest := by
  rw [decodeLossy, segments_append_encode]
  simp [decodeLossy]

end Utf8

end InkLint
