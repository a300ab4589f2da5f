import InkLint.Proofs.Text.Reader

/-!
# Segments

What lossy reading is to do can be said without the reader. At every place of a byte string either
the bytes of a character stand there, and they are kept, or none do. Then the *maximal subpart*
there is the longest stretch of bytes that starts some character, or a single byte if none starts
one, and it is replaced as a whole. Both are said with `String.utf8EncodeChar` alone.

There is one way to cut a byte string like this (`exists_segmentation`, `Segmentation.unique`), and
the reader finds it (`Segmentation.segments_eq`). A reader that was given the start of a character
holds just that (`StartsChar.begun`), and a byte in the range it expects makes a longer start
(`Pending.Begun.startsChar_concat`), so it gives up at the end of a maximal subpart and not before.
-/

namespace InkLint

namespace Utf8

/-! ## Segments -/

/-- The bytes are those of some character, or the first ones of them. -/
def StartsChar (bs : Bytes) : Prop :=
  ∃ c, bs <+: String.utf8EncodeChar c

/-- What may be replaced as a whole: bytes that start a character, or a single byte. -/
def IsSubpart (bs : Bytes) : Prop :=
  StartsChar bs ∨ bs.length = 1

/-- No character can be read where `part` stands in front of `rest`, and `part` is the longest
subpart there. -/
structure IsMaximalSubpart (part rest : Bytes) : Prop where
  ne_nil : part ≠ []
  unreadable : ∀ c, ¬String.utf8EncodeChar c <+: part ++ rest
  subpart : IsSubpart part
  longest : ∀ other, other <+: part ++ rest → IsSubpart other → other.length ≤ part.length

/-- A part of a byte string: a character that is kept, or bytes that are replaced. -/
inductive Segment where
  | kept (c : Char)
  | replaced (part : Bytes)
deriving DecidableEq, Repr

namespace Segment

/-- The bytes a segment takes up. -/
def bytes : Segment → Bytes
  | kept c => String.utf8EncodeChar c
  | replaced part => part

/-- The character a segment is read as. -/
def char : Segment → Char
  | kept c => c
  | replaced _ => replacement

/-- The bytes that stand for a segment in what was read. -/
def shown : Segment → Bytes
  | kept c => String.utf8EncodeChar c
  | replaced _ => String.utf8EncodeChar replacement

/-- The character a segment has of its own. -/
def char? : Segment → Option Char
  | kept c => some c
  | replaced _ => none

theorem getD_char? (seg : Segment) : seg.char?.getD replacement = seg.char := by
  cases seg <;> rfl

end Segment

/-- A byte string cut from left to right: what stands in front is a character, or a maximal subpart
of what is none. -/
inductive Segmentation : Bytes → List Segment → Prop
  | nil : Segmentation [] []
  | kept {rest : Bytes} {segs : List Segment} (c : Char) (h : Segmentation rest segs) :
      Segmentation (String.utf8EncodeChar c ++ rest) (.kept c :: segs)
  | replaced {part rest : Bytes} {segs : List Segment} (hpart : IsMaximalSubpart part rest)
      (h : Segmentation rest segs) : Segmentation (part ++ rest) (.replaced part :: segs)

variable {bs held part rest : Bytes} {b : UInt8} {p : Pending} {segs : List Segment}

/-- Segments in front take up the bytes in front. -/
theorem Segmentation.split {first others : List Segment} (h : Segmentation bs (first ++ others)) :
    ∃ rest, first.flatMap Segment.bytes ++ rest = bs ∧ Segmentation rest others := by
  induction first generalizing bs with
  | nil => exact ⟨bs, rfl, h⟩
  | cons seg first ih =>
    cases h with
    | kept c h =>
      obtain ⟨rest, rfl, hrest⟩ := ih h
      exact ⟨rest, by rw [List.flatMap_cons, List.append_assoc]; rfl, hrest⟩
    | replaced hpart h =>
      obtain ⟨rest, rfl, hrest⟩ := ih h
      exact ⟨rest, by rw [List.flatMap_cons, List.append_assoc]; rfl, hrest⟩

theorem Segmentation.flatMap_bytes (h : Segmentation bs segs) :
    segs.flatMap Segment.bytes = bs := by
  rw [← List.append_nil segs] at h
  obtain ⟨rest, hbytes, hrest⟩ := h.split
  cases hrest
  rwa [List.append_nil] at hbytes

/-! ## Starts of characters -/

/-- A character in front is read as the first segment. -/
theorem segments_char_append (c : Char) (rest : Bytes) :
    segments (String.utf8EncodeChar c ++ rest) = some c :: segments rest := by
  have h := segments_append_encode [] rest c []
  rwa [show encode [c] = String.utf8EncodeChar c from List.append_nil _] at h

/-- No character's bytes start with those of another one. -/
theorem utf8EncodeChar_append_inj {c d : Char} {rest' : Bytes}
    (h : String.utf8EncodeChar c ++ rest = String.utf8EncodeChar d ++ rest') :
    c = d ∧ rest = rest' := by
  have hsegments := congrArg segments h
  rw [segments_char_append, segments_char_append, List.cons.injEq, Option.some.injEq] at hsegments
  obtain rfl : c = d := hsegments.1
  exact ⟨rfl, List.append_cancel_left h⟩

theorem Reader.suffix_foldl (r : Reader) (bs : Bytes) :
    r.done <:+ (bs.foldl Reader.feed r).done := by
  induction bs generalizing r with
  | nil => exact List.suffix_refl _
  | cons b bs ih => exact (r.suffix_feed b).trans (ih (r.feed b))

/-- The start of a character shows nothing ill-formed. -/
theorem StartsChar.none_not_mem (h : StartsChar bs) : none ∉ (bs.foldl Reader.feed {}).done := by
  obtain ⟨c, others, hbytes⟩ := h
  have hsuffix := Reader.suffix_foldl (bs.foldl Reader.feed {}) others
  rw [← List.foldl_append, hbytes, show ({} : Reader) = ⟨[], none⟩ from rfl,
    feed_utf8EncodeChar] at hsuffix
  intro hmem
  simpa using hsuffix.mem hmem

/-- A reader that was given the start of a character holds it. -/
theorem StartsChar.begun (h : StartsChar bs) (hne : bs ≠ [])
    (hpart : ∀ c, ¬String.utf8EncodeChar c <+: bs) :
    ∃ p, p.Begun bs ∧ bs.foldl Reader.feed {} = ⟨[], some p⟩ := by
  have hreads := reads_of_not_mem bs h.none_not_mem
  have htext (text : List Char) (hfront : encode text <+: bs) : text = [] := by
    cases text with
    | nil => rfl
    | cons c text => exact absurd ((List.prefix_append _ _).trans hfront) (hpart c)
  generalize bs.foldl Reader.feed {} = r at hreads
  cases hreads with
  | between text =>
    obtain rfl := htext text (List.prefix_refl _)
    exact absurd rfl hne
  | @within text p held hbegun =>
    obtain rfl := htext text (List.prefix_append _ _)
    exact ⟨p, hbegun, rfl⟩

theorem Pending.Begun.low_le_high (h : p.Begun held) : p.low ≤ p.high := by
  cases h with
  | two | secondOfThree | secondOfFour | thirdOfFour => dsimp only; decide
  | three | four => dsimp only; split <;> split <;> first | decide | omega

theorem Pending.Begun.missing_pos (h : p.Begun held) : 0 < p.missing := by
  cases h <;> exact Nat.succ_pos _

/-- What has begun is the start of a character: each time the lowest byte of the range goes on with
it. -/
theorem Pending.Begun.startsChar (h : p.Begun held) : StartsChar held := by
  induction hn : p.missing using Nat.strong_induction_on generalizing p held with
  | _ n ih =>
    have hlow : p.low ≤ p.low := UInt8.le_refl _
    by_cases hmissing : p.missing = 1
    · exact ⟨_, [p.low], (h.complete hlow h.low_le_high hmissing).symm⟩
    · have hmore := h.more hlow h.low_le_high hmissing
      have hpos := h.missing_pos
      obtain ⟨c, hc⟩ := ih (p.missing - 1) (by omega) hmore rfl
      exact ⟨c, (List.prefix_append _ _).trans hc⟩

/-- A byte in the range goes on with a character. -/
theorem Pending.Begun.startsChar_concat (h : p.Begun held) (hb : p.low ≤ b ∧ b ≤ p.high) :
    StartsChar (held ++ [b]) := by
  by_cases hmissing : p.missing = 1
  · exact ⟨_, [], (List.append_nil _).trans (h.complete hb.1 hb.2 hmissing).symm⟩
  · exact (h.more hb.1 hb.2 hmissing).startsChar

/-! ## The reader cuts as it should -/

/-- What a reader holds at the end of a maximal subpart is given up there. -/
theorem segments_of_begun (h : IsMaximalSubpart part rest) (hstarts : StartsChar part) :
    segments (part ++ rest) = none :: segments rest := by
  have hpart (c : Char) : ¬String.utf8EncodeChar c <+: part :=
    fun hc => h.unreadable c (hc.trans (List.prefix_append _ _))
  obtain ⟨p, hbegun, hread⟩ := hstarts.begun h.ne_nil hpart
  rw [segments, List.foldl_append, hread]
  cases rest with
  | nil => rfl
  | cons b rest =>
    have hb : ¬(p.low ≤ b ∧ b ≤ p.high) := by
      intro hb
      have hle := h.longest (part ++ [b]) ⟨rest, by simp⟩ (.inl (hbegun.startsChar_concat hb))
      simp at hle
    rw [List.foldl_cons, Reader.feed]
    simp only [hb, if_false]
    exact finish_start [none] b rest

/-- A byte that starts no character is given up at once. -/
theorem segments_of_single (hb : ¬StartsChar [b]) (rest : Bytes) :
    segments (b :: rest) = none :: segments rest := by
  have hascii : ¬b < 0x80 := by
    intro hlt
    refine hb ⟨Char.ofNat b.toNat, ?_⟩
    rw [utf8EncodeChar_ascii hlt]
  cases hlead : lead b with
  | some p => exact absurd (begun_of_lead hlead).startsChar hb
  | none =>
    rw [segments, List.foldl_cons]
    simpa [Reader.feed, Reader.start, hascii, hlead] using finish_between [none] rest

/-- A maximal subpart is one segment for the reader. -/
theorem IsMaximalSubpart.segments_eq (h : IsMaximalSubpart part rest) :
    segments (part ++ rest) = none :: segments rest := by
  by_cases hstarts : StartsChar part
  · exact segments_of_begun h hstarts
  · obtain ⟨b, rfl⟩ := List.length_eq_one_iff.1 (h.subpart.resolve_left hstarts)
    exact segments_of_single hstarts rest

/-- **The reader finds every segmentation.** -/
theorem Segmentation.segments_eq (h : Segmentation bs segs) :
    segments bs = segs.map Segment.char? := by
  induction h with
  | nil => rfl
  | kept c _ ih => rw [segments_char_append, ih, List.map_cons, Segment.char?]
  | replaced hpart _ ih => rw [hpart.segments_eq, ih, List.map_cons, Segment.char?]

theorem Segmentation.decodeLossy_eq (h : Segmentation bs segs) :
    decodeLossy bs = segs.map Segment.char := by
  rw [decodeLossy, h.segments_eq, List.map_map]
  exact List.map_congr_left fun seg _ => seg.getD_char?

theorem encode_chars (segs : List Segment) :
    encode (segs.map Segment.char) = segs.flatMap Segment.shown := by
  induction segs with
  | nil => rfl
  | cons seg segs ih =>
    have hchar : String.utf8EncodeChar seg.char = seg.shown := by cases seg <;> rfl
    rw [List.flatMap_cons, ← hchar, ← ih]
    rfl

/-! ## There is one segmentation -/

/-- Where no character stands there is a maximal subpart. -/
theorem exists_maximalSubpart (hne : bs ≠ [])
    (hnone : ∀ c, ¬String.utf8EncodeChar c <+: bs) :
    ∃ part rest, part ++ rest = bs ∧ IsMaximalSubpart part rest := by
  classical
  let P (n : Nat) : Prop := IsSubpart (bs.take n)
  have hlen : 1 ≤ bs.length := List.length_pos_iff.2 hne
  have hone : P 1 := .inr (by rw [List.length_take]; omega)
  have hsubpart : P (Nat.findGreatest P bs.length) := Nat.findGreatest_spec hlen hone
  have hpos : 1 ≤ Nat.findGreatest P bs.length := Nat.le_findGreatest hlen hone
  have hle : Nat.findGreatest P bs.length ≤ bs.length := Nat.findGreatest_le bs.length
  have hlongest (m : Nat) (hm : m ≤ bs.length) (h : P m) : m ≤ Nat.findGreatest P bs.length :=
    Nat.le_findGreatest hm h
  generalize Nat.findGreatest P bs.length = n at hsubpart hpos hle hlongest
  have htake : (bs.take n).length = n := List.length_take_of_le hle
  refine ⟨bs.take n, bs.drop n, List.take_append_drop n bs, ?_, ?_, hsubpart, ?_⟩
  · exact List.ne_nil_of_length_pos (by omega)
  · rwa [List.take_append_drop]
  · intro other hother hstarts
    rw [List.take_append_drop] at hother
    have hcut : IsSubpart (bs.take other.length) := by
      rwa [← List.prefix_iff_eq_take.1 hother]
    rw [htake]
    exact hlongest other.length hother.length_le hcut

theorem exists_segmentation (bs : Bytes) : ∃ segs, Segmentation bs segs := by
  induction hn : bs.length using Nat.strong_induction_on generalizing bs with
  | _ n ih =>
    by_cases hnil : bs = []
    · subst hnil
      exact ⟨[], .nil⟩
    · by_cases hchar : ∃ c, String.utf8EncodeChar c <+: bs
      · obtain ⟨c, rest, rfl⟩ := hchar
        have hpos := List.length_pos_iff.2 (String.utf8EncodeChar_ne_nil (c := c))
        rw [List.length_append] at hn
        obtain ⟨segs, hsegs⟩ := ih rest.length (by omega) rest rfl
        exact ⟨_, hsegs.kept c⟩
      · obtain ⟨part, rest, rfl, hpart⟩ := exists_maximalSubpart hnil (not_exists.1 hchar)
        have hpos := List.length_pos_iff.2 hpart.ne_nil
        rw [List.length_append] at hn
        obtain ⟨segs, hsegs⟩ := ih rest.length (by omega) rest rfl
        exact ⟨_, hsegs.replaced hpart⟩

/-- Two maximal subparts at one place are the same. -/
theorem IsMaximalSubpart.unique {part' rest' : Bytes} (h : IsMaximalSubpart part rest)
    (h' : IsMaximalSubpart part' rest') (heq : part ++ rest = part' ++ rest') :
    part = part' ∧ rest = rest' := by
  have hle := h.longest part' (heq ▸ List.prefix_append _ _) h'.subpart
  have hle' := h'.longest part (heq ▸ List.prefix_append _ _) h.subpart
  exact List.append_inj heq (Nat.le_antisymm hle' hle)

/-- **A byte string is cut in one way only.** -/
theorem Segmentation.unique {others : List Segment} (h : Segmentation bs segs)
    (h' : Segmentation bs others) : segs = others := by
  induction h generalizing others with
  | nil =>
    generalize hbs : ([] : Bytes) = bs at h'
    cases h' with
    | nil => rfl
    | kept c _ => simp [String.utf8EncodeChar_ne_nil] at hbs
    | replaced hpart _ => simp [hpart.ne_nil] at hbs
  | @kept rest segs c _ ih =>
    generalize hbs : String.utf8EncodeChar c ++ rest = bs at h'
    cases h' with
    | nil => simp [String.utf8EncodeChar_ne_nil] at hbs
    | kept d h' =>
      obtain ⟨rfl, rfl⟩ := utf8EncodeChar_append_inj hbs
      rw [ih h']
    | replaced hpart _ => exact absurd ⟨rest, hbs⟩ (hpart.unreadable c)
  | @replaced part rest segs hpart _ ih =>
    generalize hbs : part ++ rest = bs at h'
    cases h' with
    | nil => simp [hpart.ne_nil] at hbs
    | kept c _ => exact absurd ⟨_, hbs.symm⟩ (hpart.unreadable c)
    | replaced hpart' h' =>
      obtain ⟨rfl, rfl⟩ := hpart.unique hpart' hbs
      rw [ih h']

end Utf8

end InkLint
