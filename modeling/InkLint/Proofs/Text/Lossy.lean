import InkLint.Proofs.Text.Segmentation
import InkLint.Scan

/-!
# Lossy texts

Lossy reading is what its segments say (`decodeLossy_exact`). It neither hides nor makes up a match:
a text without replacement characters occurs in what was read exactly if its UTF-8 occurs among the
bytes (`infix_decodeLossy_iff`).
-/

namespace InkLint

namespace Utf8

variable {bs : Bytes} {b : UInt8} {text : List Char}

/-! ## Searching -/

/-- Segments that are read as a text without replacement characters are its characters. -/
theorem eq_map_kept {segs : List Segment} (h : segs.map Segment.char = text)
    (htext : replacement ∉ text) : segs = text.map .kept := by
  subst h
  induction segs with
  | nil => rfl
  | cons seg segs ih =>
    cases seg with
    | replaced part => simp [Segment.char] at htext
    | kept c =>
      have hsegs := ih fun hmem => htext (List.mem_cons_of_mem _ hmem)
      rw [List.map_cons, List.map_cons, ← hsegs]
      rfl

theorem flatMap_bytes_kept (text : List Char) :
    (text.map Segment.kept).flatMap Segment.bytes = encode text := by
  rw [List.flatMap_map]
  rfl

/-- **Searching a lossy text is searching its bytes.** A text without replacement characters occurs
in what was read exactly if its bytes occur in what was given. -/
theorem infix_decodeLossy_iff (htext : replacement ∉ text) :
    text <:+: decodeLossy bs ↔ encode text <:+: bs := by
  constructor
  · -- nothing is made up: the segments read as the text are its characters, with their bytes
    rintro ⟨us, vs, h⟩
    obtain ⟨segs, hsegs⟩ := exists_segmentation bs
    rw [hsegs.decodeLossy_eq, List.append_assoc] at h
    obtain ⟨front, others, rfl, -, hothers⟩ := List.map_eq_append_iff.1 h.symm
    obtain ⟨middle, after, rfl, hmiddle, -⟩ := List.map_eq_append_iff.1 hothers
    obtain ⟨rest, rfl, hrest⟩ := hsegs.split
    obtain ⟨last, rfl, -⟩ := hrest.split
    rw [eq_map_kept hmiddle htext, flatMap_bytes_kept, ← List.append_assoc]
    exact ⟨_, last, rfl⟩
  · -- nothing is hidden: the text is read as itself
    rintro ⟨first, rest, rfl⟩
    cases text with
    | nil => simp
    | cons c text =>
      have hread := decodeLossy_append_encode first rest c text
      exact ⟨decodeLossy first, decodeLossy rest, hread.symm⟩

/-! ## Texts that need no replacement -/

/-- The standard library's notion of a valid byte string, with the bytes as a list. -/
theorem isValidUTF8_iff : bs.toByteArray.IsValidUTF8 ↔ ∃ text, encode text = bs := by
  constructor
  · rintro ⟨text, h⟩
    refine ⟨text, ?_⟩
    have hdata := congrArg (fun bytes => bytes.data.toList) h
    simpa [List.utf8Encode, encode, eq_comm] using hdata
  · rintro ⟨text, rfl⟩
    exact ⟨text, rfl⟩

/-- Nothing is replaced in valid byte strings, and something is in all others. -/
theorem encode_decodeLossy_eq_iff : encode (decodeLossy bs) = bs ↔ ∃ text, encode text = bs := by
  constructor
  · intro h
    exact ⟨decodeLossy bs, h⟩
  · rintro ⟨text, rfl⟩
    rw [decodeLossy_encode]

/-! ## Texts in pieces -/

theorem encode_ascii (h : b < 0x80) : encode [Char.ofNat b.toNat] = [b] := by
  rw [encode, List.flatMap_singleton, utf8EncodeChar_ascii h]

/-- An ASCII byte cuts a byte string in two, whatever has begun before it. -/
theorem decodeLossy_ascii (first rest : Bytes) (h : b < 0x80) :
    decodeLossy (first ++ [b] ++ rest) =
      decodeLossy first ++ [Char.ofNat b.toNat] ++ decodeLossy rest := by
  have hcut := decodeLossy_append_encode first rest (Char.ofNat b.toNat) []
  rwa [encode_ascii h] at hcut

theorem decodeLossy_intercalate (pieces : List Bytes) :
    decodeLossy ([Path.slash].intercalate pieces) =
      ['/'].intercalate (pieces.map decodeLossy) := by
  induction pieces with
  | nil => rfl
  | cons piece others ih =>
    cases others with
    | nil => simp only [List.map_cons, List.map_nil, List.intercalate_singleton]
    | cons next others =>
      rw [List.intercalate_cons_cons, decodeLossy_ascii _ _ (by decide), ih]
      simp only [List.map_cons, List.intercalate_cons_cons]
      rfl

/-- A path is shown piece by piece. -/
theorem display_eq_intercalate (path : Path) :
    path.display = "/".intercalate (path.pieces.map Path.display) := by
  have hpath : [Path.slash].intercalate path.pieces = path := List.intercalate_splitOn Path.slash
  have hpieces : (path.pieces.map Path.display).map String.toList =
      path.pieces.map decodeLossy := by
    rw [List.map_map]
    exact List.map_congr_left fun piece _ => String.toList_ofList
  rw [← String.toList_inj, String.toList_intercalate, hpieces, Path.display, String.toList_ofList]
  conv_lhs => rw [← hpath, decodeLossy_intercalate]
  rfl

/-! ## Lossy reading -/

/-- **Lossy reading does what it is to do.** There is one way to cut a byte string into characters
and maximal subparts of what is no character. What is read of a file, and what is shown of a path,
are the characters in their order with one replacement for each subpart. That is valid UTF-8, it is
what was given exactly if that was valid, and reading it again changes nothing. An ASCII byte cuts
what is read in two, so a path is shown as its pieces are, with slashes between them. -/
theorem decodeLossy_exact (bs : Bytes) :
    (∃ segs, Segmentation bs segs ∧ (∀ others, Segmentation bs others → others = segs) ∧
      segs.flatMap Segment.bytes = bs ∧
      encode (decodeLossy bs) = segs.flatMap Segment.shown ∧
      Bytes.ofString (Path.display bs) = segs.flatMap Segment.shown ∧
      ∀ (read : Access) (path : Path), read path = .ok bs →
        (Category.ofPath path).isSupported = true →
        (lintFileWith read path).result = .ok (some ⟨path, Category.ofPath path,
          (lintText (Category.ofPath path) (segs.map Segment.char)).map (·.advice)⟩)) ∧
    (encode (decodeLossy bs)).toByteArray.IsValidUTF8 ∧
    (encode (decodeLossy bs) = bs ↔ bs.toByteArray.IsValidUTF8) ∧
    decodeLossy (encode (decodeLossy bs)) = decodeLossy bs ∧
    (∀ (c : UInt8) (rest : Bytes), c < 0x80 →
      encode (decodeLossy (bs ++ [c] ++ rest)) =
        encode (decodeLossy bs) ++ [c] ++ encode (decodeLossy rest)) ∧
    Path.display bs = "/".intercalate ((Path.pieces bs).map Path.display) := by
  obtain ⟨segs, hsegs⟩ := exists_segmentation bs
  have htext : decodeLossy bs = segs.map Segment.char := hsegs.decodeLossy_eq
  have hshown : encode (decodeLossy bs) = segs.flatMap Segment.shown := by
    rw [htext, encode_chars]
  refine ⟨⟨segs, hsegs, fun others h => h.unique hsegs, hsegs.flatMap_bytes, hshown, ?_, ?_⟩,
    ?_, ?_, ?_, ?_, ?_⟩
  · rw [Bytes.ofString, Path.display, String.toList_ofList, hshown]
  · intro read path hread hsupported
    simp only [lintFileWith, hsupported, hread, if_true, htext]
  · exact isValidUTF8_iff.2 ⟨_, rfl⟩
  · rw [encode_decodeLossy_eq_iff, isValidUTF8_iff]
  · exact decodeLossy_encode _
  · intro c rest hc
    rw [decodeLossy_ascii bs rest hc, encode_append, encode_append, encode_ascii hc]
  · exact display_eq_intercalate bs

/-- A letter, and a character of which two bytes of four are there. -/
def brokenOff : Bytes :=
  [0x61, 0xf0, 0x9f]

/-- What has begun and is not complete is replaced once, even if a slash follows; a surrogate is
replaced byte by byte. -/
theorem decodeLossy_exact_brokenOff :
    (∃ segs, Segmentation brokenOff segs ∧ segs.map Segment.char = ['a', replacement]) ∧
    (Category.ofPath "a.js").isSupported = true ∧
    (lintFileWith (fun _ => .ok brokenOff) "a.js").result = .ok (some ⟨"a.js", .script, []⟩) ∧
    ¬(brokenOff.toByteArray.IsValidUTF8) ∧
    (0x2f : UInt8) < 0x80 ∧
    encode (decodeLossy (brokenOff ++ [0x2f] ++ [0xed, 0xa0, 0x80])) =
      encode ['a', replacement, '/', replacement, replacement, replacement] := by
  obtain ⟨⟨segs, hsegs, -, -, -, -, hlint⟩, -, hvalid, -, hcut, -⟩ := decodeLossy_exact brokenOff
  have hbroken : decodeLossy brokenOff = ['a', replacement] := by decide
  have hsurrogate : decodeLossy [0xed, 0xa0, 0x80] = [replacement, replacement, replacement] := by
    decide
  have hpath : Category.ofPath "a.js" = .script := by decide
  have htext : segs.map Segment.char = ['a', replacement] := by
    rw [← hbroken]
    exact hsegs.decodeLossy_eq.symm
  refine ⟨⟨segs, hsegs, htext⟩, by rw [hpath]; rfl, ?_, ?_, by decide, ?_⟩
  · rw [hlint (fun _ => .ok brokenOff) _ rfl (by rw [hpath]; rfl), hpath, htext,
      show lintText .script ['a', replacement] = [] by decide]
    rfl
  · rw [← hvalid, hbroken]
    decide
  · rw [hcut 0x2f _ (by decide), hbroken, hsurrogate]
    decide

end Utf8

end InkLint
