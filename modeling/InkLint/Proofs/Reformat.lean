import InkLint.Proofs.Rules

/-!
# Reformatting

White space separates words for a rule and does nothing else: a rule asks for words without any, and
between two of them for some, however much of it and of whatever kind. So where there is white space
already, it can be replaced by other white space, and the advice stays the same (`reformatting`).

All of this rests on one observation. A word that holds no white space stands on one side or the
other of a gap (`apart_of_gap`), and from where it stands it does not see what the gap is made of.
-/

namespace InkLint

open List

/-- Some white space, and nothing else. -/
structure IsGap (w : List Char) : Prop where
  ne_nil : w ≠ []
  blank : ∀ c ∈ w, IsWhiteSpace c

instance (w : List Char) : Decidable (IsGap w) :=
  decidable_of_iff (w ≠ [] ∧ w.all (fun c => decide (IsWhiteSpace c)) = true)
    ⟨fun h => ⟨h.1, by simpa using h.2⟩, fun h => ⟨h.ne_nil, by simpa using h.blank⟩⟩

/-- A word is not empty and holds no white space. -/
structure IsWord (word : List Char) : Prop where
  ne_nil : word ≠ []
  solid : ∀ c ∈ word, ¬IsWhiteSpace c

instance (word : List Char) : Decidable (IsWord word) :=
  decidable_of_iff (word ≠ [] ∧ word.all (fun c => decide ¬IsWhiteSpace c) = true)
    ⟨fun h => ⟨h.1, by simpa using h.2⟩, fun h => ⟨h.ne_nil, by simpa using h.solid⟩⟩

variable {word w w' a b p s : List Char} {first second : String}

/-! ## Words and gaps -/

/-- A gap and a word do not begin alike. -/
theorem IsWord.append_ne (hword : IsWord word) (hw : IsGap w) : word ++ s ≠ w ++ b := by
  obtain ⟨c, word, rfl⟩ := exists_cons_of_ne_nil hword.ne_nil
  obtain ⟨d, w, rfl⟩ := exists_cons_of_ne_nil hw.ne_nil
  intro h
  rw [cons_append, cons_append, cons.injEq] at h
  exact hword.solid c (by simp) (h.1 ▸ hw.blank d (by simp))

theorem IsWord.suffix {rest : List Char} (h : IsWord (p ++ rest)) (hne : rest ≠ []) : IsWord rest :=
  ⟨hne, fun c hc => h.solid c (mem_append_right _ hc)⟩

theorem IsGap.suffix {rest : List Char} (h : IsGap (p ++ rest)) (hne : rest ≠ []) : IsGap rest :=
  ⟨hne, fun c hc => h.blank c (mem_append_right _ hc)⟩

/-- A word stands before a gap or behind it. -/
theorem apart_of_gap (hword : IsWord word) (hw : IsGap w) (h : p ++ word ++ s = a ++ w ++ b) :
    (∃ between, a = p ++ word ++ between ∧ s = between ++ w ++ b) ∨
      ∃ between, p = a ++ w ++ between ∧ b = between ++ word ++ s := by
  rw [append_assoc, append_assoc, append_eq_append_iff] at h
  rcases h with ⟨rest, rfl, h⟩ | ⟨rest, rfl, h⟩
  · -- the gap begins behind the beginning of the word, and so behind its end
    rcases append_eq_append_iff.1 h with ⟨between, rfl, hs⟩ | ⟨tail, rfl, hs⟩
    · exact .inl ⟨between, by simp, by simp [hs]⟩
    · by_cases htail : tail = []
      · subst htail
        exact .inl ⟨[], by simp, by simpa using hs.symm⟩
      · exact absurd hs.symm ((hword.suffix htail).append_ne hw)
  · -- the word begins behind the beginning of the gap, and so behind its end
    rcases append_eq_append_iff.1 h with ⟨between, rfl, hb⟩ | ⟨tail, rfl, hb⟩
    · exact .inr ⟨between, by simp, by simp [hb]⟩
    · by_cases htail : tail = []
      · subst htail
        exact .inr ⟨[], by simp, by simpa using hb.symm⟩
      · exact absurd hb (hword.append_ne (hw.suffix htail))

/-! ## What a rule sees of a gap -/

/-- A word is found in a text with a gap if it is found before the gap or behind it. -/
theorem textHas_gap_iff (hword : IsWord first.toList) (hw : IsGap w) :
    TextHas (a ++ w ++ b) first ↔ TextHas a first ∨ TextHas b first := by
  constructor
  · rintro ⟨p, s, h⟩
    rcases apart_of_gap hword hw h with ⟨between, rfl, -⟩ | ⟨between, -, rfl⟩
    · exact .inl ⟨p, between, rfl⟩
    · exact .inr ⟨between, s, rfl⟩
  · rintro (h | h)
    · exact h.trans ⟨[], w ++ b, by simp⟩
    · exact h.trans ⟨a ++ w, [], by simp⟩

/-- Two words with white space between them are found before the gap, behind it, or on both sides of
it with nothing but white space in between. -/
theorem textSpaced_gap_iff (hfirst : IsWord first.toList) (hsecond : IsWord second.toList)
    (hw : IsGap w) :
    TextSpaced (a ++ w ++ b) first second ↔
      TextSpaced a first second ∨ TextSpaced b first second ∨
        ∃ u u', first.toList ++ u <:+ a ∧ u' ++ second.toList <+: b ∧
          (∀ c ∈ u, IsWhiteSpace c) ∧ ∀ c ∈ u', IsWhiteSpace c := by
  constructor
  · rintro ⟨p, x, s, h, hne, hx⟩
    have hwhole : p ++ first.toList ++ (x ++ second.toList ++ s) = a ++ w ++ b := by simp [h]
    rcases apart_of_gap hfirst hw hwhole with ⟨between, rfl, hrest⟩ | ⟨between, -, rfl⟩
    · rcases apart_of_gap hsecond hw hrest with ⟨behind, rfl, -⟩ | ⟨behind, rfl, rfl⟩
      · exact .inl ⟨p, x, behind, by simp, hne, hx⟩
      · refine .inr (.inr ⟨between, behind, ⟨p, by simp⟩, ⟨s, rfl⟩, ?_, ?_⟩)
        · exact fun c hc => hx c (by simp [hc])
        · exact fun c hc => hx c (by simp [hc])
    · exact .inr (.inl ⟨between, x, s, by simp, hne, hx⟩)
  · rintro (⟨p, x, s, rfl, hne, hx⟩ | ⟨p, x, s, rfl, hne, hx⟩ |
      ⟨u, u', ⟨p, rfl⟩, ⟨s, rfl⟩, hu, hu'⟩)
    · exact ⟨p, x, s ++ w ++ b, by simp, hne, hx⟩
    · exact ⟨a ++ w ++ p, x, s, by simp, hne, hx⟩
    · refine ⟨p, u ++ w ++ u', s, by simp, by simp [hw.ne_nil], fun c hc => ?_⟩
      simp only [mem_append] at hc
      rcases hc with (hc | hc) | hc
      · exact hu c hc
      · exact hw.blank c hc
      · exact hu' c hc

theorem Rule.isWord_of_mem : ∀ word ∈ words, IsWord word.toList := by
  decide

/-- It makes no difference to the rules what a gap is made of. -/
theorem lintText_gap (c : Category) (hw : IsGap w) (hw' : IsGap w') :
    lintText c (a ++ w ++ b) = lintText c (a ++ w' ++ b) := by
  refine filter_congr fun r _ => ?_
  rw [Bool.eq_iff_iff, r.fires_iff, r.fires_iff]
  refine Rule.asks_congr (fun word hword => ?_) (fun first hfirst second hsecond => ?_) r
  · have hword := Rule.isWord_of_mem word hword
    rw [textHas_gap_iff hword hw, textHas_gap_iff hword hw']
  · have hfirst := Rule.isWord_of_mem first hfirst
    have hsecond := Rule.isWord_of_mem second hsecond
    rw [textSpaced_gap_iff hfirst hsecond hw, textSpaced_gap_iff hfirst hsecond hw']

/-! ## Many gaps at once -/

/-- One text comes from the other by putting other white space where there is some, in any number of
places. -/
inductive Reformatted : List Char → List Char → Prop
  | nil : Reformatted [] []
  | keep (c : Char) {s t : List Char} : Reformatted s t → Reformatted (c :: s) (c :: t)
  | gap {w w' s t : List Char} :
      IsGap w → IsGap w' → Reformatted s t → Reformatted (w ++ s) (w' ++ t)

theorem Reformatted.behind (a : List Char) {s t : List Char} (h : Reformatted s t) :
    Reformatted (a ++ s) (a ++ t) := by
  induction a with
  | nil => exact h
  | cons c a ih => exact .keep c ih

theorem Reformatted.refl (s : List Char) : Reformatted s s := by
  simpa using Reformatted.nil.behind s

/-- Putting something in place of each white space character, and leaving the others. -/
theorem reformatted_flatMap {f : Char → List Char} (hkeep : ∀ c, ¬IsWhiteSpace c → f c = [c])
    (hgap : ∀ c, IsWhiteSpace c → IsGap (f c)) (s : List Char) : Reformatted s (s.flatMap f) := by
  induction s with
  | nil => exact .nil
  | cons c s ih =>
    rw [flatMap_cons]
    by_cases hc : IsWhiteSpace c
    · have hgap' : IsGap [c] := ⟨by simp, by simpa using hc⟩
      exact .gap hgap' (hgap c hc) ih
    · rw [hkeep c hc]
      exact .keep c ih

theorem Reformatted.lintText_eq (c : Category) {s t : List Char} (h : Reformatted s t) :
    lintText c s = lintText c t := by
  -- the texts are taken behind one that is not touched, so that a gap can be exchanged in place
  suffices hbehind : ∀ a, lintText c (a ++ s) = lintText c (a ++ t) from hbehind []
  induction h with
  | nil => intro a; rfl
  | keep d _ ih =>
    intro a
    simpa using ih (a ++ [d])
  | @gap w w' s t hw hw' _ ih =>
    intro a
    calc lintText c (a ++ (w ++ s)) = lintText c (a ++ w ++ s) := by rw [append_assoc]
      _ = lintText c (a ++ w' ++ s) := lintText_gap c hw hw'
      _ = lintText c (a ++ w' ++ t) := ih (a ++ w')
      _ = lintText c (a ++ (w' ++ t)) := by rw [append_assoc]

/-! ## Files -/

/-- The bytes of a gap are read as that gap, whatever stands around them. -/
theorem decodeLossy_gap (A B : Bytes) (hw : IsGap w) :
    Utf8.decodeLossy (A ++ Utf8.encode w ++ B) =
      Utf8.decodeLossy A ++ w ++ Utf8.decodeLossy B := by
  obtain ⟨c, w, rfl⟩ := exists_cons_of_ne_nil hw.ne_nil
  exact Utf8.decodeLossy_append_encode A B c w

/-- A file is linted as before if its text was reformatted. -/
theorem lintFileWith_reformatted {read read' : Access} {path : Path} {content content' : Bytes}
    (hread : read path = .ok content) (hread' : read' path = .ok content')
    (h : Reformatted (Utf8.decodeLossy content) (Utf8.decodeLossy content')) :
    lintFileWith read path = lintFileWith read' path := by
  simp only [lintFileWith, hread, hread', h.lintText_eq]

/-- **Reformatting changes no advice.** Wherever a text has white space, any other white space may
stand instead. This may be done in many places at once: each white space character may be written as
others, as line ends are, or whole stretches may be exchanged. The same holds for the bytes of a
file, whether the rest of them are UTF-8 or not. -/
theorem reformatting (c : Category) :
    (∀ a b w w', IsGap w → IsGap w' → lintText c (a ++ w ++ b) = lintText c (a ++ w' ++ b)) ∧
    (∀ s t, Reformatted s t → lintText c s = lintText c t) ∧
    (∀ f : Char → List Char, (∀ d, ¬IsWhiteSpace d → f d = [d]) →
      (∀ d, IsWhiteSpace d → IsGap (f d)) → ∀ s, lintText c (s.flatMap f) = lintText c s) ∧
    (∀ read read' path content content', read path = .ok content → read' path = .ok content' →
      Reformatted (Utf8.decodeLossy content) (Utf8.decodeLossy content') →
      lintFileWith read path = lintFileWith read' path) ∧
    ∀ read read' path A B w w', IsGap w → IsGap w' →
      read path = .ok (A ++ Utf8.encode w ++ B) → read' path = .ok (A ++ Utf8.encode w' ++ B) →
      lintFileWith read path = lintFileWith read' path := by
  refine ⟨fun a b w w' => lintText_gap c, fun s t h => h.lintText_eq c, ?_,
    fun read read' path content content' => lintFileWith_reformatted, ?_⟩
  · intro f hkeep hgap s
    exact ((reformatted_flatMap hkeep hgap s).lintText_eq c).symm
  · intro read read' path A B w w' hw hw' hread hread'
    refine lintFileWith_reformatted hread hread' ?_
    rw [decodeLossy_gap A B hw, decodeLossy_gap A B hw', append_assoc, append_assoc]
    exact .behind _ (.gap hw hw' (.refl _))

/-- Line ends as other systems write them. -/
def longLineEnd (d : Char) : List Char :=
  if d = '\n' then ['\r', '\n'] else [d]

theorem longLineEnd_keeps (d : Char) (h : ¬IsWhiteSpace d) : longLineEnd d = [d] := by
  have hne : d ≠ '\n' := by
    rintro rfl
    exact h (by decide)
  rw [longLineEnd, if_neg hne]

theorem isGap_longLineEnd (d : Char) (h : IsWhiteSpace d) : IsGap (longLineEnd d) := by
  unfold longLineEnd
  split
  · decide
  · exact ⟨by simp, by simpa using h⟩

/-- An asynchronous function that is put on two lines, with line ends of either kind, in a text and
in a file with a byte that is no text in front of it. -/
theorem reformatting_lines :
    IsGap [' '] ∧ IsGap ['\n', '\t', '\xa0'] ∧
    lintText .script ("async".toList ++ [' '] ++ "function".toList) = [.asyncAwait] ∧
    lintText .script ("async".toList ++ ['\n', '\t', '\xa0'] ++ "function".toList) =
      [.asyncAwait] ∧
    Reformatted [' ', 'x', '\n'] ['\t', '\t', 'x', ' '] ∧
    lintText .script [' ', 'x', '\n'] = lintText .script ['\t', '\t', 'x', ' '] ∧
    lintText .script ("async\nfunction".toList.flatMap longLineEnd) =
      lintText .script "async\nfunction".toList ∧
    lintFileWith (fun _ => .ok [0x20, 0x78, 0x0a]) "a.js" =
      lintFileWith (fun _ => .ok [0x09, 0x09, 0x78, 0x20]) "a.js" ∧
    lintFileWith (fun _ => .ok ([0xff] ++ Utf8.encode [' '] ++ [0x3d, 0x3e])) "a.js" =
      lintFileWith (fun _ => .ok ([0xff] ++ Utf8.encode ['\xa0'] ++ [0x3d, 0x3e])) "a.js" := by
  obtain ⟨hone, hmany, hmap, hfile, hbytes⟩ := reformatting .script
  have hspace : IsGap [' '] := by decide
  have hlines : IsGap ['\n', '\t', '\xa0'] := by decide
  have hfires : lintText .script ("async".toList ++ [' '] ++ "function".toList) =
      [.asyncAwait] := by decide
  have hsame : Reformatted [' ', 'x', '\n'] ['\t', '\t', 'x', ' '] :=
    @Reformatted.gap [' '] ['\t', '\t'] _ _ hspace (by decide)
      (.keep 'x' (@Reformatted.gap ['\n'] [' '] _ _ (by decide) hspace .nil))
  refine ⟨hspace, hlines, hfires, (hone _ _ _ _ hlines hspace).trans hfires, hsame,
    hmany _ _ hsame, hmap _ longLineEnd_keeps isGap_longLineEnd _, ?_, ?_⟩
  · exact hfile _ _ _ _ _ rfl rfl hsame
  · exact hbytes _ _ _ _ _ _ _ hspace (by decide) rfl rfl

end InkLint
