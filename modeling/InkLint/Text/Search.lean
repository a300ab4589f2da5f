import InkLint.Text.Blank

/-!
# Searching a text

Two searches cover every detection rule: a word that occurs somewhere (`occurs`), and two words
with nothing but white space between them (`occursSpaced`). Each runs over the suffixes of the text
once, and each is stated beside it as what it decides: `occurs_iff`, `occursSpaced_iff`.
-/

namespace InkLint

/-- Whether some suffix of the text passes the test. -/
def anySuffix (test : List Char → Bool) : List Char → Bool
  | [] => test []
  | c :: rest => test (c :: rest) || anySuffix test rest

theorem anySuffix_iff {test : List Char → Bool} {text : List Char} :
    anySuffix test text = true ↔ ∃ p s, text = p ++ s ∧ test s = true := by
  induction text with
  | nil =>
    constructor
    · intro h
      exact ⟨[], [], rfl, h⟩
    · rintro ⟨p, s, hps, hs⟩
      obtain ⟨rfl, rfl⟩ := List.append_eq_nil_iff.1 hps.symm
      exact hs
  | cons c rest ih =>
    simp only [anySuffix, Bool.or_eq_true, ih]
    constructor
    · rintro (h | ⟨p, s, rfl, hs⟩)
      · exact ⟨[], c :: rest, rfl, h⟩
      · exact ⟨c :: p, s, rfl, hs⟩
    · rintro ⟨p, s, hps, hs⟩
      cases p with
      | nil => exact .inl (by rw [hps]; exact hs)
      | cons d p =>
        simp only [List.cons_append, List.cons.injEq] at hps
        exact .inr ⟨p, s, hps.2, hs⟩

/-! ## A word -/

/-- Whether the word occurs in the text, as consecutive characters. -/
def occurs (word text : List Char) : Bool :=
  anySuffix (word.isPrefixOf ·) text

theorem occurs_iff {word text : List Char} :
    occurs word text = true ↔ word <:+: text := by
  simp only [occurs, anySuffix_iff, List.isPrefixOf_iff_prefix]
  constructor
  · rintro ⟨p, s, rfl, t, rfl⟩
    exact ⟨p, t, by simp⟩
  · rintro ⟨p, t, rfl⟩
    exact ⟨p, word ++ t, by simp, t, rfl⟩

/-! ## Two words with white space between -/

/-- Whether the text starts with white space, at least one character of it, and then the word. -/
def startsSpaced (word : List Char) : List Char → Bool
  | [] => false
  | c :: rest => isBlank c && word.isPrefixOf (rest.dropWhile isBlank)

/-- Whether the two words occur in this order with only white space, and some, between them. -/
def occursSpaced (first second text : List Char) : Bool :=
  anySuffix
    (fun s => first.isPrefixOf s && startsSpaced second (s.drop first.length)) text

/-- Dropping white space in front of a text that starts with none removes exactly that. -/
theorem dropWhile_blanks {w s : List Char} (hw : ∀ c ∈ w, isBlank c = true)
    (hs : ∀ c ∈ s.head?, isBlank c = false) : (w ++ s).dropWhile isBlank = s := by
  induction w with
  | nil =>
    cases s with
    | nil => rfl
    | cons c t => simp [hs c rfl]
  | cons c w ih =>
    simp only [List.cons_append, List.dropWhile_cons, hw c (by simp), if_true]
    exact ih fun d hd => hw d (by simp [hd])

theorem startsSpaced_iff {word text : List Char}
    (hword : ∃ c t, word = c :: t ∧ isBlank c = false) :
    startsSpaced word text = true ↔
      ∃ w s, text = w ++ word ++ s ∧ w ≠ [] ∧ ∀ c ∈ w, isBlank c = true := by
  obtain ⟨d, t, hd, hblank⟩ := hword
  cases text with
  | nil =>
    refine ⟨fun h => by simp [startsSpaced] at h, ?_⟩
    rintro ⟨w, s, h, hw, -⟩
    simp_all
  | cons c rest =>
    simp only [startsSpaced, Bool.and_eq_true, List.isPrefixOf_iff_prefix]
    constructor
    · rintro ⟨hc, s, hs⟩
      refine ⟨c :: rest.takeWhile isBlank, s, ?_, by simp, ?_⟩
      · rw [List.append_assoc, hs, List.cons_append, List.takeWhile_append_dropWhile]
      · intro x hx
        rcases List.mem_cons.1 hx with rfl | hx
        · exact hc
        · exact List.all_eq_true.1 List.all_takeWhile x hx
    · rintro ⟨w, s, h, hw, hall⟩
      cases w with
      | nil => exact absurd rfl hw
      | cons x w =>
        simp only [List.cons_append, List.cons.injEq] at h
        obtain ⟨rfl, rfl⟩ := h
        refine ⟨hall c (by simp), s, ?_⟩
        rw [List.append_assoc, dropWhile_blanks (fun y hy => hall y (by simp [hy]))]
        simp [hd, hblank]

theorem occursSpaced_iff {first second text : List Char}
    (hsecond : ∃ c t, second = c :: t ∧ isBlank c = false) :
    occursSpaced first second text = true ↔
      ∃ p w s, text = p ++ first ++ w ++ second ++ s ∧ w ≠ [] ∧
        ∀ c ∈ w, isBlank c = true := by
  simp only [occursSpaced, anySuffix_iff, Bool.and_eq_true, List.isPrefixOf_iff_prefix]
  constructor
  · rintro ⟨p, _, rfl, ⟨t, rfl⟩, h⟩
    rw [List.drop_left, startsSpaced_iff hsecond] at h
    obtain ⟨w, s, rfl, hw, hall⟩ := h
    exact ⟨p, w, s, by simp, hw, hall⟩
  · rintro ⟨p, w, s, rfl, hw, hall⟩
    refine ⟨p, first ++ (w ++ second ++ s), by simp, ⟨_, rfl⟩, ?_⟩
    rw [List.drop_left, startsSpaced_iff hsecond]
    exact ⟨w, s, rfl, hw, hall⟩

end InkLint
