import InkLint.Proofs.Json.Reader

/-!
# Reading texts in quotes and numbers

The parts of the reader that take off texts in quotes and numbers are sound and complete for the
grammar.
-/

namespace InkLint

namespace Json

namespace Reader

open Grammar

/-! ## Texts in quotes -/

theorem unit_eq_some {s rest : List Char} {n : Nat} (h : unit s = some (n, rest)) :
    ∃ a b c d, unit? a b c d = some n ∧ s = a :: b :: c :: d :: rest := by
  unfold unit at h
  split at h
  · rename_i a b c d rest'
    cases hunit : unit? a b c d with
    | none => simp [hunit] at h
    | some m =>
      simp only [hunit, Option.map_some, Option.some.injEq, Prod.mk.injEq] at h
      obtain ⟨rfl, rfl⟩ := h
      exact ⟨a, b, c, d, hunit, rfl⟩
  · cases h

theorem escaped_eq_some {s rest : List Char} {x : Char} (h : escaped s = some (x, rest)) :
    ∃ t, Character x ('\\' :: t) ∧ s = t ++ rest := by
  unfold escaped at h
  split_ifs at h with hu
  · rw [cons_of_head? hu]
    simp only [Option.bind_eq_bind, Option.bind_eq_some_iff] at h
    obtain ⟨⟨n, s₁⟩, hunit, h⟩ := h
    obtain ⟨a, b, c, d, hn, hs⟩ := unit_eq_some hunit
    rw [hs]
    split_ifs at h with hhigh hpair hlow
    · obtain ⟨s₂, rfl⟩ := hpair
      obtain ⟨⟨m, s₃⟩, hunit', h⟩ := Option.bind_eq_some_iff.1 h
      obtain ⟨a', b', c', d', hm, hs'⟩ := unit_eq_some hunit'
      have hs' : s₂ = a' :: b' :: c' :: d' :: s₃ := hs'
      split_ifs at h with hlow
      obtain ⟨rfl, rfl⟩ := Prod.mk.inj (Option.some.inj h)
      exact ⟨_, .pair hn hhigh hm hlow, by rw [hs']; rfl⟩
    · cases h
      exact ⟨_, .unit hn hhigh hlow, rfl⟩
  · simp only [Option.bind_eq_bind, Option.bind_eq_some_iff] at h
    obtain ⟨c, ⟨mark, hmark, hshort⟩, h⟩ := h
    cases h
    exact ⟨[mark], .short hshort, cons_of_head? hmark⟩

theorem sound_character : Sound Character character := by
  intro s c rest h
  cases s with
  | nil => cases h
  | cons d s =>
    simp only [character] at h
    split_ifs at h with hback hplain
    · subst hback
      obtain ⟨t, ht, rfl⟩ := escaped_eq_some h
      exact ⟨_, ht, rfl⟩
    · cases h
      exact ⟨[c], .plain hplain.1 hplain.2 hback, rfl⟩

/-- No way of writing a character begins another one, so it is taken off in front of any rest. -/
theorem character_append {c : Char} {t : List Char} (h : Character c t) (rest : List Char) :
    character (t ++ rest) = some (c, rest) := by
  cases h with
  | plain hc hquote hback => simp [character, hc, hquote, hback]
  | @short mark _ h =>
    have hu : mark ≠ 'u' := by
      rintro rfl
      simp [short?] at h
    simp [character, escaped, hu, h]
  | unit h hhigh hlow => simp [character, escaped, unit, h, hhigh, hlow]
  | pair h hhigh h' hlow => simp [character, escaped, unit, h, hhigh, h', hlow]

theorem sound_characters (n : Nat) :
    Sound (fun cs u => ∃ t, Characters cs t ∧ u = t ++ ['"']) (characters n) := by
  induction n with
  | zero =>
    intro s cs rest h
    cases h
  | succ n ih =>
    intro s cs rest h
    simp only [characters] at h
    split_ifs at h with hquote
    · cases h
      exact ⟨['"'], ⟨[], .nil, rfl⟩, cons_of_head? hquote⟩
    · simp only [Option.bind_eq_bind, Option.bind_eq_some_iff] at h
      obtain ⟨⟨c, s₁⟩, hc, ⟨cs', s₂⟩, hcs, h⟩ := h
      cases h
      obtain ⟨t, ht, rfl⟩ := sound_character _ _ _ hc
      obtain ⟨_, ⟨ts, hts, rfl⟩, rfl⟩ := ih _ _ _ hcs
      exact ⟨t ++ ts ++ ['"'], ⟨t ++ ts, .cons ht hts, rfl⟩, by simp⟩

theorem characters_append {n : Nat} {cs t : List Char} (h : Characters cs t) (hn : t.length < n)
    (rest : List Char) : characters n (t ++ '"' :: rest) = some (cs, rest) := by
  induction h generalizing n with
  | nil =>
    cases n with
    | zero => simp at hn
    | succ n => simp [characters]
  | @cons c cs t ts h hs ih =>
    cases n with
    | zero => simp at hn
    | succ n =>
      have hlen : ts.length < n := by
        have := h.length_pos
        rw [List.length_append] at hn
        omega
      have hc := character_append h (ts ++ '"' :: rest)
      rw [List.append_assoc, characters, if_neg (h.head?_ne _), hc]
      simp [ih hlen]

theorem sound_quoted : Sound Quoted quoted := by
  intro s a rest h
  unfold quoted at h
  split_ifs at h with hquote
  obtain ⟨⟨cs, s₁⟩, hcs, h⟩ := Option.bind_eq_some_iff.1 h
  cases h
  obtain ⟨_, ⟨t, ht, rfl⟩, hs⟩ := sound_characters _ _ _ _ hcs
  refine ⟨'"' :: (t ++ ['"']), .intro ht, ?_⟩
  rw [cons_of_head? hquote, hs]
  rfl

theorem quoted_append {a : String} {t : List Char} (h : Quoted a t) (rest : List Char) :
    quoted (t ++ rest) = some (a, rest) := by
  cases h with
  | @intro cs t h =>
    have hlen : t.length < ('"' :: (t ++ '"' :: rest)).length := by
      simp only [List.length_append, List.length_cons]
      omega
    rw [List.cons_append, List.append_assoc, List.singleton_append, quoted,
      if_pos List.head?_cons, List.tail_cons, characters_append h hlen rest]
    rfl

/-! ## Numbers -/

/-- No digit follows. -/
def NoDigit (rest : List Char) : Prop :=
  ∀ c ∈ rest.head?, c.isDigit = false

theorem sound_digits : Sound (fun ds t => Digits t ∧ ds = t) digits := by
  intro s a rest h
  unfold digits at h
  split_ifs at h with hnil
  cases h
  refine ⟨s.takeWhile Char.isDigit, ⟨⟨hnil, ?_⟩, rfl⟩, List.takeWhile_append_dropWhile.symm⟩
  intro c hc
  exact List.mem_takeWhile_imp hc

theorem digits_append {t rest : List Char} (h : Digits t) (hrest : NoDigit rest) :
    digits (t ++ rest) = some (t, rest) := by
  have htake : (t ++ rest).takeWhile Char.isDigit = t := by
    rw [List.takeWhile_append_of_pos h.2]
    cases rest with
    | nil => simp
    | cons c rest => simp [hrest c rfl]
  have hdrop : (t ++ rest).dropWhile Char.isDigit = rest := by
    rw [List.dropWhile_append_of_pos h.2]
    cases rest with
    | nil => simp
    | cons c rest => simp [hrest c rfl]
  simp [digits, htake, hdrop, h.1]

theorem sound_whole : Sound Whole whole := by
  intro s n rest h
  obtain ⟨⟨ds, s₁⟩, hds, hread⟩ := Option.bind_eq_some_iff.1 h
  obtain ⟨t, ⟨ht, rfl⟩, rfl⟩ := sound_digits _ _ _ hds
  dsimp only at hread
  split_ifs at hread with hzero hlead
  · cases hread
    exact ⟨['0'], .zero, by rw [hzero]⟩
  · cases hread
    exact ⟨ds, .digits ht hlead, rfl⟩

theorem whole_append {n : ℕ} {t rest : List Char} (h : Whole n t) (hrest : NoDigit rest) :
    whole (t ++ rest) = some (n, rest) := by
  cases h with
  | zero =>
    have hzero : Digits ['0'] := ⟨by simp, by simp⟩
    rw [whole, digits_append hzero hrest]
    simp
  | digits h hzero =>
    have hne : t ≠ ['0'] := by
      rintro rfl
      exact hzero rfl
    simp [whole, digits_append h hrest, hne, hzero]

theorem sound_fraction : Sound Fraction fraction := by
  intro s f rest h
  unfold fraction at h
  split_ifs at h with hpoint
  · obtain ⟨⟨ds, s₁⟩, hds, h⟩ := Option.bind_eq_some_iff.1 h
    obtain ⟨t, ⟨ht, rfl⟩, hs⟩ := sound_digits _ _ _ hds
    cases h
    exact ⟨'.' :: ds, .some ht, by rw [cons_of_head? hpoint, hs]; rfl⟩
  · cases h
    exact ⟨[], .none, rfl⟩

theorem fraction_append {f : ℚ} {t rest : List Char} (h : Fraction f t) (hrest : NoDigit rest)
    (hpoint : rest.head? ≠ some '.') : fraction (t ++ rest) = some (f, rest) := by
  cases h with
  | none => simp [fraction, hpoint]
  | some h => simp [fraction, digits_append h hrest]

theorem sound_signed : Sound Signed signed := by
  intro s e rest h
  unfold signed at h
  split_ifs at h with hminus hplus
  all_goals
    obtain ⟨⟨ds, s₁⟩, hds, h⟩ := Option.bind_eq_some_iff.1 h
    obtain ⟨t, ⟨ht, rfl⟩, hs⟩ := sound_digits _ _ _ hds
    cases h
  · exact ⟨'-' :: ds, .minus ht, by rw [cons_of_head? hminus, hs]; rfl⟩
  · exact ⟨'+' :: ds, .plus ht, by rw [cons_of_head? hplus, hs]; rfl⟩
  · exact ⟨ds, .unsigned ht, hs⟩

theorem signed_append {e : ℤ} {t rest : List Char} (h : Signed e t) (hrest : NoDigit rest) :
    signed (t ++ rest) = some (e, rest) := by
  cases h with
  | unsigned h =>
    obtain ⟨c, ds, rfl⟩ := List.exists_cons_of_ne_nil h.1
    have hc := h.2 c (by simp)
    have hminus : c ≠ '-' := by
      rintro rfl
      cases hc
    have hplus : c ≠ '+' := by
      rintro rfl
      cases hc
    have hds := digits_append h hrest
    rw [List.cons_append] at hds
    simp [signed, hminus, hplus, hds]
  | plus h => simp [signed, digits_append h hrest]
  | minus h => simp [signed, digits_append h hrest]

theorem sound_exponent : Sound Exponent exponent := by
  intro s e rest h
  unfold exponent at h
  split_ifs at h with hmark
  · obtain ⟨t, ht, hs⟩ := sound_signed _ _ _ h
    rcases hmark with hmark | hmark
    · exact ⟨'e' :: t, .some (.inl rfl) ht, by rw [cons_of_head? hmark, hs]; rfl⟩
    · exact ⟨'E' :: t, .some (.inr rfl) ht, by rw [cons_of_head? hmark, hs]; rfl⟩
  · cases h
    exact ⟨[], .none, rfl⟩

/-- Nothing follows that would continue a number. -/
def NoNumeral (rest : List Char) : Prop :=
  ∀ c ∈ rest.head?, c.isDigit = false ∧ c ≠ '.' ∧ c ≠ 'e' ∧ c ≠ 'E'

theorem NoNumeral.noDigit {rest : List Char} (h : NoNumeral rest) : NoDigit rest :=
  fun c hc => (h c hc).1

theorem exponent_append {e : ℤ} {t rest : List Char} (h : Exponent e t) (hrest : NoNumeral rest) :
    exponent (t ++ rest) = some (e, rest) := by
  cases h with
  | none =>
    have hmark : ¬(rest.head? = some 'e' ∨ rest.head? = some 'E') := by
      rintro (hmark | hmark)
      · exact (hrest _ hmark).2.2.1 rfl
      · exact (hrest _ hmark).2.2.2 rfl
    simp [exponent, hmark]
  | some hmark h =>
    rcases hmark with rfl | rfl <;> simp [exponent, signed_append h hrest.noDigit]

theorem sound_magnitude : Sound Magnitude magnitude := by
  intro s q rest h
  obtain ⟨⟨n, s₁⟩, hn, h⟩ := Option.bind_eq_some_iff.1 h
  obtain ⟨⟨f, s₂⟩, hf, h⟩ := Option.bind_eq_some_iff.1 h
  obtain ⟨⟨e, s₃⟩, he, h⟩ := Option.bind_eq_some_iff.1 h
  cases h
  obtain ⟨t₁, ht₁, rfl⟩ := sound_whole _ _ _ hn
  obtain ⟨t₂, ht₂, hs₂⟩ := sound_fraction _ _ _ hf
  obtain ⟨t₃, ht₃, hs₃⟩ := sound_exponent _ _ _ he
  exact ⟨t₁ ++ (t₂ ++ t₃), .intro ht₁ ht₂ ht₃, by rw [hs₂, hs₃]; simp⟩

theorem magnitude_append {q : ℚ} {t rest : List Char} (h : Magnitude q t)
    (hrest : NoNumeral rest) : magnitude (t ++ rest) = some (q, rest) := by
  cases h with
  | @intro n f e t₁ t₂ t₃ hn hf he =>
    have hexp : ∀ c ∈ (t₃ ++ rest).head?, c.isDigit = false ∧ c ≠ '.' := by
      cases he with
      | none => exact fun c hc => ⟨(hrest c hc).1, (hrest c hc).2.1⟩
      | some hmark h =>
        intro c hc
        cases hc
        rcases hmark with rfl | rfl <;> decide
    have hfrac : NoDigit (t₂ ++ (t₃ ++ rest)) := by
      cases hf with
      | none => exact fun c hc => (hexp c hc).1
      | some h =>
        intro c hc
        cases hc
        decide
    have hread : whole (t₁ ++ (t₂ ++ (t₃ ++ rest))) = some (n, t₂ ++ (t₃ ++ rest)) :=
      whole_append hn hfrac
    have hread' : fraction (t₂ ++ (t₃ ++ rest)) = some (f, t₃ ++ rest) :=
      fraction_append hf (fun c hc => (hexp c hc).1) fun hc => (hexp _ hc).2 rfl
    simp [magnitude, hread, hread', exponent_append he hrest]

theorem sound_number : Sound Number number := by
  intro s q rest h
  unfold number at h
  split_ifs at h with hminus
  · obtain ⟨⟨q', s₁⟩, hq, h⟩ := Option.bind_eq_some_iff.1 h
    cases h
    obtain ⟨t, ht, hs⟩ := sound_magnitude _ _ _ hq
    exact ⟨'-' :: t, .negative ht, by rw [cons_of_head? hminus, hs]; rfl⟩
  · obtain ⟨t, ht, rfl⟩ := sound_magnitude _ _ _ h
    exact ⟨t, .positive ht, rfl⟩

theorem number_append {q : ℚ} {t rest : List Char} (h : Number q t) (hrest : NoNumeral rest) :
    number (t ++ rest) = some (q, rest) := by
  cases h with
  | positive h =>
    obtain ⟨c, s, rfl, hc⟩ := h.head
    have hminus : c ≠ '-' := by
      rintro rfl
      cases hc
    rw [number, if_neg (by simpa using hminus), magnitude_append h hrest]
  | negative h => simp [number, magnitude_append h hrest]

end Reader

end Json

end InkLint
