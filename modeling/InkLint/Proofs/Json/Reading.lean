import InkLint.Proofs.Json.Tokens

/-!
# Reading values

The reader accepts exactly the texts of the grammar and gives the value they stand for
(`readText_eq_some_iff`), so no text stands for two values. The proofs about values go by induction
on the bound on their length and not over the grammar: what stands inside brackets is shorter than
the text with its brackets.
-/

namespace InkLint

namespace Json

namespace Reader

open Grammar

variable {α : Type}

/-! ## White space and delimiters -/

/-- Nothing follows, or a delimiter. -/
def Delimited (rest : List Char) : Prop :=
  ∀ c ∈ rest.head?, c ∈ [',', ':', ']', '\x7d']

theorem dropWhile_isSpace {before s : List Char} (hbefore : Spaces before)
    (hs : ∀ c ∈ s.head?, isSpace c = false) : (before ++ s).dropWhile isSpace = s := by
  rw [List.dropWhile_append_of_pos hbefore]
  cases s with
  | nil => rfl
  | cons c s => simp [hs c rfl]

theorem Delimited.not_isSpace {rest : List Char} (h : Delimited rest) :
    ∀ c ∈ rest.head?, isSpace c = false := by
  intro c hc
  have hmem := h c hc
  simp only [List.mem_cons, List.not_mem_nil, or_false] at hmem
  rcases hmem with rfl | rfl | rfl | rfl <;> rfl

theorem Delimited.noNumeral {rest after : List Char} (h : Delimited rest) (hafter : Spaces after) :
    NoNumeral (after ++ rest) := by
  intro c hc
  cases after with
  | nil =>
    have hmem := h c hc
    simp only [List.mem_cons, List.not_mem_nil, or_false] at hmem
    rcases hmem with rfl | rfl | rfl | rfl <;> decide
  | cons d after =>
    obtain rfl : d = c := Option.some.inj hc
    have hspace := hafter d (by simp)
    simp only [isSpace, Bool.or_eq_true, decide_eq_true_eq] at hspace
    rcases hspace with ((rfl | rfl) | rfl) | rfl <;> decide

variable {P : α → List Char → Prop} {read : Read α} {n : Nat}

theorem sound_padded (h : Sound P read) : Sound (Padded P) (padded read) := by
  intro s a rest hread
  obtain ⟨⟨a', s₁⟩, ha, hread⟩ := Option.bind_eq_some_iff.1 hread
  cases hread
  obtain ⟨t, ht, hs⟩ := h _ _ _ ha
  refine ⟨s.takeWhile isSpace ++ (t ++ s₁.takeWhile isSpace),
    .intro (fun c hc => List.mem_takeWhile_imp hc) ht (fun c hc => List.mem_takeWhile_imp hc), ?_⟩
  calc
    s = s.takeWhile isSpace ++ s.dropWhile isSpace := List.takeWhile_append_dropWhile.symm
    _ = _ := by rw [hs, List.append_assoc, List.append_assoc, List.takeWhile_append_dropWhile]

theorem complete_padded (hhead : ∀ a t, P a t → ∃ c s, t = c :: s ∧ isSpace c = false)
    (h : Complete n NoNumeral P read) : Complete n Delimited (Padded P) (padded read) := by
  intro a t rest ht hlen hrest
  cases ht with
  | @intro before after t _ hbefore ht hafter =>
    rw [List.length_append, List.length_append] at hlen
    have hread := h a t (after ++ rest) ht (by omega) (hrest.noNumeral hafter)
    obtain ⟨c, s, rfl, hc⟩ := hhead a t ht
    have hdrop : (before ++ (c :: s ++ (after ++ rest))).dropWhile isSpace =
        c :: s ++ (after ++ rest) := dropWhile_isSpace hbefore (by simpa using hc)
    have hdrop' : (after ++ rest).dropWhile isSpace = rest :=
      dropWhile_isSpace hafter hrest.not_isSpace
    rw [List.append_assoc, List.append_assoc, padded, hdrop, hread]
    simp [hdrop']

theorem sound_separated (h : Sound P read) (n : Nat) : Sound (Separated P) (separated read n) := by
  induction n with
  | zero =>
    intro s as rest hread
    cases hread
  | succ n ih =>
    intro s as rest hread
    obtain ⟨⟨a, s₁⟩, ha, hmore⟩ := Option.bind_eq_some_iff.1 hread
    obtain ⟨t, ht, rfl⟩ := h _ _ _ ha
    dsimp only at hmore
    split_ifs at hmore with hcomma
    · obtain ⟨⟨as', s₂⟩, has, hmore⟩ := Option.bind_eq_some_iff.1 hmore
      cases hmore
      obtain ⟨ts, hts, hs⟩ := ih _ _ _ has
      refine ⟨t ++ ',' :: ts, .cons ht hts, ?_⟩
      rw [cons_of_head? hcomma, hs]
      simp
    · cases hmore
      exact ⟨t, .one ht, rfl⟩

/-- Items are read up to a bracket. -/
theorem separated_append {m : Nat} (h : Complete m Delimited P read) {as : List α} {t : List Char}
    (hs : Separated P as t) (hlen : t.length ≤ m) (hn : t.length < n) {close : Char}
    (hclose : close = ']' ∨ close = '\x7d') (rest : List Char) :
    separated read n (t ++ close :: rest) = some (as, close :: rest) := by
  induction hs generalizing n with
  | one ht =>
    cases n with
    | zero => omega
    | succ n =>
      have hrest : Delimited (close :: rest) := by
        rcases hclose with rfl | rfl <;> simp [Delimited]
      have hread := h _ _ _ ht hlen hrest
      rcases hclose with rfl | rfl <;> simp [separated, hread]
  | @cons t ts a as ht hs ih =>
    cases n with
    | zero => omega
    | succ n =>
      rw [List.length_append, List.length_cons] at hlen hn
      have hread := h _ _ (',' :: (ts ++ close :: rest)) ht (by omega) (by simp [Delimited])
      have hrest := ih (n := n) (by omega) (by omega)
      rw [List.append_assoc, List.cons_append, separated, hread]
      simp [hrest]

theorem sound_closed {close : Char} {read : Read (List α)} (h : Sound (Separated P) read) :
    Sound (Closed close P) (closed close read) := by
  intro s as rest hread
  unfold closed at hread
  split_ifs at hread with hempty
  · cases hread
    refine ⟨s.takeWhile isSpace ++ [close], .none fun c hc => List.mem_takeWhile_imp hc, ?_⟩
    calc
      s = s.takeWhile isSpace ++ s.dropWhile isSpace := List.takeWhile_append_dropWhile.symm
      _ = _ := by rw [cons_of_head? hempty]; simp
  · obtain ⟨⟨as', s₁⟩, has, hread⟩ := Option.bind_eq_some_iff.1 hread
    dsimp only at hread
    split_ifs at hread with hclose
    cases hread
    obtain ⟨t, ht, rfl⟩ := h _ _ _ has
    refine ⟨t ++ [close], .some ht, ?_⟩
    rw [cons_of_head? hclose]
    simp

/-- After the white space in front, a text begins with something other than a closing bracket. -/
def BeginsItem (t : List Char) : Prop :=
  ∃ before c s, t = before ++ c :: s ∧ Spaces before ∧ isSpace c = false ∧ c ≠ ']' ∧ c ≠ '\x7d'

theorem closed_append {close : Char} {read : Read (List α)}
    (hclose : close = ']' ∨ close = '\x7d') (hbegins : ∀ a t, P a t → BeginsItem t)
    (h : ∀ as t rest, Separated P as t → t.length < n →
      read (t ++ close :: rest) = some (as, close :: rest))
    {as : List α} {t : List Char} (ht : Closed close P as t) (hlen : t.length ≤ n)
    (rest : List Char) : closed close read (t ++ rest) = some (as, rest) := by
  cases ht with
  | @none t ht =>
    have hspace : isSpace close = false := by rcases hclose with rfl | rfl <;> rfl
    have hdrop : (t ++ close :: rest).dropWhile isSpace = close :: rest :=
      dropWhile_isSpace ht (by simpa using hspace)
    simp [closed, hdrop]
  | @some t _ ht =>
    have hread := h as t rest ht (by simpa using hlen)
    -- the first item keeps the text from being taken for an empty one
    obtain ⟨before, c, s, hs, hbefore, hc, hsquare, hcurly⟩ : BeginsItem t := by
      cases ht with
      | one ht => exact hbegins _ _ ht
      | cons ht hts =>
        obtain ⟨before, c, s, rfl, hbefore, hc⟩ := hbegins _ _ ht
        exact ⟨before, c, _, List.append_assoc .., hbefore, hc⟩
    have hdrop : (t ++ close :: rest).dropWhile isSpace = c :: (s ++ close :: rest) := by
      rw [hs, List.append_assoc]
      exact dropWhile_isSpace hbefore (by simpa using hc)
    have hne : c ≠ close := by rcases hclose with rfl | rfl <;> assumption
    rw [List.append_assoc, List.singleton_append, closed, hdrop, hread]
    simp [hne]

/-! ## Values -/

theorem sound_member {read : Read Data} {P : Data → List Char → Prop} (h : Sound P read) :
    Sound (Member P) (member read) := by
  intro s f rest hread
  obtain ⟨⟨name, s₁⟩, hname, hmore⟩ := Option.bind_eq_some_iff.1 hread
  obtain ⟨t, ht, rfl⟩ := sound_padded sound_quoted _ _ _ hname
  dsimp only at hmore
  split_ifs at hmore with hcolon
  obtain ⟨⟨v, s₂⟩, hvalue, hmore⟩ := Option.bind_eq_some_iff.1 hmore
  cases hmore
  obtain ⟨u, hu, hs⟩ := sound_padded h _ _ _ hvalue
  refine ⟨t ++ ':' :: u, .intro ht hu, ?_⟩
  rw [cons_of_head? hcolon, hs]
  simp

theorem complete_member {read : Read Data} {P : Data → List Char → Prop}
    (hhead : ∀ a t, P a t → ∃ c s, t = c :: s ∧ isSpace c = false)
    (h : Complete n NoNumeral P read) : Complete n Delimited (Member P) (member read) := by
  intro f t rest hf hlen hrest
  cases hf with
  | @intro name v s t hname hvalue =>
    rw [List.length_append, List.length_cons] at hlen
    have hquoted : Complete n NoNumeral Quoted quoted := fun _ _ rest h _ _ => quoted_append h rest
    have hread : padded quoted (s ++ ':' :: (t ++ rest)) = some (name, ':' :: (t ++ rest)) :=
      complete_padded (fun a t h => by obtain ⟨s, rfl⟩ := h.head; exact ⟨_, s, rfl, rfl⟩)
        hquoted _ _ _ hname (by omega) (by simp [Delimited])
    have hread' := complete_padded hhead h _ _ _ hvalue (by omega) hrest
    rw [List.append_assoc, List.cons_append, member, hread]
    simp [hread']

theorem sound_literal {word : List Char} {v : Data} (h : Value v word) :
    Sound Value (literal word v) := by
  intro s a rest hread
  unfold literal at hread
  split_ifs at hread with hword
  cases hread
  exact ⟨word, h, (List.prefix_iff_eq_append.1 hword).symm⟩

theorem sound_value (n : Nat) : Sound Value (value n) := by
  induction n with
  | zero =>
    intro s v rest h
    cases h
  | succ n ih =>
    intro s v rest h
    unfold value at h
    split_ifs at h with htext hlist hobject hnull htrue hfalse
    · obtain ⟨⟨content, s₁⟩, hread, h⟩ := Option.bind_eq_some_iff.1 h
      cases h
      obtain ⟨t, ht, rfl⟩ := sound_quoted _ _ _ hread
      exact ⟨t, .text ht, rfl⟩
    · obtain ⟨⟨items, s₁⟩, hread, h⟩ := Option.bind_eq_some_iff.1 h
      cases h
      obtain ⟨t, ht, hs⟩ := sound_closed (sound_separated (sound_padded ih) n) _ _ _ hread
      exact ⟨'[' :: t, .list ht, by rw [cons_of_head? hlist, hs]; rfl⟩
    · obtain ⟨⟨fields, s₁⟩, hread, h⟩ := Option.bind_eq_some_iff.1 h
      cases h
      obtain ⟨t, ht, hs⟩ := sound_closed (sound_separated (sound_member ih) n) _ _ _ hread
      exact ⟨'\x7b' :: t, .object ht, by rw [cons_of_head? hobject, hs]; rfl⟩
    · exact sound_literal .null _ _ _ h
    · exact sound_literal .isTrue _ _ _ h
    · exact sound_literal .isFalse _ _ _ h
    · obtain ⟨⟨q, s₁⟩, hread, h⟩ := Option.bind_eq_some_iff.1 h
      cases h
      obtain ⟨t, ht, rfl⟩ := sound_number _ _ _ hread
      exact ⟨t, .number ht, rfl⟩

theorem beginsItem_value {v : Data} {t : List Char} (h : Padded Value v t) : BeginsItem t := by
  obtain ⟨hbefore, h, -⟩ := h
  obtain ⟨c, s, rfl, hc⟩ := h.head
  exact ⟨_, c, _, rfl, hbefore, hc⟩

theorem beginsItem_member {f : String × Data} {t : List Char} (h : Member Value f t) :
    BeginsItem t := by
  obtain ⟨⟨hbefore, h, -⟩, -⟩ := h
  obtain ⟨s, rfl⟩ := h.head
  exact ⟨_, '"', _, by rw [List.append_assoc]; rfl, hbefore, by decide⟩

theorem head_value (v : Data) (t : List Char) (h : Value v t) :
    ∃ c s, t = c :: s ∧ isSpace c = false := by
  obtain ⟨c, s, rfl, hc, -⟩ := h.head
  exact ⟨c, s, rfl, hc⟩

theorem complete_value (n : Nat) : Complete n NoNumeral Value (value n) := by
  induction n with
  | zero =>
    intro v t rest h hlen hrest
    obtain ⟨c, s, rfl, -⟩ := h.head
    simp at hlen
  | succ n ih =>
    intro v t rest h hlen hrest
    -- the first character of the text decides how it is read
    cases h with
    | null => simp [value, literal]
    | isTrue => simp [value, literal]
    | isFalse => simp [value, literal]
    | number h =>
      have hread := number_append h hrest
      obtain ⟨c, s, rfl, hc⟩ := h.head
      have hkind : ∀ d ∈ ['"', '[', '\x7b', 'n', 't', 'f'], c ≠ d := by
        rintro d hd rfl
        rcases hc with rfl | hc
        · simp at hd
        · simp only [List.mem_cons, List.not_mem_nil, or_false] at hd
          rcases hd with rfl | rfl | rfl | rfl | rfl | rfl <;> cases hc
      simp only [List.forall_mem_cons, List.not_mem_nil, false_implies, implies_true,
        and_true] at hkind
      rw [List.cons_append] at hread
      simp [value, hkind, hread]
    | text h =>
      have hread := quoted_append h rest
      obtain ⟨s, rfl⟩ := h.head
      rw [List.cons_append] at hread
      simp [value, hread]
    | list h =>
      have hitems : ∀ as t rest, Separated (Padded Value) as t → t.length < n →
          separated (padded (value n)) n (t ++ ']' :: rest) = some (as, ']' :: rest) :=
        fun as t rest ht hlen => separated_append (complete_padded head_value ih) ht hlen.le hlen
          (.inl rfl) rest
      have hread := closed_append (.inl rfl) (fun _ _ => beginsItem_value) hitems h
        (by simpa using hlen) rest
      simp [value, hread]
    | object h =>
      have hfields : ∀ as t rest, Separated (Member Value) as t → t.length < n →
          separated (member (value n)) n (t ++ '\x7d' :: rest) = some (as, '\x7d' :: rest) :=
        fun as t rest ht hlen => separated_append (complete_member head_value ih) ht hlen.le hlen
          (.inr rfl) rest
      have hread := closed_append (.inr rfl) (fun _ _ => beginsItem_member) hfields h
        (by simpa using hlen) rest
      simp [value, hread]

/-- **Reading a JSON text.** The reader accepts exactly the texts of the grammar, and gives the
value that they stand for. -/
theorem readText_eq_some_iff {s : List Char} {v : Data} : readText s = some v ↔ Text v s := by
  constructor
  · intro h
    obtain ⟨⟨v', rest⟩, hread, h⟩ := Option.bind_eq_some_iff.1 h
    dsimp only at h
    split_ifs at h with hrest
    cases h
    obtain ⟨t, ht, rfl⟩ := sound_padded (sound_value _) _ _ _ hread
    rw [hrest, List.append_nil]
    exact ht
  · intro h
    have hread := complete_padded head_value (complete_value s.length) v s [] h le_rfl
      (by simp [Delimited])
    rw [List.append_nil] at hread
    simp [readText, hread]

-- no comma before the bracket, no zero before a digit; two escaped halves are one character
example : readText ['[', '1', ',', ']'] = none := by decide

example : readText ['0', '1'] = none := by decide

example : readText ['"', '\\', 'u', 'd', '8', '3', '4', '\\', 'u', 'd', 'd', '1', 'e', '"'] =
    some (.text "𝄞") := by
  rfl

/-- No text stands for two values. -/
theorem text_unique {s : List Char} {v w : Data} (hv : Text v s) (hw : Text w s) : v = w := by
  rw [← readText_eq_some_iff] at hv hw
  rw [hv] at hw
  exact Option.some.inj hw

theorem readBytes_encode (s : List Char) : readBytes (Utf8.encode s) = readText s := by
  rw [readBytes, Utf8.decode?_encode, Option.bind_some]

end Reader

end Json

end InkLint
