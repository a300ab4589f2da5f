import InkLint.Output.Json
import Mathlib

/-!
# JSON texts

The grammar of JSON texts (RFC 8259), as relations between a value and the texts that stand for it.
White space may stand around every value, name and delimiter. A number stands for the rational that
it denotes, so `10`, `1e1` and `10.0` are three texts of one number; the members of an object are
kept in their order, repeated names included. In one point the relations are stricter than the
grammar: an escaped surrogate without a partner denotes no character, so no text that holds one
stands for a value.
-/

namespace InkLint

namespace Json

/-- What a JSON text stands for. -/
inductive Data where
  | null
  | bool (b : Bool)
  | number (q : ℚ)
  | text (s : String)
  | list (items : List Data)
  | object (fields : List (String × Data))

namespace Grammar

variable {α : Type}

/-! ## White space and delimiters -/

def isSpace (c : Char) : Bool :=
  c = ' ' || c = '\t' || c = '\n' || c = '\r'

def Spaces (t : List Char) : Prop :=
  ∀ c ∈ t, isSpace c

/-- With white space around it. -/
inductive Padded (P : α → List Char → Prop) : α → List Char → Prop
  | intro {before after t : List Char} {a : α} (hbefore : Spaces before) (h : P a t)
      (hafter : Spaces after) : Padded P a (before ++ (t ++ after))

/-- One or more, with commas between them. -/
inductive Separated (P : α → List Char → Prop) : List α → List Char → Prop
  | one {t : List Char} {a : α} (h : P a t) : Separated P [a] t
  | cons {t ts : List Char} {a : α} {as : List α} (h : P a t) (hs : Separated P as ts) :
      Separated P (a :: as) (t ++ ',' :: ts)

/-- None or more with commas between them, up to a closing bracket. -/
inductive Closed (close : Char) (P : α → List Char → Prop) : List α → List Char → Prop
  | none {t : List Char} (h : Spaces t) : Closed close P [] (t ++ [close])
  | some {t : List Char} {as : List α} (h : Separated P as t) : Closed close P as (t ++ [close])

/-! ## Texts in quotes -/

/-- The value of a hexadecimal digit. -/
def hexValue? (c : Char) : Option Nat :=
  if '0' ≤ c ∧ c ≤ '9' then some (c.toNat - 0x30)
  else if 'a' ≤ c ∧ c ≤ 'f' then some (c.toNat - 0x57)
  else if 'A' ≤ c ∧ c ≤ 'F' then some (c.toNat - 0x37)
  else none

/-- The value of four hexadecimal digits. -/
def unit? (a b c d : Char) : Option Nat := do
  let a ← hexValue? a
  let b ← hexValue? b
  let c ← hexValue? c
  let d ← hexValue? d
  return ((a * 16 + b) * 16 + c) * 16 + d

/-- The character that a letter or mark after a backslash stands for. -/
def short? (mark : Char) : Option Char :=
  if mark = '"' ∨ mark = '\\' ∨ mark = '/' then some mark
  else if mark = 'b' then some '\x08'
  else if mark = 'f' then some '\x0c'
  else if mark = 'n' then some '\n'
  else if mark = 'r' then some '\r'
  else if mark = 't' then some '\t'
  else none

def IsHigh (n : Nat) : Prop := 0xd800 ≤ n ∧ n < 0xdc00

def IsLow (n : Nat) : Prop := 0xdc00 ≤ n ∧ n < 0xe000

instance (n : Nat) : Decidable (IsHigh n) := inferInstanceAs (Decidable (_ ∧ _))

instance (n : Nat) : Decidable (IsLow n) := inferInstanceAs (Decidable (_ ∧ _))

/-- The ways to write a character between quotes. -/
inductive Character : Char → List Char → Prop
  | plain {c : Char} (hc : 0x20 ≤ c.toNat) (hquote : c ≠ '"') (hback : c ≠ '\\') : Character c [c]
  | short {mark c : Char} (h : short? mark = some c) : Character c ['\\', mark]
  | unit {a b c d : Char} {n : Nat} (h : unit? a b c d = some n) (hhigh : ¬IsHigh n)
      (hlow : ¬IsLow n) : Character (Char.ofNat n) ['\\', 'u', a, b, c, d]
  /-- A character beyond the first 65536 as two halves of ten bits. -/
  | pair {a b c d a' b' c' d' : Char} {n m : Nat} (h : unit? a b c d = some n) (hhigh : IsHigh n)
      (h' : unit? a' b' c' d' = some m) (hlow : IsLow m) :
      Character (Char.ofNat (0x10000 + (n - 0xd800) * 0x400 + (m - 0xdc00)))
        ['\\', 'u', a, b, c, d, '\\', 'u', a', b', c', d']

theorem Character.length_pos {c : Char} {t : List Char} (h : Character c t) : 0 < t.length := by
  cases h <;> simp

/-- A quote as such never begins a character. -/
theorem Character.head?_ne {c : Char} {t : List Char} (h : Character c t) (rest : List Char) :
    (t ++ rest).head? ≠ some '"' := by
  cases h with
  | plain hc hquote hback => simpa using hquote
  | short | unit | pair => simp

inductive Characters : List Char → List Char → Prop
  | nil : Characters [] []
  | cons {c : Char} {cs t ts : List Char} (h : Character c t) (hs : Characters cs ts) :
      Characters (c :: cs) (t ++ ts)

inductive Quoted : String → List Char → Prop
  | intro {cs t : List Char} (h : Characters cs t) : Quoted (String.ofList cs) ('"' :: (t ++ ['"']))

theorem Quoted.head {name : String} {t : List Char} (h : Quoted name t) : ∃ s, t = '"' :: s := by
  obtain ⟨h⟩ := h
  exact ⟨_, rfl⟩

/-! ## Numbers -/

/-- One or more decimal digits. -/
def Digits (t : List Char) : Prop :=
  t ≠ [] ∧ ∀ c ∈ t, c.isDigit = true

/-- The digits before the point: no zero stands before another digit. -/
inductive Whole : ℕ → List Char → Prop
  | zero : Whole 0 ['0']
  | digits {t : List Char} (h : Digits t) (hzero : t.head? ≠ some '0') :
      Whole (Nat.ofDigitChars 10 t 0) t

inductive Fraction : ℚ → List Char → Prop
  | none : Fraction 0 []
  | some {t : List Char} (h : Digits t) :
      Fraction (Nat.ofDigitChars 10 t 0 / 10 ^ t.length) ('.' :: t)

inductive Signed : ℤ → List Char → Prop
  | unsigned {t : List Char} (h : Digits t) : Signed (Nat.ofDigitChars 10 t 0) t
  | plus {t : List Char} (h : Digits t) : Signed (Nat.ofDigitChars 10 t 0) ('+' :: t)
  | minus {t : List Char} (h : Digits t) : Signed (-Nat.ofDigitChars 10 t 0) ('-' :: t)

inductive Exponent : ℤ → List Char → Prop
  | none : Exponent 0 []
  | some {mark : Char} {e : ℤ} {t : List Char} (hmark : mark = 'e' ∨ mark = 'E')
      (h : Signed e t) : Exponent e (mark :: t)

inductive Magnitude : ℚ → List Char → Prop
  | intro {n : ℕ} {f : ℚ} {e : ℤ} {whole fraction exponent : List Char} (hn : Whole n whole)
      (hf : Fraction f fraction) (he : Exponent e exponent) :
      Magnitude ((n + f) * 10 ^ e) (whole ++ (fraction ++ exponent))

inductive Number : ℚ → List Char → Prop
  | positive {q : ℚ} {t : List Char} (h : Magnitude q t) : Number q t
  | negative {q : ℚ} {t : List Char} (h : Magnitude q t) : Number (-q) ('-' :: t)

theorem Magnitude.head {q : ℚ} {t : List Char} (h : Magnitude q t) :
    ∃ c s, t = c :: s ∧ c.isDigit = true := by
  obtain ⟨hn, -, -⟩ := h
  cases hn with
  | zero => exact ⟨'0', _, rfl, rfl⟩
  | digits h =>
    obtain ⟨c, ds, rfl⟩ := List.exists_cons_of_ne_nil h.1
    exact ⟨c, _, rfl, h.2 c (by simp)⟩

theorem Number.head {q : ℚ} {t : List Char} (h : Number q t) :
    ∃ c s, t = c :: s ∧ (c = '-' ∨ c.isDigit = true) := by
  cases h with
  | positive h =>
    obtain ⟨c, s, rfl, hc⟩ := h.head
    exact ⟨c, s, rfl, .inr hc⟩
  | negative => exact ⟨_, _, rfl, .inl rfl⟩

/-! ## Values -/

/-- A member of an object: its name, a colon and its value. -/
inductive Member (P : Data → List Char → Prop) : String × Data → List Char → Prop
  | intro {name : String} {value : Data} {s t : List Char} (hname : Padded Quoted name s)
      (hvalue : Padded P value t) : Member P (name, value) (s ++ ':' :: t)

/-- The texts of a value, without white space around it. -/
inductive Value : Data → List Char → Prop
  | null : Value .null ['n', 'u', 'l', 'l']
  | isTrue : Value (.bool true) ['t', 'r', 'u', 'e']
  | isFalse : Value (.bool false) ['f', 'a', 'l', 's', 'e']
  | number {q : ℚ} {t : List Char} (h : Number q t) : Value (.number q) t
  | text {s : String} {t : List Char} (h : Quoted s t) : Value (.text s) t
  | list {items : List Data} {t : List Char} (h : Closed ']' (Padded Value) items t) :
      Value (.list items) ('[' :: t)
  | object {fields : List (String × Data)} {t : List Char}
      (h : Closed '\x7d' (Member Value) fields t) : Value (.object fields) ('\x7b' :: t)

/-- A value begins with neither white space nor a bracket that closes. -/
theorem Value.head {v : Data} {t : List Char} (h : Value v t) :
    ∃ c s, t = c :: s ∧ isSpace c = false ∧ c ≠ ']' ∧ c ≠ '\x7d' := by
  cases h with
  | null | isTrue | isFalse | list | object => exact ⟨_, _, rfl, by decide⟩
  | text h =>
    obtain ⟨s, rfl⟩ := h.head
    exact ⟨_, _, rfl, by decide⟩
  | number h =>
    obtain ⟨c, s, rfl, hc⟩ := h.head
    refine ⟨c, s, rfl, ?_, ?_, ?_⟩
    · rw [Bool.eq_false_iff]
      intro hspace
      simp only [isSpace, Bool.or_eq_true, decide_eq_true_eq] at hspace
      rcases hspace with ((rfl | rfl) | rfl) | rfl <;> simp at hc
    · rintro rfl
      simp at hc
    · rintro rfl
      simp at hc

/-- A text that is one value and nothing else, white space apart. -/
def Text : Data → List Char → Prop :=
  Padded Value

/-! ## Texts put together -/

variable {P : α → List Char → Prop} {after : List Char}

theorem padded_of_spaces {a : α} {before t : List Char} (hbefore : Spaces before) (h : P a t) :
    Padded P a (before ++ t) := by
  have hnil : Spaces [] := by simp [Spaces]
  simpa using Padded.intro hbefore h hnil

theorem Padded.append {a : α} {t : List Char} (h : Padded P a t) (hafter : Spaces after) :
    Padded P a (t ++ after) := by
  cases h with
  | intro hbefore h hafter' =>
    rw [List.append_assoc, List.append_assoc]
    refine .intro hbefore h fun c hc => ?_
    exact (List.mem_append.1 hc).elim (hafter' c) (hafter c)

theorem Member.append {Q : Data → List Char → Prop} {f : String × Data} {t : List Char}
    (h : Member Q f t) (hafter : Spaces after) : Member Q f (t ++ after) := by
  cases h with
  | intro hname hvalue =>
    rw [List.append_assoc, List.cons_append]
    exact .intro hname (hvalue.append hafter)

/-- White space after the last item belongs to it. -/
theorem Separated.append (hP : ∀ a t, P a t → P a (t ++ after)) {as : List α} {t : List Char}
    (h : Separated P as t) : Separated P as (t ++ after) := by
  induction h with
  | one h => exact .one (hP _ _ h)
  | cons h _ ih =>
    rw [List.append_assoc, List.cons_append]
    exact .cons h ih

theorem separated_intercalate {as : List α} {ts : List (List Char)} (h : List.Forall₂ P as ts)
    (hne : ts ≠ []) : Separated P as ([','].intercalate ts) := by
  induction h with
  | nil => exact absurd rfl hne
  | @cons a t as ts h hs ih =>
    cases hs with
    | nil =>
      rw [List.intercalate_singleton]
      exact .one h
    | cons h' hs =>
      rw [List.intercalate_cons_cons, List.append_assoc]
      exact .cons h (ih (by simp))

end Grammar

end Json

end InkLint
