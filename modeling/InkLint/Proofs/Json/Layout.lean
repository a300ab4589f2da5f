import InkLint.Proofs.Json.Reading

/-!
# What is written is JSON

A value that can be written is written whole, laid out with two blanks for each level and one item
on each line (`Laid`), and what is written is a JSON text of it.
-/

namespace InkLint

namespace Json

open Grammar

/-! ## Layout -/

/-- Items between brackets: each on a line of its own one level further in, commas after all but
the last, and the closing bracket on its own line. Without items nothing stands between. -/
def bracketed (opening closing : Char) (depth : Nat) (items : List (List Char)) : List Char :=
  if items = [] then [opening, closing]
  else opening :: ([','].intercalate (items.map (newline (depth + 1) ++ ·)) ++
    newline depth ++ [closing])

mutual

/-- The layout of a value that stands at a depth. -/
inductive Laid : Nat → Data → List Char → Prop
  | text (depth : Nat) (s : String) : Laid depth (.text s) (quote s)
  | number (depth n : Nat) : Laid depth (.number n) (Nat.toDigits 10 n)
  | list {depth : Nat} {items : List Data} {lines : List (List Char)}
      (h : LaidItems (depth + 1) items lines) :
      Laid depth (.list items) (bracketed '[' ']' depth lines)
  | object {depth : Nat} {fields : List (String × Data)} {lines : List (List Char)}
      (h : LaidFields (depth + 1) fields lines) :
      Laid depth (.object fields) (bracketed '\x7b' '\x7d' depth lines)

inductive LaidItems : Nat → List Data → List (List Char) → Prop
  | nil (depth : Nat) : LaidItems depth [] []
  | cons {depth : Nat} {item : Data} {items : List Data} {line : List Char}
      {lines : List (List Char)} (h : Laid depth item line) (hs : LaidItems depth items lines) :
      LaidItems depth (item :: items) (line :: lines)

inductive LaidFields : Nat → List (String × Data) → List (List Char) → Prop
  | nil (depth : Nat) : LaidFields depth [] []
  | cons {depth : Nat} {name : String} {value : Data} {fields : List (String × Data)}
      {text : List Char} {lines : List (List Char)} (h : Laid depth value text)
      (hs : LaidFields depth fields lines) :
      LaidFields depth ((name, value) :: fields) ((quote name ++ [':', ' '] ++ text) :: lines)

end

/-- A value is written whole, in the layout of a value of JSON, and as a text of it. -/
def Writes (depth : Nat) (json : Json) (v : Data) : Prop :=
  ∃ t, json.render depth = ⟨t, true⟩ ∧ Laid depth v t ∧ Value v t

/-! ## Texts and numbers -/

theorem unit?_hexDigit {n : Nat} (h : n < 32) :
    unit? '0' '0' (hexDigit (n / 16)) (hexDigit (n % 16)) = some n := by
  interval_cases n <;> rfl

theorem character_escape (c : Char) : Character c (escape c) := by
  unfold escape
  split_ifs with hquote hback hb hf hn hr ht hlow
  · subst hquote
    exact .short rfl
  · subst hback
    exact .short rfl
  · subst hb
    exact .short rfl
  · subst hf
    exact .short rfl
  · subst hn
    exact .short rfl
  · subst hr
    exact .short rfl
  · subst ht
    exact .short rfl
  · have hhigh : ¬IsHigh c.toNat := by
      unfold IsHigh
      omega
    have hpartner : ¬IsLow c.toNat := by
      unfold IsLow
      omega
    have h := Character.unit (unit?_hexDigit hlow) hhigh hpartner
    rwa [Char.ofNat_toNat] at h
  · exact .plain (by omega) hquote hback

theorem characters_escape (cs : List Char) : Characters cs (cs.flatMap escape) := by
  induction cs with
  | nil => exact .nil
  | cons c cs ih => exact .cons (character_escape c) ih

theorem quoted_quote (s : String) : Quoted s (quote s) := by
  have h := Quoted.intro (characters_escape s.toList)
  rwa [String.ofList_toList] at h

/-- A number other than zero is not written with a zero in front. -/
theorem head?_toDigits {n : Nat} (h : n ≠ 0) : (Nat.toDigits 10 n).head? ≠ some '0' := by
  induction n using Nat.strong_induction_on with
  | _ n ih =>
    rw [Nat.toDigits_eq_if (by decide)]
    split_ifs with hlt
    · interval_cases n <;> simp at h ⊢
    · have hne : Nat.toDigits 10 (n / 10) ≠ [] := Nat.toDigits_ne_nil
      obtain ⟨c, ds, hds⟩ := List.exists_cons_of_ne_nil hne
      have hhead := ih (n / 10) (by omega) (by omega)
      rw [hds] at hhead ⊢
      exact hhead

theorem whole_toDigits (n : Nat) : Whole n (Nat.toDigits 10 n) := by
  by_cases hn : n = 0
  · subst hn
    exact .zero
  · have hdigits : Digits (Nat.toDigits 10 n) :=
      ⟨Nat.toDigits_ne_nil, fun c hc => Nat.isDigit_of_mem_toDigits (by decide) (by decide) hc⟩
    have h := Whole.digits hdigits (head?_toDigits hn)
    rwa [Nat.ofDigitChars_ten_toDigits] at h

theorem number_toDigits (n : Nat) : Number n (Nat.toDigits 10 n) := by
  have h := Number.positive (.intro (whole_toDigits n) .none .none)
  simpa using h

theorem writes_text (depth : Nat) (s : String) : Writes depth (.text s) (.text s) :=
  ⟨quote s, rfl, .text depth s, .text (quoted_quote s)⟩

theorem writes_number (depth n : Nat) : Writes depth (.number n) (.number n) :=
  ⟨Nat.toDigits 10 n, rfl, .number depth n, .number (number_toDigits n)⟩

/-! ## Spaces around what is written -/

theorem spaces_newline (depth : Nat) : Spaces (newline depth) := by
  intro c hc
  rw [newline, List.mem_cons] at hc
  rcases hc with rfl | hc
  · rfl
  · rw [List.eq_of_mem_replicate hc]
    rfl

variable {α : Type} {P : α → List Char → Prop}

/-- What is written between brackets is read as the items. -/
theorem closed_bracketed (opening closing : Char) {depth : Nat} {as : List α}
    {lines : List (List Char)} (hP : ∀ a t, P a t → P a (t ++ newline depth))
    (h : List.Forall₂ (fun a line => P a (newline (depth + 1) ++ line)) as lines) :
    ∃ t, bracketed opening closing depth lines = opening :: t ∧ Closed closing P as t := by
  unfold bracketed
  split_ifs with hlines
  · subst hlines
    cases h
    exact ⟨_, rfl, .none (t := []) (fun c hc => by cases hc)⟩
  · have hitems : List.Forall₂ P as (lines.map (newline (depth + 1) ++ ·)) :=
      List.forall₂_map_right_iff.2 h
    have hseparated := separated_intercalate hitems (by simpa using hlines)
    exact ⟨_, rfl, .some (hseparated.append hP)⟩

/-! ## Lists and objects -/

theorem draft_append (s t : List Char) (isWhole : Bool) :
    (⟨s, true⟩ : Draft) ++ ⟨t, isWhole⟩ = ⟨s ++ t, isWhole⟩ := rfl

/-- A comma after each line but the last is commas between the lines. -/
theorem append_comma_intercalate (line : List Char) (lines : List (List Char)) :
    line ++ comma (!lines.isEmpty) ++ [','].intercalate lines =
      [','].intercalate (line :: lines) := by
  cases lines <;> simp [comma]

theorem draft_bracketed (opening closing : Char) (depth : Nat) (lines : List (List Char)) :
    (if lines.isEmpty then (⟨[opening, closing], true⟩ : Draft)
      else ⟨[opening], true⟩ ++
        ⟨[','].intercalate (lines.map (newline (depth + 1) ++ ·)), true⟩ ++
        ⟨newline depth ++ [closing], true⟩) =
      ⟨bracketed opening closing depth lines, true⟩ := by
  cases lines with
  | nil => rfl
  | cons line lines => simp [bracketed, draft_append]

theorem renderItems_of_writes {depth : Nat} {items : List Json} {vs : List Data}
    (h : List.Forall₂ (Writes depth) items vs) :
    ∃ lines, renderItems depth items =
        ⟨[','].intercalate (lines.map (newline depth ++ ·)), true⟩ ∧
      LaidItems depth vs lines ∧ List.Forall₂ Value vs lines ∧ items.isEmpty = lines.isEmpty := by
  induction h with
  | nil => exact ⟨[], rfl, .nil depth, .nil, rfl⟩
  | @cons item v items vs h hs ih =>
    obtain ⟨t, hrender, hlaid, hvalue⟩ := h
    obtain ⟨lines, hrenders, hlaids, hvalues, hempty⟩ := ih
    refine ⟨t :: lines, ?_, .cons hlaid hlaids, .cons hvalue hvalues, rfl⟩
    rw [renderItems, hrender, hrenders, hempty, draft_append, draft_append, draft_append,
      List.map_cons, ← append_comma_intercalate, List.isEmpty_map]

theorem writes_list {depth : Nat} {items : List Json} {vs : List Data}
    (h : List.Forall₂ (Writes (depth + 1)) items vs) : Writes depth (.list items) (.list vs) := by
  obtain ⟨lines, hrender, hlaid, hvalues, hempty⟩ := renderItems_of_writes h
  have hpadded : List.Forall₂ (fun v line => Padded Value v (newline (depth + 1) ++ line)) vs
      lines := hvalues.imp fun v line hv => padded_of_spaces (spaces_newline (depth + 1)) hv
  obtain ⟨t, hbracketed, hclosed⟩ := closed_bracketed '[' ']'
    (fun _ _ hv => hv.append (spaces_newline depth)) hpadded
  refine ⟨bracketed '[' ']' depth lines, ?_, .list hlaid, hbracketed ▸ .list hclosed⟩
  rw [render, hrender, hempty, draft_bracketed]

theorem renderFields_of_writes {depth : Nat} {fields : List (String × Json)}
    {vs : List (String × Data)}
    (h : List.Forall₂ (fun f v => f.1 = v.1 ∧ Writes depth f.2 v.2) fields vs) :
    ∃ lines, renderFields depth fields =
        ⟨[','].intercalate (lines.map (newline depth ++ ·)), true⟩ ∧
      LaidFields depth vs lines ∧
      List.Forall₂ (fun v line => Member Value v (newline depth ++ line)) vs lines ∧
      fields.isEmpty = lines.isEmpty := by
  induction h with
  | nil => exact ⟨[], rfl, .nil depth, .nil, rfl⟩
  | @cons f v fields vs h hs ih =>
    obtain ⟨name, json⟩ := f
    obtain ⟨name', v⟩ := v
    obtain ⟨rfl, t, hrender, hlaid, hvalue⟩ := h
    obtain ⟨lines, hrenders, hlaids, hvalues, hempty⟩ := ih
    have hmember : Member Value (name, v) (newline depth ++ (quote name ++ [':', ' '] ++ t)) := by
      have hspace : Spaces [' '] := by simp [Spaces, isSpace]
      have h := Member.intro (padded_of_spaces (spaces_newline depth) (quoted_quote name))
        (padded_of_spaces hspace hvalue)
      simpa using h
    refine ⟨(quote name ++ [':', ' '] ++ t) :: lines, ?_, .cons hlaid hlaids,
      .cons hmember hvalues, rfl⟩
    rw [renderFields, hrender, hrenders, hempty, draft_append, draft_append, draft_append,
      List.map_cons, ← append_comma_intercalate, List.isEmpty_map]
    simp

theorem writes_object {depth : Nat} {fields : List (String × Json)} {vs : List (String × Data)}
    (h : List.Forall₂ (fun f v => f.1 = v.1 ∧ Writes (depth + 1) f.2 v.2) fields vs) :
    Writes depth (.object fields) (.object vs) := by
  obtain ⟨lines, hrender, hlaid, hvalues, hempty⟩ := renderFields_of_writes h
  obtain ⟨t, hbracketed, hclosed⟩ := closed_bracketed '\x7b' '\x7d'
    (fun _ _ hv => hv.append (spaces_newline depth)) hvalues
  refine ⟨bracketed '\x7b' '\x7d' depth lines, ?_, .object hlaid, hbracketed ▸ .object hclosed⟩
  rw [render, hrender, hempty, draft_bracketed]

/-! ## Where a text breaks off -/

@[simp] theorem isWhole_append (a b : Draft) : (a ++ b).isWhole = (a.isWhole && b.isWhole) := by
  rw [Draft.append_def]
  cases ha : a.isWhole <;> simp [ha]

theorem isWhole_renderItems (depth : Nat) (items : List Json) :
    (renderItems depth items).isWhole = items.all fun item => (item.render depth).isWhole := by
  induction items with
  | nil => rfl
  | cons item items ih => simp [renderItems, ih]

theorem isWhole_renderFields (depth : Nat) (fields : List (String × Json)) :
    (renderFields depth fields).isWhole = fields.all fun f => (f.2.render depth).isWhole := by
  induction fields with
  | nil => rfl
  | cons f fields ih => simp [renderFields, ih]

/-- A list is written whole if its items are. -/
@[simp] theorem isWhole_render_list (depth : Nat) (items : List Json) :
    ((list items).render depth).isWhole =
      items.all fun item => (item.render (depth + 1)).isWhole := by
  cases items with
  | nil => rfl
  | cons item items => simp [render, isWhole_renderItems]

@[simp] theorem isWhole_render_object (depth : Nat) (fields : List (String × Json)) :
    ((object fields).render depth).isWhole =
      fields.all fun f => (f.2.render (depth + 1)).isWhole := by
  cases fields with
  | nil => rfl
  | cons f fields => simp [render, isWhole_renderFields]

@[simp] theorem isWhole_render_text (depth : Nat) (s : String) :
    ((text s).render depth).isWhole = true := rfl

@[simp] theorem isWhole_render_number (depth n : Nat) :
    ((number n).render depth).isWhole = true := rfl

end Json

end InkLint
