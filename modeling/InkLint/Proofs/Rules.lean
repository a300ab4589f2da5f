import InkLint.Proofs.Scan.Calls
import InkLint.Proofs.Text.Lossy

/-!
# What the rules mean

What a rule looks for is said twice here: on the characters of a text, and on the bytes of a file.
The rules fire on a text exactly if it holds what they ask for (`lintText_exact`). A file is decoded
before it is linted, but that makes no difference: its advice is what a search of its bytes gives,
however badly they are formed (`lintFile_bytes`).
-/

namespace InkLint

open List

/-! ## White space -/

/-- The code points with the property White_Space, as ranges. -/
def IsWhiteSpace (c : Char) : Prop :=
  (0x09 ≤ c.toNat ∧ c.toNat ≤ 0x0d) ∨ c.toNat = 0x20 ∨ c.toNat = 0x85 ∨ c.toNat = 0xa0 ∨
    c.toNat = 0x1680 ∨ (0x2000 ≤ c.toNat ∧ c.toNat ≤ 0x200a) ∨ c.toNat = 0x2028 ∨
    c.toNat = 0x2029 ∨ c.toNat = 0x202f ∨ c.toNat = 0x205f ∨ c.toNat = 0x3000

instance (c : Char) : Decidable (IsWhiteSpace c) := by
  unfold IsWhiteSpace
  infer_instance

theorem isBlank_eq_true_iff {c : Char} : isBlank c = true ↔ IsWhiteSpace c := by
  rw [isBlank_iff]
  constructor
  · intro h
    fin_cases h <;> decide
  · intro h
    obtain ⟨n, hn, rfl⟩ : ∃ n, n = c.toNat ∧ c = Char.ofNat n :=
      ⟨c.toNat, rfl, (Char.ofNat_toNat c).symm⟩
    rw [IsWhiteSpace, ← hn] at h
    clear hn
    rcases h with ⟨hlow, hhigh⟩ | rfl | rfl | rfl | rfl | ⟨hlow, hhigh⟩ | rfl | rfl | rfl | rfl | rfl
    case inl | inr.inr.inr.inr.inr.inl => interval_cases n <;> decide
    all_goals decide

theorem replacement_not_isWhiteSpace : ¬IsWhiteSpace Utf8.replacement := by
  decide

/-! ## What a rule asks for -/

/-- What a rule asks for, in terms of the words that are there and of the pairs of words that are
there with nothing but white space between them. -/
def Rule.Asks (has : String → Prop) (spaced : String → String → Prop) : Rule → Prop
  | asyncAwait => spaced "async" "function" ∨ has "await"
  | arrowFunctions => has "=>"
  | fetchCalls => has "fetch("
  | mediaElements => has "<video" ∨ has "<audio"
  | viewportMeta => has "viewport" ∧ has "initial-scale"
  | modernLayout => has "flex" ∨ has "grid"
  | cssVariables => has "var(--"

/-- The word stands somewhere in the text. -/
def TextHas (text : List Char) (word : String) : Prop :=
  word.toList <:+: text

/-- The words stand somewhere in the text, with white space and nothing else between them. -/
def TextSpaced (text : List Char) (first second : String) : Prop :=
  ∃ p w s, text = p ++ first.toList ++ w ++ second.toList ++ s ∧ w ≠ [] ∧ ∀ c ∈ w, IsWhiteSpace c

/-- The bytes of the word stand somewhere among the bytes. -/
def BytesHas (bs : Bytes) (word : String) : Prop :=
  Bytes.ofString word <:+: bs

instance (bs : Bytes) (word : String) : Decidable (BytesHas bs word) :=
  inferInstanceAs (Decidable (_ <:+: _))

/-- The bytes of the words stand somewhere among the bytes, with the bytes of white space and nothing
else between them. -/
def BytesSpaced (bs : Bytes) (first second : String) : Prop :=
  ∃ p w s, bs = p ++ Bytes.ofString first ++ Utf8.encode w ++ Bytes.ofString second ++ s ∧
    w ≠ [] ∧ ∀ c ∈ w, IsWhiteSpace c

/-- The words that rules ask for. -/
def Rule.words : List String :=
  ["async", "function", "await", "=>", "fetch(", "<video", "<audio", "viewport", "initial-scale",
   "flex", "grid", "var(--"]

/-- Two accounts of what is there that agree on these words agree on every rule. -/
theorem Rule.asks_congr {has has' : String → Prop} {spaced spaced' : String → String → Prop}
    (hhas : ∀ word ∈ words, has word ↔ has' word)
    (hspaced : ∀ first ∈ words, ∀ second ∈ words, spaced first second ↔ spaced' first second)
    (r : Rule) : r.Asks has spaced ↔ r.Asks has' spaced' := by
  cases r with
  | asyncAwait => exact or_congr (hspaced _ (by decide) _ (by decide)) (hhas _ (by decide))
  | arrowFunctions | fetchCalls | cssVariables => exact hhas _ (by decide)
  | mediaElements | modernLayout => exact or_congr (hhas _ (by decide)) (hhas _ (by decide))
  | viewportMeta => exact and_congr (hhas _ (by decide)) (hhas _ (by decide))

theorem Rule.replacement_not_mem : ∀ word ∈ words, Utf8.replacement ∉ word.toList := by
  decide

/-! ## On a text -/

variable {text : List Char}

theorem occurs_iff_textHas (word : String) :
    occurs word.toList text = true ↔ TextHas text word :=
  occurs_iff

theorem occursSpaced_iff_textSpaced {first second : String}
    (hsecond : ∃ c t, second.toList = c :: t ∧ isBlank c = false) :
    occursSpaced first.toList second.toList text = true ↔ TextSpaced text first second := by
  simp only [occursSpaced_iff hsecond, isBlank_eq_true_iff, TextSpaced]

theorem Rule.fires_iff (r : Rule) (text : List Char) :
    r.fires text = true ↔ r.Asks (TextHas text) (TextSpaced text) := by
  have hfunction : ∃ c t, "function".toList = c :: t ∧ isBlank c = false :=
    ⟨'f', "unction".toList, rfl, rfl⟩
  cases r <;>
    simp only [Rule.fires, Rule.Asks, Bool.or_eq_true, Bool.and_eq_true, occurs_iff_textHas,
      occursSpaced_iff_textSpaced hfunction]

/-! ## Advice -/

/-- What was found is the advice of those rules that are asked for, in the order of the rules and
each once. -/
structure Selects (rules : List Rule) (asked : Rule → Prop) (found : List String) : Prop where
  sublist : found <+ rules.map Rule.advice
  nodup : found.Nodup
  mem_iff : ∀ r ∈ rules, r.advice ∈ found ↔ asked r

theorem Rule.advice_injective : Function.Injective Rule.advice := by
  intro r r' h
  cases r <;> cases r' <;> first | rfl | exact absurd h (by decide)

theorem Rule.nodup_forCategory (c : Category) : (Rule.forCategory c).Nodup := by
  cases c <;> decide

/-- A sublist of a list without repetitions is told by its members. -/
theorem eq_filter_of_sublist {found all : List String} (h : found <+ all) (hall : all.Nodup) :
    all.filter (· ∈ found) = found := by
  induction h with
  | slnil => rfl
  | @cons found all a h ih =>
    obtain ⟨ha, hall⟩ := nodup_cons.1 hall
    have hnot : a ∉ found := fun hmem => ha (h.subset hmem)
    rw [filter_cons_of_neg (by simpa using hnot), ih hall]
  | @cons_cons found all a h ih =>
    obtain ⟨ha, hall⟩ := nodup_cons.1 hall
    have hrest : all.filter (· ∈ a :: found) = all.filter (· ∈ found) := by
      refine filter_congr fun b hb => ?_
      have hne : b ≠ a := fun heq => ha (heq ▸ hb)
      simp [hne]
    rw [filter_cons_of_pos (by simp), hrest, ih hall]

/-- Running the rules one by one selects among their advice, and there is no other way to do so. -/
theorem selects_iff {rules : List Rule} {asked : Rule → Prop} {fires : Rule → Bool}
    {found : List String} (hrules : rules.Nodup) (hfires : ∀ r, fires r = true ↔ asked r) :
    (rules.filter fires).map Rule.advice = found ↔ Selects rules asked found := by
  have hadvice : (rules.map Rule.advice).Nodup := hrules.map Rule.advice_injective
  constructor
  · rintro rfl
    refine ⟨filter_sublist.map _, hadvice.sublist (filter_sublist.map _), fun r hr => ?_⟩
    rw [mem_map_of_injective Rule.advice_injective, mem_filter, hfires]
    exact and_iff_right hr
  · rintro ⟨hsublist, -, hmem⟩
    have hfound := eq_filter_of_sublist hsublist hadvice
    rw [filter_map] at hfound
    rw [← hfound]
    refine congrArg (map Rule.advice) (filter_congr fun r hr => ?_)
    rw [Bool.eq_iff_iff, hfires, ← hmem r hr]
    simp

/-- **What the rules mean.** The advice on a text is made up of the advice of those rules of its
category that find what they ask for, in their fixed order and each at most once; and it is the only
list like that. -/
theorem lintText_exact (c : Category) (text : List Char) (found : List String) :
    (lintText c text).map Rule.advice = found ↔
      Selects
        (match c with
          | .script | .typedScript => [.asyncAwait, .arrowFunctions, .fetchCalls]
          | .markup => [.mediaElements, .viewportMeta]
          | .stylesheet => [.modernLayout, .cssVariables]
          | .unsupported => [])
        (Rule.Asks (TextHas text) (TextSpaced text)) found := by
  have hselects : (lintText c text).map Rule.advice = found ↔ _ :=
    selects_iff (Rule.nodup_forCategory c) (Rule.fires_iff · text)
  cases c <;> exact hselects

/-! ## On the bytes of a file -/

variable {bs : Bytes}

theorem textHas_decodeLossy_iff {word : String} (hword : Utf8.replacement ∉ word.toList) :
    TextHas (Utf8.decodeLossy bs) word ↔ BytesHas bs word :=
  Utf8.infix_decodeLossy_iff hword

theorem textSpaced_decodeLossy_iff {first second : String}
    (hfirst : Utf8.replacement ∉ first.toList) (hsecond : Utf8.replacement ∉ second.toList) :
    TextSpaced (Utf8.decodeLossy bs) first second ↔ BytesSpaced bs first second := by
  -- for each stretch of white space the two words and the stretch are one text to search for
  have hwhole (w : List Char) (hw : ∀ c ∈ w, IsWhiteSpace c) :
      first.toList ++ w ++ second.toList <:+: Utf8.decodeLossy bs ↔
        Utf8.encode (first.toList ++ w ++ second.toList) <:+: bs := by
    refine Utf8.infix_decodeLossy_iff ?_
    simp only [mem_append, not_or]
    exact ⟨⟨hfirst, fun hmem => replacement_not_isWhiteSpace (hw _ hmem)⟩, hsecond⟩
  constructor
  · rintro ⟨p, w, s, h, hne, hw⟩
    obtain ⟨q, t, h⟩ := (hwhole w hw).1 ⟨p, s, by simp [h]⟩
    exact ⟨q, w, t, by simp [← h, Bytes.ofString], hne, hw⟩
  · rintro ⟨p, w, s, h, hne, hw⟩
    obtain ⟨q, t, h⟩ := (hwhole w hw).2 ⟨p, s, by simp [h, Bytes.ofString]⟩
    exact ⟨q, w, t, by simp [← h], hne, hw⟩

theorem Rule.fires_decodeLossy_iff (r : Rule) (bs : Bytes) :
    r.fires (Utf8.decodeLossy bs) = true ↔ r.Asks (BytesHas bs) (BytesSpaced bs) := by
  rw [Rule.fires_iff]
  refine Rule.asks_congr (fun word hword => ?_) (fun first hfirst second hsecond => ?_) r
  · exact textHas_decodeLossy_iff (replacement_not_mem word hword)
  · exact textSpaced_decodeLossy_iff (replacement_not_mem first hfirst)
      (replacement_not_mem second hsecond)

/-- **A file is linted by its bytes.** A path with a supported extension that leads to a file with a
content gets a report, and the advice in it is what a search of the content's bytes gives: decoding
them hides no match and makes none up, whether they are UTF-8 or not. -/
theorem lintFile_bytes (v : Volume) (path : Path) (loc : Loc) (content : Bytes)
    (hpath : path.isSupported = true) (hlocate : v.locate path = .ok loc)
    (hfile : v.node? loc = some (.file (.ok content))) :
    ∃ report, (lintFile v path).result = .ok (some report) ∧ report.path = path ∧
      report.category = .ofPath path ∧
      ∀ found, report.advisories = found ↔
        Selects (Rule.forCategory (.ofPath path))
          (Rule.Asks (BytesHas content) (BytesSpaced content)) found := by
  have hread : v.read path = .ok content := by
    simp [Volume.read, hlocate, hfile, Except.mapError]
  refine ⟨_, lintFile_readable hpath hread, rfl, rfl, fun found => ?_⟩
  exact selects_iff (Rule.nodup_forCategory _) (Rule.fires_decodeLossy_iff · content)

/-- Bytes with an asynchronous function behind a character that breaks off, a no-break space between
its words, and an arrow and an `await` that ill-formed bytes tear apart. -/
def tornBytes : Bytes :=
  [0xe2, 0x80] ++ Bytes.ofString "async" ++ Utf8.encode ['\xa0'] ++ Bytes.ofString "function" ++
    ([0x3d, 0xff, 0x3e, 0x61, 0x77, 0xf0, 0x9f, 0x61, 0x69, 0x74])

/-- The script `a.js` with these bytes. -/
def torn : Volume :=
  { root := .folder [("a.js", .file (.ok tornBytes))]
    limits := .linux }

theorem lintFile_bytes_torn :
    Path.isSupported "a.js" = true ∧
    torn.locate "a.js" = .ok ["a.js"] ∧
    torn.node? ["a.js"] = some (.file (.ok tornBytes)) ∧
    ∃ report, (lintFile torn "a.js").result = .ok (some report) ∧
      report.advisories = [Rule.asyncAwait.advice] := by
  have hpath : Path.isSupported "a.js" = true := by decide
  have hlocate : torn.locate "a.js" = .ok ["a.js"] := by cbv
  have hfile : torn.node? ["a.js"] = some (.file (.ok tornBytes)) := rfl
  obtain ⟨report, hresult, -, -, hfound⟩ := lintFile_bytes torn _ _ _ hpath hlocate hfile
  refine ⟨hpath, hlocate, hfile, report, hresult, (hfound _).2 ⟨?_, ?_, ?_⟩⟩
  · exact singleton_sublist.2 (by decide)
  · exact nodup_singleton _
  · intro r hr
    have hspace : IsWhiteSpace '\xa0' := by decide
    have hspaced : BytesSpaced tornBytes "async" "function" :=
      ⟨[0xe2, 0x80], ['\xa0'], [0x3d, 0xff, 0x3e, 0x61, 0x77, 0xf0, 0x9f, 0x61, 0x69, 0x74], rfl,
        by simp, by simpa using hspace⟩
    have hcategory : Category.ofPath "a.js" = .script := by decide
    rw [mem_singleton, Rule.advice_injective.eq_iff]
    rw [hcategory] at hr
    fin_cases hr
    · simp [Rule.Asks, hspaced]
    · simp [Rule.Asks, show ¬BytesHas tornBytes "=>" by decide]
    · simp [Rule.Asks, show ¬BytesHas tornBytes "fetch(" by decide]

end InkLint
