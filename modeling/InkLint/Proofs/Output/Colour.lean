import InkLint.Proofs.Output.Console
import InkLint.Proofs.Text.Lossy

/-!
# Colour is decoration

A coloured report holds colour codes, and without them it should be the report that has no colours.
That is not plain to see, since paths and pieces of advice may hold codes of their own, whole ones
and broken ones, and a code that was put in could complete a broken one or tear a whole one apart.
It never does: a code begins with an escape character and holds no other, so whatever begins with an
escape character is read on its own (`strip_append`), and so is every line, as no code goes across a
line end. `colour_decorates` says this of whatever is done with a reporter.
-/

namespace InkLint

namespace Color

/-! ## Removing colour codes -/

/-- A decimal digit. -/
def isDigit (b : UInt8) : Bool :=
  0x30 ≤ b && b ≤ 0x39

/-- What follows a colour code that stands in front: an escape character, a bracket, one digit or
more, and an `m`. -/
def afterCode? : Bytes → Option Bytes
  | escape :: bracket :: rest =>
    if escape = 0x1b ∧ bracket = 0x5b ∧ rest.takeWhile isDigit ≠ [] then
      match rest.dropWhile isDigit with
      | final :: after => if final = 0x6d then some after else none
      | [] => none
    else none
  | _ => none

/-- The bytes are a colour code. -/
def IsCode (code : Bytes) : Prop :=
  ∃ digits, digits ≠ [] ∧ (∀ d ∈ digits, isDigit d = true) ∧
    code = 0x1b :: 0x5b :: (digits ++ [0x6d])

theorem afterCode?_eq_some_iff {bytes after : Bytes} :
    afterCode? bytes = some after ↔ ∃ code, IsCode code ∧ bytes = code ++ after := by
  constructor
  · intro h
    match bytes, h with
    | escape :: bracket :: rest, h =>
      simp only [afterCode?] at h
      split at h
      · rename_i hfront
        obtain ⟨rfl, rfl, hdigits⟩ := hfront
        cases hrest : rest.dropWhile isDigit with
        | nil => simp [hrest] at h
        | cons final after' =>
          simp only [hrest, Option.ite_none_right_eq_some, Option.some.injEq] at h
          obtain ⟨rfl, rfl⟩ := h
          have hall : ∀ d ∈ rest.takeWhile isDigit, isDigit d = true :=
            fun d hd => List.mem_takeWhile_imp hd
          refine ⟨_, ⟨rest.takeWhile isDigit, hdigits, hall, rfl⟩, ?_⟩
          have hsplit := List.takeWhile_append_dropWhile (p := isDigit) (l := rest)
          rw [hrest] at hsplit
          simp [hsplit]
      · cases h
  · rintro ⟨_, ⟨digits, hne, hdigits, rfl⟩, rfl⟩
    have hm : isDigit 0x6d = false := by decide
    have htake : (digits ++ 0x6d :: after).takeWhile isDigit = digits := by
      rw [List.takeWhile_append_of_pos hdigits, List.takeWhile_cons_of_neg (by simp [hm]),
        List.append_nil]
    have hdrop : (digits ++ 0x6d :: after).dropWhile isDigit = 0x6d :: after := by
      rw [List.dropWhile_append_of_pos hdigits, List.dropWhile_cons_of_neg (by simp [hm])]
    simp [afterCode?, htake, hdrop, hne]

theorem length_of_afterCode? {bytes after : Bytes} (h : afterCode? bytes = some after) :
    after.length < bytes.length := by
  obtain ⟨_, ⟨digits, -, -, rfl⟩, rfl⟩ := afterCode?_eq_some_iff.1 h
  simp
  omega

/-- The bytes without their colour codes, which are removed in one pass from left to right. -/
def strip : Bytes → Bytes
  | [] => []
  | b :: rest =>
    match _h : afterCode? (b :: rest) with
    | some after => strip after
    | none => b :: strip rest
termination_by bytes => bytes.length
decreasing_by
  · exact length_of_afterCode? _h
  · simp

@[simp] theorem strip_nil : strip [] = [] := by
  rw [strip]

theorem strip_cons (b : UInt8) (rest : Bytes) (h : afterCode? (b :: rest) = none) :
    strip (b :: rest) = b :: strip rest := by
  rw [strip]
  split
  · rename_i after hafter
    rw [h] at hafter
    cases hafter
  · rfl

theorem strip_code {code : Bytes} (hcode : IsCode code) (rest : Bytes) :
    strip (code ++ rest) = strip rest := by
  have hafter := afterCode?_eq_some_iff.2 ⟨code, hcode, rfl (a := code ++ rest)⟩
  cases hbytes : code ++ rest with
  | nil => simp [hbytes, afterCode?] at hafter
  | cons b bytes =>
    rw [hbytes] at hafter
    rw [strip]
    split
    · rename_i after h
      rw [hafter] at h
      cases h
      rfl
    · rename_i h
      rw [hafter] at h
      cases h

/-- The byte may stand in a colour code behind its first byte. -/
def Continues (b : UInt8) : Prop :=
  b = 0x5b ∨ isDigit b = true ∨ b = 0x6d

/-- The bytes do not go on with a colour code that stands before them. -/
def StartsAnew (bytes : Bytes) : Prop :=
  ∀ b ∈ bytes.head?, ¬Continues b

theorem afterCode?_append {b : UInt8} {bytes rest : Bytes} (hrest : StartsAnew rest)
    (h : afterCode? (b :: bytes) = none) : afterCode? (b :: bytes ++ rest) = none := by
  rw [Option.eq_none_iff_forall_not_mem]
  intro after hafter
  obtain ⟨code, hcode, heq⟩ := afterCode?_eq_some_iff.1 hafter
  rcases List.append_eq_append_iff.1 heq with ⟨more, hmore, hrest'⟩ | ⟨after', hbytes, -⟩
  · cases more with
    | nil =>
      rw [List.append_nil] at hmore
      have hsome := afterCode?_eq_some_iff.2 ⟨code, hcode, (List.append_nil code).symm⟩
      rw [hmore, h] at hsome
      cases hsome
    | cons c more =>
      -- the code would end in the rest, and each byte but its first continues it
      refine hrest c (by simp [hrest']) ?_
      obtain ⟨digits, -, hdigits, rfl⟩ := hcode
      have hc : c ∈ 0x5b :: (digits ++ [0x6d]) := by
        rw [List.cons_append, List.cons.injEq] at hmore
        simp [hmore.2]
      simp only [List.mem_cons, List.mem_append, List.not_mem_nil, or_false] at hc
      exact hc.imp_right (Or.imp_left (hdigits c))
  · have hsome := afterCode?_eq_some_iff.2 ⟨code, hcode, hbytes⟩
    rw [h] at hsome
    cases hsome

theorem strip_append (bytes : Bytes) {rest : Bytes} (hrest : StartsAnew rest) :
    strip (bytes ++ rest) = strip bytes ++ strip rest := by
  fun_induction strip bytes with
  | case1 => rfl
  | case2 b bytes after hafter ih =>
    obtain ⟨code, hcode, heq⟩ := afterCode?_eq_some_iff.1 hafter
    rw [heq, List.append_assoc, strip_code hcode, ih]
  | case3 b bytes hnone ih =>
    have hnone' := afterCode?_append hrest hnone
    rw [List.cons_append] at hnone' ⊢
    rw [strip_cons _ _ hnone', ih, List.cons_append]

/-- Without an escape character there is nothing to remove. -/
theorem strip_of_not_mem {bytes : Bytes} (h : 0x1b ∉ bytes) : strip bytes = bytes := by
  induction bytes with
  | nil => exact strip_nil
  | cons b bytes ih =>
    rw [List.mem_cons, not_or] at h
    rw [strip_cons, ih h.2]
    rw [Option.eq_none_iff_forall_not_mem]
    intro after hafter
    obtain ⟨_, ⟨digits, -, -, rfl⟩, heq⟩ := afterCode?_eq_some_iff.1 hafter
    exact h.1 (List.cons.inj heq).1.symm

/-- No code goes across a line end. -/
theorem strip_line (bytes rest : Bytes) :
    strip (bytes ++ 0x0a :: rest) = strip bytes ++ 0x0a :: strip rest := by
  have hanew : StartsAnew (0x0a :: rest) := by
    simp [StartsAnew, Continues, isDigit]
  rw [strip_append bytes hanew, strip_cons]
  cases rest <;> simp [afterCode?]

/-! ## Painted texts -/

theorem isCode_start (c : Color) : IsCode (Utf8.encode c.start) := by
  refine ⟨Utf8.encode c.code, ?_, ?_, ?_⟩
  · cases c <;> exact List.cons_ne_nil _ _
  · cases c <;> decide +kernel
  · cases c <;> rfl

theorem isCode_reset : IsCode (Utf8.encode reset) :=
  ⟨[0x30], List.cons_ne_nil _ _, by simp [isDigit], rfl⟩

/-- A code is read on its own. -/
theorem IsCode.startsAnew {code : Bytes} (h : IsCode code) (rest : Bytes) :
    StartsAnew (code ++ rest) := by
  obtain ⟨digits, -, -, rfl⟩ := h
  simp [StartsAnew, Continues, isDigit]

/-- A code makes no difference to what stands before it and after it. -/
theorem strip_around {code : Bytes} (h : IsCode code) (before after : Bytes) :
    strip (before ++ (code ++ after)) = strip before ++ strip after := by
  rw [strip_append before (h.startsAnew after), strip_code h]

-- A code inside a torn one is removed, and the two ends are not read again as a code.
example : strip [0x1b, 0x5b, 0x33, 0x1b, 0x5b, 0x30, 0x6d, 0x34, 0x6d] =
    [0x1b, 0x5b, 0x33, 0x34, 0x6d] := by
  cbv

/-- Starting a colour again makes no difference, whatever stands before the text. -/
theorem strip_restart (c : Color) (before : Bytes) (text : List Char) :
    strip (before ++ Utf8.encode (c.restart text)) = strip (before ++ Utf8.encode text) := by
  fun_induction c.restart text generalizing before with
  | case1 rest ih =>
    have hreset : Utf8.encode ('\x1b' :: '[' :: '0' :: 'm' :: rest) =
        Utf8.encode reset ++ Utf8.encode rest := by
      rw [← Utf8.encode_append]
      rfl
    have hrest : strip (Utf8.encode (c.restart rest)) = strip (Utf8.encode rest) := ih []
    rw [hreset, strip_around isCode_reset, Utf8.encode_append, Utf8.encode_append,
      List.append_assoc, strip_around isCode_reset, strip_code (isCode_start c), hrest]
  | case2 ch rest _ ih =>
    -- what is kept joins what stands before, since it may be part of a code
    have hkept (text : List Char) : before ++ Utf8.encode (ch :: text) =
        before ++ Utf8.encode [ch] ++ Utf8.encode text := by
      rw [List.append_assoc, ← Utf8.encode_append, List.singleton_append]
    rw [hkept (c.restart rest), hkept rest, ih]
  | case3 => rfl

theorem strip_paint (c : Color) (text : List Char) :
    strip (Utf8.encode (c.paint text)) = strip (Utf8.encode text) := by
  have hreset := strip_around isCode_reset (Utf8.encode (c.restart text)) []
  rw [List.append_nil, strip_nil, List.append_nil] at hreset
  rw [paint, Utf8.encode_append, Utf8.encode_append, List.append_assoc, strip_code (isCode_start c),
    hreset]
  exact strip_restart c [] text

end Color

namespace Utf8

/-- An escape character in a text is an escape character among its bytes. -/
theorem escape_mem_decodeLossy_iff {bytes : Bytes} :
    '\x1b' ∈ decodeLossy bytes ↔ 0x1b ∈ bytes := by
  have hinfix : ['\x1b'] <:+: decodeLossy bytes ↔ [0x1b] <:+: bytes :=
    infix_decodeLossy_iff (by decide)
  rwa [List.singleton_infix_iff, List.singleton_infix_iff] at hinfix

theorem escape_mem_encode_iff {text : List Char} : 0x1b ∈ encode text ↔ '\x1b' ∈ text := by
  rw [← escape_mem_decodeLossy_iff, decodeLossy_encode]

end Utf8

namespace Console

open Color (strip strip_line strip_nil strip_of_not_mem strip_paint)

variable {sink : Sink}

/-! ## Lines -/

theorem strip_tint (color : Color) (text : List Char) :
    strip (Utf8.encode (tint true color text)) = strip (Utf8.encode (tint false color text)) :=
  strip_paint color text

theorem encode_line (text rest : List Char) :
    Utf8.encode (text ++ '\n' :: rest) = Utf8.encode text ++ 0x0a :: Utf8.encode rest := by
  rw [Utf8.encode_append]
  rfl

theorem encode_blank (text : List Char) :
    Utf8.encode ('\n' :: text) = [] ++ 0x0a :: Utf8.encode text :=
  rfl

theorem strip_adviceLine (advice : String) :
    strip (Utf8.encode (adviceLine true advice)) =
      strip (Utf8.encode (adviceLine false advice)) := by
  simp only [adviceLine, encode_line, strip_line, strip_tint]

theorem strip_header (r : FileReport) :
    strip (Utf8.encode (header true r)) = strip (Utf8.encode (header false r)) := by
  simp only [header, List.cons_append, encode_blank, encode_line, strip_line, strip_tint]

/-- Every line that is written ends in a line end. -/
theorem exists_of_mem_lines {colored : Bool} {call : Call} {line : List Char}
    (h : line ∈ lines colored call) : ∃ body, line = body ++ ['\n'] := by
  cases call with
  | begin target => exact ⟨_, List.mem_singleton.1 h⟩
  | finish summary => exact ⟨_, List.mem_singleton.1 h⟩
  | file report =>
    simp only [lines] at h
    split at h
    · rcases List.mem_cons.1 h with rfl | h
      · exact ⟨_, rfl⟩
      · obtain ⟨advice, -, rfl⟩ := List.mem_map.1 h
        exact ⟨_, rfl⟩
    · cases h

/-- Line by line a coloured report is the report without colours. -/
theorem strip_lines (call : Call) :
    (lines true call).map (fun line => strip (Utf8.encode line)) =
      (lines false call).map (fun line => strip (Utf8.encode line)) := by
  cases call with
  | begin target => simp only [lines, text, List.map_cons, encode_line, strip_line, strip_tint]
  | finish summary =>
    simp only [lines, text, List.cons_append, List.map_cons, encode_blank, encode_line, strip_line,
      strip_tint]
  | file report =>
    cases hflag : report.isFlagged with
    | false => simp [lines, hflag]
    | true =>
      simp only [lines, hflag, if_true, List.map_cons, List.map_map, strip_header]
      congr 1
      exact List.map_congr_left fun advice _ => strip_adviceLine advice

theorem strip_flatten {texts : List (List Char)}
    (h : ∀ line ∈ texts, ∃ body, line = body ++ ['\n']) :
    strip (Utf8.encode texts.flatten) =
      (texts.map fun line => strip (Utf8.encode line)).flatten := by
  induction texts with
  | nil => exact strip_nil
  | cons line texts ih =>
    rw [List.forall_mem_cons] at h
    obtain ⟨⟨body, rfl⟩, hrest⟩ := h
    rw [List.flatten_cons, List.append_assoc, List.singleton_append, encode_line, strip_line,
      ih hrest, List.map_cons, List.flatten_cons, encode_line, strip_line]
    simp

/-- What is written for some calls is the same with and without colours, but for the codes. -/
theorem strip_calls (calls : List Call) :
    strip (Utf8.encode (calls.flatMap (text true))) =
      strip (Utf8.encode (calls.flatMap (text false))) := by
  have hlines (colored : Bool) : strip (Utf8.encode (calls.flatMap (text colored))) =
      (calls.flatMap fun call =>
        (lines colored call).map fun line => strip (Utf8.encode line)).flatten := by
    have htexts : calls.flatMap (text colored) = (calls.flatMap (lines colored)).flatten := by
      rw [List.flatten_eq_flatMap, List.flatMap_assoc]
      refine List.flatMap_congr fun call _ => ?_
      rw [← List.flatten_eq_flatMap, flatten_lines]
    rw [htexts, strip_flatten, List.map_flatMap]
    intro line hline
    obtain ⟨call, -, hcall⟩ := List.mem_flatMap.1 hline
    exact exists_of_mem_lines hcall
  rw [hlines, hlines]
  exact congrArg List.flatten (List.flatMap_congr fun call _ => strip_lines call)

/-! ## Whatever is done with a reporter -/

/-- On a sink without a limit a call leaves its text, even if flushing fails. -/
theorem handle_snd (colored : Bool) (call : Call) (h : sink.limit = none) :
    ((reporter colored).handle call sink).2 =
      { sink with content := sink.content ++ Utf8.encode (text colored call) } := by
  simp only [reporter, writeAll_lines, Sink.write_unlimited h]
  split
  · split <;> rfl
  · rfl

/-- Only the last call of a report flushes. -/
theorem failsLast (colored : Bool) : (reporter colored).FailsLast (·.limit = none) where
  keeps call sink h := by
    rw [handle_snd colored call h]
    exact h
  ok call sink h hcall := by
    cases call with
    | begin target => simp [reporter, writeAll_lines, Sink.write_unlimited h, flushes]
    | file report => simp [reporter, writeAll_lines, Sink.write_unlimited h, flushes]
    | finish summary => exact absurd rfl (hcall summary)

theorem hear_unlimited (colored : Bool) (calls : List Call) (h : sink.limit = none) :
    (reporter colored).hear calls sink =
      { sink with content := sink.content ++ Utf8.encode (calls.flatMap (text colored)) } := by
  induction calls generalizing sink with
  | nil => simp [Reporter.hear]
  | cons call calls ih =>
    have hrest := @ih { sink with content := sink.content ++ Utf8.encode (text colored call) } h
    rw [Reporter.hear, List.foldl_cons, ← Reporter.hear, handle_snd colored call h, hrest]
    simp

theorem escape_not_mem_text {call : Call}
    (h : ∀ report, call = .file report →
      0x1b ∉ report.path ∧ ∀ advice ∈ report.advisories, '\x1b' ∉ advice.toList) :
    '\x1b' ∉ text false call := by
  cases call with
  | begin target =>
    show '\x1b' ∉ startBanner.toList ++ ['\n']
    decide
  | finish summary =>
    show '\x1b' ∉ '\n' :: doneBanner.toList ++ ['\n']
    decide
  | file report =>
    obtain ⟨hpath, hadvice⟩ := h report rfl
    rw [← Utf8.escape_mem_decodeLossy_iff] at hpath
    simp only [text, block]
    split
    · simpa [tint, adviceLine, Path.display, hpath] using hadvice
    · exact List.not_mem_nil

end Console

/-- **Colour is decoration.** Whatever is done with a console reporter, and whatever paths and
advice it is told of, the coloured report without its colour codes is the report without colours,
less the codes that paths and advice bring along. If no path and no advice holds an escape character,
it is just the report without colours. -/
theorem colour_decorates (flushable : Bool) (uses : List Use) :
    Color.strip ((Console.reporter true).session uses { flushable := flushable }).content =
      Color.strip ((Console.reporter false).session uses { flushable := flushable }).content ∧
    ((∀ u ∈ uses, ∀ report, .file report ∈ u.calls →
        0x1b ∉ report.path ∧ ∀ advice ∈ report.advisories, '\x1b' ∉ advice.toList) →
      Color.strip ((Console.reporter true).session uses { flushable := flushable }).content =
        ((Console.reporter false).session uses { flushable := flushable }).content) := by
  have hsession (colored : Bool) :
      ((Console.reporter colored).session uses { flushable := flushable }).content =
        Utf8.encode ((uses.flatMap Use.calls).flatMap (Console.text colored)) := by
    rw [(Console.failsLast colored).session uses rfl, Console.hear_unlimited colored _ rfl,
      List.nil_append]
  rw [hsession, hsession, Console.strip_calls]
  refine ⟨rfl, fun hplain => Color.strip_of_not_mem ?_⟩
  rw [Utf8.escape_mem_encode_iff]
  intro hmem
  obtain ⟨call, hcall, hmem⟩ := List.mem_flatMap.1 hmem
  obtain ⟨u, hu, hcall⟩ := List.mem_flatMap.1 hcall
  exact Console.escape_not_mem_text (fun report heq => hplain u hu report (heq ▸ hcall)) hmem

/-- A report on one file. -/
def plainUses : List Use :=
  [.call (.begin "d"), .call (.file ⟨"a.js", .script, ["first"]⟩), .call (.finish {})]

/-- A report without an escape character, which is not the same with and without colours. -/
theorem colour_decorates_plain :
    (∀ u ∈ plainUses, ∀ report, .file report ∈ u.calls →
      0x1b ∉ report.path ∧ ∀ advice ∈ report.advisories, '\x1b' ∉ advice.toList) ∧
    ((Console.reporter true).session plainUses {}).content ≠
      ((Console.reporter false).session plainUses {}).content ∧
    Color.strip ((Console.reporter true).session plainUses {}).content =
      ((Console.reporter false).session plainUses {}).content := by
  have hplain : ∀ u ∈ plainUses, ∀ report, .file report ∈ u.calls →
      0x1b ∉ report.path ∧ ∀ advice ∈ report.advisories, '\x1b' ∉ advice.toList := by
    have hpath : (0x1b : UInt8) ∉ Bytes.ofString "a.js" := by decide
    simp [plainUses, Use.calls, hpath]
  exact ⟨hplain, by decide +kernel, (colour_decorates true plainUses).2 hplain⟩

end InkLint
