import InkLint.Output.Console
import InkLint.Proofs.Output.Sink
import InkLint.Proofs.Scan.Calls
import InkLint.Proofs.Text.Utf8

/-!
# The text of a console report

`Console.complete` is what a complete report says, word for word, and `Console.opening` what it says
up to its end: the banner, and an entry for each file with advice.

A console report is written line by line, which comes to the same as writing the text of each call
in one go (`writeAll_lines`). On a sink that takes everything, it is the texts of its calls one after
another (`play_unlimited`). The calls of a scan make up a complete report, or its opening if the scan
does not come to its end (`flatMap_text_scanCalls`). A sink with a limit gets the same text up to
the limit (`play_cut`).
-/

namespace InkLint

namespace Console

/-! ## What a report is to say -/

/-- What follows the code of a colour: the text, with the code again after each reset in it, and a
reset. -/
def resumed (code : String) : List Char → List Char
  | '\x1b' :: '[' :: '0' :: 'm' :: rest =>
    ("\x1b[0m\x1b[" ++ code ++ "m").toList ++ resumed code rest
  | c :: rest => c :: resumed code rest
  | [] => "\x1b[0m".toList

/-- A text, in the colour with this code if there are colours. -/
def shade (colored : Bool) (code text : String) : List Char :=
  if colored then ("\x1b[" ++ code ++ "m").toList ++ resumed code text.toList else text.toList

theorem shade_false (code text : String) : shade false code text = text.toList := rfl

/-- What is said about a file. -/
def entry (colored : Bool) (r : FileReport) : List Char :=
  '\n' :: shade colored "34" ("File: " ++ r.path.display) ++
    '\n' :: r.advisories.flatMap fun advice => shade colored "33" ("• " ++ advice) ++ ['\n']

/-- A report up to its end: the first banner, and what is said about each file with advice. -/
def opening (colored : Bool) (reports : List FileReport) : List Char :=
  shade colored "35" "Kindlefy - scanning for Kindle WebBrowser quirks..." ++
    '\n' :: (reports.filter (!·.advisories.isEmpty)).flatMap (entry colored)

/-- A complete report. -/
def complete (colored : Bool) (reports : List FileReport) : List Char :=
  opening colored reports ++ '\n' :: shade colored "32" "Scan complete." ++ ['\n']

/-- Files without advice leave no trace in a complete report. -/
theorem complete_congr (colored : Bool) {reports others : List FileReport}
    (h : reports.filter (·.isFlagged) = others.filter (·.isFlagged)) :
    complete colored reports = complete colored others := by
  change reports.filter (!·.advisories.isEmpty) = others.filter (!·.advisories.isEmpty) at h
  simp only [complete, opening, h]

/-! ## What is written -/

theorem resumed_eq {color : Color} {code : String} (h : code.toList = color.code)
    (text : List Char) : resumed code text = color.restart text ++ Color.reset := by
  fun_induction Color.restart color text with
  | case1 rest ih => simp [resumed, ih, Color.start, h, Color.reset]
  | case2 c rest hreset ih =>
    rw [resumed]
    · rw [ih]
      rfl
    · exact hreset
  | case3 => rfl

theorem tint_eq_shade (colored : Bool) (color : Color) (code : String)
    (h : code.toList = color.code) (text : String) :
    tint colored color text.toList = shade colored code text := by
  simp [tint, shade, Color.paint, Color.start, resumed_eq h, h]

theorem text_begin (colored : Bool) (target : Path) :
    text colored (.begin target) =
      shade colored "35" "Kindlefy - scanning for Kindle WebBrowser quirks..." ++ ['\n'] := by
  rw [text, tint_eq_shade colored .magenta "35" rfl]
  rfl

theorem text_finish (colored : Bool) (summary : Summary) :
    text colored (.finish summary) = '\n' :: shade colored "32" "Scan complete." ++ ['\n'] := by
  rw [text, tint_eq_shade colored .green "32" rfl]
  rfl

theorem adviceLine_eq (colored : Bool) (advice : String) :
    adviceLine colored advice = shade colored "33" ("• " ++ advice) ++ ['\n'] := by
  rw [← tint_eq_shade colored .yellow "33" rfl, String.toList_append]
  rfl

theorem block_eq_entry (colored : Bool) {r : FileReport} (h : r.isFlagged = true) :
    block colored r = entry colored r := by
  have hline : adviceLine colored = fun advice => shade colored "33" ("• " ++ advice) ++ ['\n'] :=
    funext (adviceLine_eq colored)
  rw [block, if_pos h, hline, ← String.toList_append, tint_eq_shade colored .blue "34" rfl]
  rfl

variable {sink : Sink}

theorem flatten_lines (colored : Bool) (call : Call) :
    (lines colored call).flatten = text colored call := by
  cases call with
  | begin target => simp [lines]
  | finish summary => simp [lines]
  | file report =>
    by_cases hflag : report.isFlagged = true
    · simp [lines, text, block, header, hflag, List.flatMap_def]
    · simp [lines, text, block, hflag]

/-- Line by line or in one go, the same is written. -/
theorem writeAll_lines (colored : Bool) (call : Call) (sink : Sink) :
    sink.writeAll ((lines colored call).map Utf8.encode) =
      sink.write (Utf8.encode (text colored call)) := by
  rw [Sink.writeAll_eq_write, ← flatten_lines, Utf8.encode_flatten]

theorem handle_unlimited (colored : Bool) (call : Call) (hlimit : sink.limit = none)
    (hflush : sink.flushable = true) :
    (reporter colored).handle call sink =
      (.ok (), { sink with content := sink.content ++ Utf8.encode (text colored call) }) := by
  simp [reporter, writeAll_lines, Sink.write_unlimited hlimit, Sink.flush, hflush]

theorem play_unlimited (colored : Bool) (calls : List Call) (hlimit : sink.limit = none)
    (hflush : sink.flushable = true) :
    (reporter colored).play calls sink =
      (.ok (), { sink with
        content := sink.content ++ Utf8.encode (calls.flatMap (text colored)) }) := by
  induction calls generalizing sink with
  | nil => simp [Reporter.play]
  | cons call calls ih =>
    have hrest := @ih { sink with
      content := sink.content ++ Utf8.encode (text colored call) } hlimit hflush
    rw [Reporter.play, handle_unlimited colored call hlimit hflush]
    simp only [hrest, List.flatMap_cons, Utf8.encode_append, List.append_assoc]

/-- Files without advice leave no trace. -/
theorem flatMap_text_file (colored : Bool) (reports : List FileReport) :
    (reports.map Call.file).flatMap (text colored) =
      (reports.filter (!·.advisories.isEmpty)).flatMap (entry colored) := by
  change _ = (reports.filter (·.isFlagged)).flatMap (entry colored)
  induction reports with
  | nil => rfl
  | cons report reports ih =>
    rw [List.map_cons, List.flatMap_cons, ih]
    cases hflag : report.isFlagged with
    | true =>
      rw [List.filter_cons_of_pos hflag, List.flatMap_cons, text, block_eq_entry colored hflag]
    | false =>
      rw [List.filter_cons_of_neg (by simp [hflag])]
      simp [text, block, hflag]

/-- What is written up to the end of a report. -/
theorem text_opening (colored : Bool) (target : Path) (reports : List FileReport) :
    text colored (.begin target) ++ (reports.map Call.file).flatMap (text colored) =
      opening colored reports := by
  rw [text_begin, flatMap_text_file, opening, List.append_assoc]
  rfl

/-- What is written for the calls of a scan. -/
theorem flatMap_text_scanCalls (colored : Bool) (v : Volume) (target : Path) (files : List Path) :
    (scanCalls v target files).flatMap (text colored) =
      match (lintAll v files).2 with
      | .ok () => complete colored (lintAll v files).1
      | .error _ => opening colored (lintAll v files).1 := by
  rw [scanCalls, List.cons_append, List.flatMap_cons, List.flatMap_append, ← List.append_assoc,
    text_opening]
  cases (lintAll v files).2 with
  | ok _ => simp [complete, text_finish]
  | error _ => simp

/-- A scan that can be written down ends as its files decide. -/
theorem scan_unlimited {v : Volume} {target : Path} {files : List Path} (colored : Bool)
    (hlimit : sink.limit = none) (hflush : sink.flushable = true)
    (hfiles : (resolve v target).result = .ok files) :
    outcome (scan v (reporter colored) target sink) =
      ((lintAll v files).2.map fun _ => scanSummary v files,
        { sink with content := sink.content ++
            Utf8.encode ((scanCalls v target files).flatMap (text colored)) }) := by
  rw [scan_of_files _ _ hfiles, play_unlimited colored _ hlimit hflush]
  rfl

theorem result_unlimited {v : Volume} {target : Path} {files : List Path} (colored : Bool)
    (hlimit : sink.limit = none) (hflush : sink.flushable = true)
    (hfiles : (resolve v target).result = .ok files) :
    (scan v (reporter colored) target sink).1.result =
      (lintAll v files).2.map fun _ => scanSummary v files :=
  congrArg Prod.fst (scan_unlimited colored hlimit hflush hfiles)

/-! ## Sinks with a limit -/

variable {limit : Nat}

/-- A call fails if it writes something and what is written in all exceeds the limit. -/
theorem handle_cut (colored : Bool) (call : Call) (hlimit : sink.limit = none)
    (hflush : sink.flushable = true) :
    (reporter colored).handle call (sink.cut limit) =
      (if ((reporter colored).handle call sink).2.content = sink.content ∨
          ((reporter colored).handle call sink).2.content.length ≤ limit then .ok ()
        else .error (.output .outputFull),
        ((reporter colored).handle call sink).2.cut limit) := by
  have hwrite := Sink.write_cut limit hlimit (Utf8.encode (text colored call))
  have hflush' : ({ sink with
      content := sink.content ++ Utf8.encode (text colored call) }.cut limit).flush = .ok () := by
    simp [Sink.cut, Sink.flush, hflush]
  rw [Sink.write_unlimited hlimit] at hwrite
  rw [handle_unlimited colored call hlimit hflush]
  simp only [reporter, writeAll_lines, hwrite, List.append_right_eq_self]
  by_cases hfits : Utf8.encode (text colored call) = [] ∨
      (sink.content ++ Utf8.encode (text colored call)).length ≤ limit
  · simp only [if_pos hfits, hflush', ite_self]
  · simp only [if_neg hfits]

/-- After a failed call no further bytes are stored, so it makes no difference that the calls after
it are not made. -/
theorem play_cut (colored : Bool) (calls : List Call) (hlimit : sink.limit = none)
    (hflush : sink.flushable = true) :
    ((reporter colored).play calls (sink.cut limit)).2 =
      ((reporter colored).play calls sink).2.cut limit := by
  induction calls generalizing sink with
  | nil => rfl
  | cons call calls ih =>
    rw [Reporter.play, Reporter.play, handle_cut colored call hlimit hflush,
      handle_unlimited colored call hlimit hflush]
    by_cases hfits : sink.content ++ Utf8.encode (text colored call) = sink.content ∨
        (sink.content ++ Utf8.encode (text colored call)).length ≤ limit
    · simp only [if_pos hfits]
      exact ih hlimit hflush
    · have hrest := @play_unlimited { sink with
        content := sink.content ++ Utf8.encode (text colored call) } colored calls hlimit hflush
      have hfull : limit ≤ (sink.content ++ Utf8.encode (text colored call)).length := by
        rw [not_or] at hfits
        omega
      simp only [if_neg hfits, hrest]
      exact (Sink.cut_append_of_le hfull).symm

end Console

end InkLint
