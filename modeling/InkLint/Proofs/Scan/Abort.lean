import InkLint.Proofs.Output.Console
import InkLint.Proofs.Scan.Log

/-!
# Where a scan breaks off

A scan takes its files one by one and ends at the first that goes wrong. That is a supported file
which cannot be read, for whatever reason, or one whose report the reporter refuses; a file without
a supported extension never goes wrong, since nothing is done with it. What the reporter has heard
by then is a beginning of what it would have heard, cut off at that very file (`first_failure`).

Nothing here depends on where the files come from or how they are read, so the paths are any list
and reading is any function.
-/

namespace InkLint

/-- The report tells what was read at the path. -/
def Access.ReportedAs (read : Access) (path : Path) (report : FileReport) : Prop :=
  ∃ content, read path = .ok content ∧ report = .ofContent path content

variable {σ : Type} {r : Reporter σ} {read : Access} {path : Path} {files rest : List Path}
variable {start mid last : σ} {reports : List FileReport} {calls : List Call} {error : LintError}

/-- The files go well: each supported one can be read, and the reporter takes the reports on them
one after another. -/
structure Reporter.Takes (r : Reporter σ) (read : Access) (files : List Path) (start : σ)
    (reports : List FileReport) (last : σ) : Prop where
  reported : List.Forall₂ read.ReportedAs (files.filter Path.isSupported) reports
  taken : r.play (reports.map .file) start = (.ok (), last)

/-- A file goes wrong, with the calls that are made for it, the error and the state it leaves. -/
inductive Access.Fails (read : Access) (r : Reporter σ) (path : Path) (state : σ) :
    List Call → LintError → σ → Prop
  /-- It is supported and cannot be read. The reporter does not hear of it. -/
  | unread {fault : Fault} :
      path.isSupported = true → read path = .error fault →
      Fails read r path state [] (.read path fault) state
  /-- It is supported and can be read, and the reporter refuses the report on it. -/
  | refused {content : Bytes} {error : LintError} {last : σ} :
      path.isSupported = true → read path = .ok content →
      r.handle (.file (.ofContent path content)) state = (.error error, last) →
      Fails read r path state [.file (.ofContent path content)] error last

/-! ## One file -/

theorem scanFilesWith_skip (h : path.isSupported = false) (summary : Summary) (state : σ) :
    outcome (scanFilesWith read r (path :: rest) summary state) =
      outcome (scanFilesWith read r rest summary state) := by
  unfold Path.isSupported at h
  simp [scanFilesWith, lintFileWith, h, outcome, Logged.after]

theorem scanFilesWith_stop {fault : Fault} (h : path.isSupported = true)
    (hread : read path = .error fault) (summary : Summary) (state : σ) :
    outcome (scanFilesWith read r (path :: rest) summary state) =
      (.error (.read path fault), state) := by
  unfold Path.isSupported at h
  simp [scanFilesWith, lintFileWith, h, hread, outcome]

theorem scanFilesWith_report {content : Bytes} (h : path.isSupported = true)
    (hread : read path = .ok content) (summary : Summary) (state : σ) :
    outcome (scanFilesWith read r (path :: rest) summary state) =
      match r.handle (.file (.ofContent path content)) state with
      | (.error error, state) => (.error error, state)
      | (.ok (), state) =>
        outcome (scanFilesWith read r rest (summary.add (.ofContent path content)) state) := by
  unfold Path.isSupported at h
  simp only [scanFilesWith, lintFileWith, h, hread, if_true, FileReport.ofContent]
  generalize r.handle _ state = handled
  obtain ⟨answer, next⟩ := handled
  cases answer <;> rfl

theorem Access.Fails.scanFilesWith_eq {state : σ} (h : read.Fails r path state calls error last)
    (rest : List Path) (summary : Summary) :
    outcome (scanFilesWith read r (path :: rest) summary state) = (.error error, last) := by
  cases h with
  | unread hpath hread => exact scanFilesWith_stop hpath hread summary _
  | refused hpath hread hhandle => rw [scanFilesWith_report hpath hread, hhandle]

/-! ## The files before it -/

theorem takes_nil (r : Reporter σ) (read : Access) (start : σ) : r.Takes read [] start [] start :=
  ⟨.nil, rfl⟩

theorem takes_skip_iff (h : path.isSupported = false) :
    r.Takes read (path :: rest) start reports last ↔ r.Takes read rest start reports last := by
  have hfilter : (path :: rest).filter Path.isSupported = rest.filter Path.isSupported :=
    List.filter_cons_of_neg (by simp [h])
  constructor
  · rintro ⟨hreported, htaken⟩
    exact ⟨hfilter ▸ hreported, htaken⟩
  · rintro ⟨hreported, htaken⟩
    exact ⟨hfilter ▸ hreported, htaken⟩

theorem takes_report {content : Bytes} (h : path.isSupported = true)
    (hread : read path = .ok content)
    (hhandle : r.handle (.file (.ofContent path content)) start = (.ok (), mid))
    (hrest : r.Takes read rest mid reports last) :
    r.Takes read (path :: rest) start (.ofContent path content :: reports) last := by
  constructor
  · rw [List.filter_cons_of_pos h]
    exact .cons ⟨content, hread, rfl⟩ hrest.reported
  · rw [List.map_cons, Reporter.play, hhandle]
    exact hrest.taken

/-- The files either all go well, or one of them goes wrong after those before it went well. -/
theorem takes_or_fails (read : Access) (r : Reporter σ) (files : List Path) (start : σ) :
    (∃ reports last, r.Takes read files start reports last) ∨
      ∃ before path after reports mid calls error last, files = before ++ path :: after ∧
        r.Takes read before start reports mid ∧ read.Fails r path mid calls error last := by
  induction files generalizing start with
  | nil => exact .inl ⟨[], start, takes_nil r read start⟩
  | cons path rest ih =>
    cases hpath : path.isSupported with
    | false =>
      rcases ih start with ⟨reports, last, htakes⟩ | ⟨before, p, after, reports, mid, calls, error,
        last, rfl, htakes, hfails⟩
      · exact .inl ⟨reports, last, (takes_skip_iff hpath).2 htakes⟩
      · exact .inr ⟨path :: before, p, after, reports, mid, calls, error, last, rfl,
          (takes_skip_iff hpath).2 htakes, hfails⟩
    | true =>
      cases hread : read path with
      | error fault =>
        exact .inr ⟨[], path, rest, [], start, _, _, _, rfl, takes_nil r read start,
          .unread hpath hread⟩
      | ok content =>
        cases hhandle : r.handle (.file (.ofContent path content)) start with
        | mk answer next =>
          cases answer with
          | error error =>
            exact .inr ⟨[], path, rest, [], start, _, _, _, rfl, takes_nil r read start,
              .refused hpath hread hhandle⟩
          | ok _ =>
            rcases ih next with ⟨reports, last, htakes⟩ | ⟨before, p, after, reports, mid, calls,
              error, last, rfl, htakes, hfails⟩
            · exact .inl ⟨_, last, takes_report hpath hread hhandle htakes⟩
            · exact .inr ⟨path :: before, p, after, _, mid, calls, error, last, rfl,
                takes_report hpath hread hhandle htakes, hfails⟩

/-- Files that go well leave the rest to go on from where they led. -/
theorem Reporter.Takes.scanFilesWith_append {before : List Path}
    (h : r.Takes read before start reports mid) (rest : List Path) (summary : Summary) :
    outcome (scanFilesWith read r (before ++ rest) summary start) =
      outcome (scanFilesWith read r rest (reports.foldl .add summary) mid) := by
  induction before generalizing start reports summary with
  | nil =>
    obtain ⟨hreported, htaken⟩ := h
    cases hreported
    cases htaken
    rfl
  | cons path before ih =>
    cases hpath : path.isSupported with
    | false =>
      rw [List.cons_append, scanFilesWith_skip hpath]
      exact ih ((takes_skip_iff hpath).1 h) summary
    | true =>
      obtain ⟨hreported, htaken⟩ := h
      rw [List.filter_cons_of_pos hpath] at hreported
      cases hreported with
      | cons hfirst hothers =>
        obtain ⟨content, hread, rfl⟩ := hfirst
        rw [List.map_cons, Reporter.play] at htaken
        rw [List.cons_append, scanFilesWith_report hpath hread, List.foldl_cons]
        cases hhandle : r.handle (.file (.ofContent path content)) start with
        | mk answer next =>
          rw [hhandle] at htaken
          cases answer with
          | error error => cases htaken
          | ok _ => exact ih ⟨hothers, htaken⟩ _

/-! ## The whole loop -/

theorem Reporter.Takes.scanFilesWith_eq (h : r.Takes read files start reports last)
    (summary : Summary) :
    outcome (scanFilesWith read r files summary start) =
      (.ok (reports.foldl .add summary), last) := by
  have happend := h.scanFilesWith_append [] summary
  rw [List.append_nil] at happend
  exact happend

/-- The loop fails exactly if a file goes wrong after those before it went well. -/
theorem scanFilesWith_error_iff {summary : Summary} :
    outcome (scanFilesWith read r files summary start) = (.error error, last) ↔
      ∃ before path after reports mid calls, files = before ++ path :: after ∧
        r.Takes read before start reports mid ∧ read.Fails r path mid calls error last := by
  constructor
  · intro h
    rcases takes_or_fails read r files start with ⟨reports, reached, htakes⟩ | ⟨before, path, after,
      reports, mid, calls, own, reached, rfl, htakes, hfails⟩
    · rw [htakes.scanFilesWith_eq] at h
      cases h
    · rw [htakes.scanFilesWith_append, hfails.scanFilesWith_eq] at h
      cases h
      exact ⟨before, path, after, reports, mid, calls, rfl, htakes, hfails⟩
  · rintro ⟨before, path, after, reports, mid, calls, rfl, htakes, hfails⟩
    rw [htakes.scanFilesWith_append, hfails.scanFilesWith_eq]

/-- Files without a supported extension might as well not be there. -/
theorem scanFilesWith_filter (read : Access) (r : Reporter σ) (files : List Path)
    (summary : Summary) (start : σ) :
    outcome (scanFilesWith read r (files.filter Path.isSupported) summary start) =
      outcome (scanFilesWith read r files summary start) := by
  induction files generalizing summary start with
  | nil => rfl
  | cons path rest ih =>
    cases hpath : path.isSupported with
    | false => rw [List.filter_cons_of_neg (by simp [hpath]), scanFilesWith_skip hpath, ih]
    | true =>
      rw [List.filter_cons_of_pos hpath]
      cases hread : read path with
      | error fault => rw [scanFilesWith_stop hpath hread, scanFilesWith_stop hpath hread]
      | ok content =>
        rw [scanFilesWith_report hpath hread, scanFilesWith_report hpath hread]
        simp only [ih]

/-- Once the reporter has taken the target, a scan is its loop, and the counters if that goes
well. -/
theorem outcome_scanResolvedWith (read : Access) (files : List Path) {state : σ} {target : Path}
    (hbegin : r.handle (.begin target) state = (.ok (), start)) :
    outcome (scanResolvedWith read r target files state) =
      match outcome (scanFilesWith read r files { seen := files.length } start) with
      | (.error error, last) => (.error error, last)
      | (.ok summary, last) => afterCalls (.ok summary) (r.handle (.finish summary) last) := by
  rw [scanResolvedWith, hbegin]
  dsimp only
  generalize scanFilesWith read r files { seen := files.length } start = scanned
  obtain ⟨⟨result, events⟩, reached⟩ := scanned
  cases result with
  | error error => rfl
  | ok summary =>
    simp only [outcome]
    cases r.handle (.finish summary) reached with
    | mk answer final => cases answer <;> rfl

theorem result_of_outcome {answer : Logged Summary × σ} {result : Except LintError Summary}
    (h : outcome answer = (result, last)) : answer.1.result = result :=
  congrArg Prod.fst h

/-! ## What the reporter has heard -/

theorem Reporter.Takes.recorded (h : r.Takes read files start reports last) (heard : List Call) :
    r.recorded.Takes read files (start, heard) reports (last, heard ++ reports.map .file) :=
  ⟨h.reported, r.play_recorded h.taken heard⟩

theorem Access.Fails.recorded {state : σ} (h : read.Fails r path state calls error last)
    (heard : List Call) :
    read.Fails r.recorded path (state, heard) calls error (last, heard ++ calls) := by
  cases h with
  | unread hpath hread =>
    rw [List.append_nil]
    exact .unread hpath hread
  | refused hpath hread hhandle =>
    refine .refused hpath hread ?_
    simp only [Reporter.recorded, hhandle]

/-! ## On a console -/

section

variable {colored : Bool} {sink left : Sink}

/-- The reports that a console has taken are written down. -/
theorem Reporter.Takes.of_console
    (h : (Console.reporter colored).Takes read files sink reports left)
    (hlimit : sink.limit = none) (hflush : sink.flushable = true) :
    left =
      { sink with
        content := sink.content ++
          Utf8.encode ((reports.map Call.file).flatMap (Console.text colored)) } := by
  have htaken := h.taken
  rw [Console.play_unlimited colored _ hlimit hflush] at htaken
  exact (congrArg Prod.snd htaken).symm

/-- A console on a sink that takes everything refuses no report. -/
theorem Access.Fails.of_console
    (h : read.Fails (Console.reporter colored) path sink calls error left)
    (hlimit : sink.limit = none) (hflush : sink.flushable = true) :
    left = sink ∧ path.isSupported = true ∧
      ∃ fault, read path = .error fault ∧ error = .read path fault := by
  cases h with
  | unread hpath hread => exact ⟨rfl, hpath, _, hread, rfl⟩
  | refused hpath hread hhandle =>
    rw [Console.handle_unlimited colored _ hlimit hflush] at hhandle
    cases hhandle

/-- On a sink that takes everything, a scan fails only at a file that cannot be read, and what is
written by then is a report without its end. -/
theorem Console.scanResolvedWith_error {target : Path} (hlimit : sink.limit = none)
    (hflush : sink.flushable = true)
    (h : outcome (scanResolvedWith read (reporter colored) target files sink) =
      (.error error, left)) :
    ∃ before path after reports fault, files = before ++ path :: after ∧
      List.Forall₂ read.ReportedAs (before.filter Path.isSupported) reports ∧
      path.isSupported = true ∧ read path = .error fault ∧ error = .read path fault ∧
      left.content = sink.content ++ Utf8.encode (opening colored reports) := by
  have hbegin := handle_unlimited colored (.begin target) hlimit hflush
  rw [outcome_scanResolvedWith read files hbegin] at h
  rcases takes_or_fails read (reporter colored) files
      { sink with content := sink.content ++ Utf8.encode (text colored (.begin target)) } with
    ⟨reports, reached, htakes⟩ |
    ⟨before, path, after, reports, reached, calls, own, final, rfl, htakes, hfails⟩
  · have hreached := htakes.of_console hlimit hflush
    have hlimit' : reached.limit = none := by rw [hreached]; exact hlimit
    have hflush' : reached.flushable = true := by rw [hreached]; exact hflush
    rw [htakes.scanFilesWith_eq] at h
    dsimp only at h
    rw [handle_unlimited colored _ hlimit' hflush'] at h
    cases h
  · rw [htakes.scanFilesWith_append, hfails.scanFilesWith_eq] at h
    cases h
    obtain rfl := htakes.of_console hlimit hflush
    obtain ⟨rfl, hpath, fault, hread, rfl⟩ := hfails.of_console hlimit hflush
    refine ⟨before, path, after, reports, fault, rfl, htakes.reported, hpath, hread, rfl, ?_⟩
    simp only [← text_opening colored target, Utf8.encode_append, List.append_assoc]

end

/-- **A scan breaks off at the first file that goes wrong.** Whatever the files are and however they
are read, the loop over them fails exactly if one of them goes wrong after those before it went
well, and a file goes wrong only if it is supported and either cannot be read or its report is
refused. The scan then ends with that error, and the reporter has heard of the target and of the
supported files before that one, in order, besides the report it refused, and not of the counters.
Files without a supported extension change nothing, whether they are there or not. A console that
writes to a sink that takes everything has written its banner and the entries of the files with
advice before that one. -/
theorem first_failure {σ : Type} (read : Access) (r : Reporter σ) (target : Path)
    (files : List Path) :
    (∀ summary start error last,
      outcome (scanFilesWith read r files summary start) = (.error error, last) ↔
        ∃ before path after reports mid calls, files = before ++ path :: after ∧
          r.Takes read before start reports mid ∧ read.Fails r path mid calls error last) ∧
    (∀ state start error last, r.handle (.begin target) state = (.ok (), start) →
      outcome (scanFilesWith read r files { seen := files.length } start) = (.error error, last) →
      outcome (scanResolvedWith read r target files state) = (.error error, last) ∧
      ∃ before path after reports mid calls, files = before ++ path :: after ∧
        r.Takes read before start reports mid ∧ read.Fails r path mid calls error last ∧
        (scanResolvedWith read r.recorded target files (state, [])).2 =
          (last, .begin target :: (reports.map .file ++ calls)) ∧
        ∀ summary, .finish summary ∉ reports.map Call.file ++ calls) ∧
    (∀ summary start,
      outcome (scanFilesWith read r (files.filter Path.isSupported) summary start) =
        outcome (scanFilesWith read r files summary start)) ∧
    (∀ colored sink error, sink.limit = none → sink.flushable = true →
      (scanResolvedWith read (Console.reporter colored) target files sink).1.result =
        .error error →
      ∃ before path after reports fault, files = before ++ path :: after ∧
        List.Forall₂ read.ReportedAs (before.filter Path.isSupported) reports ∧
        path.isSupported = true ∧ read path = .error fault ∧ error = .read path fault ∧
        (scanResolvedWith read (Console.reporter colored) target files sink).2.content =
          sink.content ++ Utf8.encode (Console.opening colored reports)) ∧
    ∀ v state, (resolve v target).result = .ok files →
      outcome (scan v r target state) =
        outcome (scanResolvedWith v.read r target files state) := by
  refine ⟨fun _ _ _ _ => scanFilesWith_error_iff, ?_, scanFilesWith_filter read r files, ?_, ?_⟩
  · intro state start error last hbegin hloop
    refine ⟨by rw [outcome_scanResolvedWith read files hbegin, hloop], ?_⟩
    obtain ⟨before, path, after, reports, mid, calls, rfl, htakes, hfails⟩ :=
      scanFilesWith_error_iff.1 hloop
    have hheard : r.recorded.handle (.begin target) (state, []) =
        (.ok (), start, [.begin target]) := by
      simp only [Reporter.recorded, hbegin, List.nil_append]
    refine ⟨before, path, after, reports, mid, calls, rfl, htakes, hfails, ?_, ?_⟩
    · have hscan := outcome_scanResolvedWith read (before ++ path :: after) hheard
      rw [(htakes.recorded _).scanFilesWith_append, (hfails.recorded _).scanFilesWith_eq] at hscan
      exact congrArg Prod.snd hscan
    · intro summary hmem
      cases hfails <;> simp at hmem
  · intro colored sink error hlimit hflush herror
    exact Console.scanResolvedWith_error hlimit hflush (Prod.ext herror rfl)
  · intro v state hfiles
    rw [scan, hfiles]
    rfl

/-- Reads the script `b.js`, is denied `c.js`, and finds nothing else. -/
def guarded : Access := fun p =>
  if p = "b.js" then .ok "fetch("
  else if p = "c.js" then .error (.os .accessDenied)
  else .error (.os .noSuchFile)

/-- The files `a.txt`, `b.js` and `c.js`, of which only the second can be read. -/
def listed : List Path :=
  ["a.txt", "b.js", "c.js"]

/-- A console takes the report on `b.js` and stops at the next file. -/
theorem scan_guarded :
    (scanResolvedWith guarded (Console.reporter false) "d" listed {}).1.result =
      .error (.read "c.js" (.os .accessDenied)) := by
  -- what is written does not matter here, so the sinks are kept abstract
  obtain ⟨start, hbegin, hlimit, hflush⟩ : ∃ start,
      (Console.reporter false).handle (.begin "d") {} = (.ok (), start) ∧
        start.limit = none ∧ start.flushable = true :=
    ⟨_, Console.handle_unlimited false _ rfl rfl, rfl, rfl⟩
  have hscript := Console.handle_unlimited false (.file (.ofContent "b.js" "fetch(")) hlimit hflush
  have htakes : (Console.reporter false).Takes guarded ["a.txt", "b.js"] start _ _ :=
    (takes_skip_iff (by decide)).2 (takes_report (by decide) rfl hscript (takes_nil ..))
  have hlisted : listed = [("a.txt" : Path), "b.js"] ++ [("c.js" : Path)] := rfl
  have hscan := outcome_scanResolvedWith guarded listed hbegin
  rw [hlisted, htakes.scanFilesWith_append, scanFilesWith_stop (by decide) rfl, ← hlisted] at hscan
  exact result_of_outcome hscan

/-- A console that stops at the locked script, and a reporter that refuses the first report. -/
theorem first_failure_guarded :
    (scanResolvedWith guarded (Console.reporter false) "d" listed {}).1.result =
      .error (.read "c.js" (.os .accessDenied)) ∧
    (scanResolvedWith guarded (Console.reporter false) "d" listed {}).2.content =
      Bytes.ofString ("Kindlefy - scanning for Kindle WebBrowser quirks...\n\nFile: b.js\n" ++
        "• fetch() used → Kindle may not support fetch; consider an XHR fallback.\n") ∧
    patient.handle (.begin "d") 1 = (.ok (), 0) ∧
    outcome (scanFilesWith guarded patient listed { seen := 3 } 0) =
      (.error (.output .outputFull), 0) ∧
    outcome (scanResolvedWith guarded patient "d" listed 1) =
      (.error (.output .outputFull), 0) ∧
    ∃ files, (resolve disguised "d").result = .ok files ∧
      outcome (scan disguised patient "d" 1) =
        outcome (scanResolvedWith disguised.read patient "d" files 1) := by
  obtain ⟨hiff, hheard, -, hconsole, -⟩ := first_failure guarded patient "d" listed
  have hloop : outcome (scanFilesWith guarded patient listed { seen := 3 } 0) =
      (.error (.output .outputFull), 0) :=
    (hiff _ _ _ _).2 ⟨["a.txt"], "b.js", _, [], 0, _, rfl,
      (takes_skip_iff (by decide)).2 (takes_nil patient guarded 0), .refused (by decide) rfl rfl⟩
  obtain ⟨before, path, after, reports, fault, hfiles, hreported, -, -, herror, hcontent⟩ :=
    hconsole false {} _ rfl rfl scan_guarded
  refine ⟨scan_guarded, ?_, rfl, hloop, (hheard 1 0 _ _ rfl hloop).1, _, resolve_disguised,
    (first_failure guarded patient "d" _).2.2.2.2 disguised 1 resolve_disguised⟩
  cases herror
  have hfirst : Bytes.ofString "a.txt" ≠ Bytes.ofString "c.js" := by decide
  have hsecond : Bytes.ofString "b.js" ≠ Bytes.ofString "c.js" := by decide
  rcases before with _ | ⟨x, _ | ⟨y, _ | ⟨z, before⟩⟩⟩ <;>
    simp [listed, hfirst, hsecond] at hfiles
  obtain ⟨rfl, rfl, rfl⟩ := hfiles
  have hsupported : List.filter Path.isSupported ["a.txt", "b.js"] = [("b.js" : Path)] := by
    decide
  rw [hsupported, List.forall₂_cons_left_iff] at hreported
  obtain ⟨report, _, ⟨content, hread, rfl⟩, hnone, rfl⟩ := hreported
  cases hread
  cases hnone
  have htext : Utf8.encode (Console.opening false [.ofContent "b.js" "fetch("]) =
      Bytes.ofString ("Kindlefy - scanning for Kindle WebBrowser quirks...\n\nFile: b.js\n" ++
        "• fetch() used → Kindle may not support fetch; consider an XHR fallback.\n") := by
    decide +kernel
  exact hcontent.trans htext

end InkLint
