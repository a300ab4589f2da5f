import InkLint.CommandLine.Run
import InkLint.Proofs.Output.Console
import InkLint.Proofs.Scan.Contract
import InkLint.Proofs.Scan.Reread
import InkLint.Proofs.Walk.Faults

/-!
# How a run ends

A run either writes a complete report and nothing else, or it fails before it has written anything:
the target is resolved first, and what was resolved can be read. The exceptions are a file whose path
is too long to be looked up and a file that the system withholds. The walk lists them all the same,
and the report breaks off where the first of them would have been read.

What the environment says about the log decides only about the log.
-/

namespace InkLint

namespace CommandLine

/-! ## The log -/

/-- Nothing that a run does is a warning. -/
theorem quiet_enables (e : Event) : LogFilter.quiet.enables e = false := by
  cases e <;> rfl

theorem logLines_quiet (stamp : String) (events : List Event) :
    logLines stamp LogFilter.quiet events = [] := by
  simp [logLines, quiet_enables]

theorem logFilter_unset {env : Environment} (hown : env "KINDLEFY_LOG" = none)
    (hcommon : env "RUST_LOG" = none) : logFilter env = LogFilter.quiet := by
  simp [logFilter, Environment.text?, hown, hcommon]

/-! ## A scan from the command line -/

/-- How a run ends that logs nothing: with the report, or with an error. -/
def endingOf : Except LintError Summary × Sink → Ending
  | (.ok _, sink) => { stdout := sink.content }
  | (.error error, sink) =>
    { status := error.exitCode, stdout := sink.content, stderr := errorLine error }

variable {v : Volume} {env : Environment} {stamp : String} {path : Path} {files : List Path}

theorem requireTarget_some (hpath : path ≠ []) : requireTarget (some path) = .ok path := by
  obtain ⟨b, rest, rfl⟩ := List.exists_cons_of_ne_nil hpath
  rfl

/-- Without a target, or with an empty one, nothing is looked at. -/
theorem runScan_none {target : Option Path} (h : target = none ∨ target = some []) :
    runScan stamp v env target =
      { status := 1
        stderr := Bytes.ofString "Error: Please provide a file or directory.\n" } := by
  rcases h with rfl | rfl <;> rfl

theorem runScan_quiet (hquiet : logFilter env = LogFilter.quiet) (hpath : path ≠ []) :
    runScan stamp v env (some path) =
      endingOf (outcome (scan v (Console.reporter (isColored env)) path {})) := by
  unfold runScan outcome
  simp only [requireTarget_some hpath, hquiet, logLines_quiet, List.nil_append]
  cases (scan v (Console.reporter (isColored env)) path {}).1.result <;> rfl

/-- A target that cannot be resolved leaves the output empty. -/
theorem runScan_unresolved (hquiet : logFilter env = LogFilter.quiet) (hpath : path ≠ [])
    {error : LintError} (h : (resolve v path).result = .error error) :
    runScan stamp v env (some path) =
      { status := 2, stderr := Bytes.ofString ("Error: " ++ error.message ++ "\n") } := by
  rw [runScan_quiet hquiet hpath, scan_of_error _ _ h]
  rcases resolve_error h with ⟨cause, rfl⟩ | ⟨fault, rfl⟩ <;> rfl

/-- Where every supported file can be read, the report is complete. -/
theorem runScan_complete (hquiet : logFilter env = LogFilter.quiet) (hpath : path ≠ [])
    (h : (resolve v path).result = .ok files) (hending : (lintAll v files).2 = .ok ()) :
    runScan stamp v env (some path) =
      { stdout := Utf8.encode (Console.complete (isColored env) (lintAll v files).1) } := by
  rw [runScan_quiet hquiet hpath, scan_of_files _ _ h, Console.play_unlimited _ _ rfl rfl,
    Console.flatMap_text_scanCalls, hending]
  rfl

/-- Where a file cannot be read, the report breaks off. -/
theorem runScan_broken (hquiet : logFilter env = LogFilter.quiet) (hpath : path ≠ [])
    (h : (resolve v path).result = .ok files) {p : Path} {fault : Fault}
    (hending : (lintAll v files).2 = .error (.read p fault)) :
    runScan stamp v env (some path) =
      { status := 2
        stdout := Utf8.encode (Console.opening (isColored env) (lintAll v files).1)
        stderr := Bytes.ofString ("Error: " ++ (LintError.read p fault).message ++ "\n") } := by
  rw [runScan_quiet hquiet hpath, scan_of_files _ _ h, Console.play_unlimited _ _ rfl rfl,
    Console.flatMap_text_scanCalls, hending]
  rfl

/-- The log variables change neither the status nor the report. -/
theorem runScan_log {env' : Environment} (hcolor : isColored env' = isColored env)
    (stamp stamp' : String) (target : Option Path) :
    (runScan stamp' v env' target).status = (runScan stamp v env target).status ∧
      (runScan stamp' v env' target).stdout = (runScan stamp v env target).stdout := by
  unfold runScan
  cases requireTarget target with
  | error error => exact ⟨rfl, rfl⟩
  | ok path =>
    simp only [hcolor]
    cases (scan v (Console.reporter (isColored env)) path {}).1.result <;> exact ⟨rfl, rfl⟩

/-- How a run on a target ends. -/
inductive Ends (v : Volume) (colored : Bool) (path : Path) : Ending → Prop
  /-- The report is complete, and nothing else is said. -/
  | complete {files : List Path} {reports : List FileReport} :
      (resolve v path).result = .ok files →
      List.Forall₂ v.ReportedAs (files.filter Path.isSupported) reports →
      Ends v colored path
        { status := 0, stdout := Utf8.encode (Console.complete colored reports), stderr := [] }
  /-- The target cannot be accessed, and nothing is written but the error. -/
  | inaccessible {cause : Fault} :
      (resolve v path).result = .error (.target path cause) →
      Ends v colored path
        { status := 2, stdout := []
          stderr := Bytes.ofString
            ("Error: " ++ ("Cannot access " ++ path.display ++ ": " ++ cause.message) ++ "\n") }
  /-- The walk fails, and nothing is written but the error. -/
  | astray {fault : WalkFault} :
      (resolve v path).result = .error (.walk fault) →
      Ends v colored path
        { status := 2, stdout := []
          stderr := Bytes.ofString ("Error: " ++ ("Walk error: " ++ fault.message) ++ "\n") }
  /-- The report breaks off before the first supported file that cannot be read. -/
  | broken {before after : List Path} {p : Path} {cause : OsError} {reports : List FileReport} :
      (resolve v path).result = .ok (before ++ p :: after) →
      p.isSupported = true → v.Unreadable p cause →
      (∀ q ∈ before, q.isSupported = true → ∀ other, ¬v.Unreadable q other) →
      List.Forall₂ v.ReportedAs (before.filter Path.isSupported) reports →
      Ends v colored path
        { status := 2, stdout := Utf8.encode (Console.opening colored reports)
          stderr := Bytes.ofString
            ("Error: " ++ ("IO error reading " ++ p.display ++ ": " ++
              (cause.text ++ " (os error " ++ toString cause.code ++ ")")) ++ "\n") }

theorem Ends.status_ne_one {colored : Bool} {ending : Ending} (h : Ends v colored path ending) :
    ending.status ≠ 1 := by
  cases h <;> simp

theorem runScan_ends (hv : v.WellFormed) (hquiet : logFilter env = LogFilter.quiet)
    (hpath : path ≠ []) : Ends v (isColored env) path (runScan stamp v env (some path)) := by
  cases hresolve : (resolve v path).result with
  | error error =>
    rw [runScan_unresolved hquiet hpath hresolve]
    rcases resolve_error hresolve with ⟨cause, rfl⟩ | ⟨fault, rfl⟩
    · exact .inaccessible hresolve
    · exact .astray hresolve
  | ok files =>
    rcases first_unreadable v files with
      hreadable | ⟨before, p, after, fault, rfl, hp, hread, hbefore⟩
    · obtain ⟨hending, hreports⟩ := lintAll_readable hreadable
      rw [runScan_complete hquiet hpath hresolve hending]
      exact .complete hresolve hreports
    · obtain ⟨cause, hcause, rfl⟩ := (read_error_iff hv hresolve (by simp)).1 hread
      obtain ⟨hending, hreports⟩ := lintAll_unreadable after hbefore hp hread
      rw [runScan_broken hquiet hpath hresolve hending, hreports]
      refine .broken hresolve hp hcause (fun q hq hsupported => ?_) (lintAll_readable hbefore).2
      exact (readable_iff hv hresolve (List.mem_append_left _ hq)).1 (hbefore q hq hsupported)

/-- **A run writes a complete report or none**, unless a file that was found cannot be read. Without
a target it ends with status 1. Otherwise the report is complete and nothing is said on the standard
error, or the target cannot be resolved and nothing but the error is written, or the walk has listed
a supported file that is withheld or whose path is too long to be looked up, and the report breaks
off before that file. The log variables have no part in this. -/
theorem run_whole (stamp : String) (v : Volume) (hv : v.WellFormed) (env : Environment)
    (hown : env "KINDLEFY_LOG" = none) (hcommon : env "RUST_LOG" = none) (args : List Bytes)
    (target : Option Path) (hargs : readArguments args = .scan target) :
    ((run stamp v env args).status = 1 ↔ target = none ∨ target = some []) ∧
    (target = none ∨ target = some [] →
      run stamp v env args =
        { status := 1, stdout := []
          stderr := Bytes.ofString "Error: Please provide a file or directory.\n" }) ∧
    (∀ path, target = some path → path ≠ [] →
      Ends v (isColored env) path (run stamp v env args)) ∧
    ∀ stamp' env', (∀ name, name ≠ "KINDLEFY_LOG" → name ≠ "RUST_LOG" → env' name = env name) →
      (run stamp' v env' args).status = (run stamp v env args).status ∧
        (run stamp' v env' args).stdout = (run stamp v env args).stdout := by
  have hrun (stamp' : String) (env' : Environment) :
      run stamp' v env' args = runScan stamp' v env' target := by
    simp only [run, hargs]
  simp only [hrun]
  have hends (path : Path) (htarget : target = some path) (hpath : path ≠ []) :
      Ends v (isColored env) path (runScan stamp v env target) := by
    rw [htarget]
    exact runScan_ends hv (logFilter_unset hown hcommon) hpath
  refine ⟨⟨?_, fun h => by rw [runScan_none h]⟩, runScan_none, hends, ?_⟩
  · intro hstatus
    cases target with
    | none => exact .inl rfl
    | some path =>
      by_cases hpath : path = []
      · exact .inr (by rw [hpath])
      · exact absurd hstatus (hends path rfl hpath).status_ne_one
  · intro stamp' env' hsame
    refine runScan_log ?_ stamp stamp' target
    unfold isColored Environment.text?
    rw [hsame "CLICOLOR_FORCE" (by decide) (by decide)]

theorem run_whole_disguised :
    disguised.WellFormed ∧ readArguments ["d"] = .scan (some "d") ∧
    run "" disguised (fun _ => none) ["d"] =
      { status := 0
        stdout := Bytes.ofString
          ("Kindlefy - scanning for Kindle WebBrowser quirks...\n\nFile: d/s/b.css\n" ++
            "• Modern layout (flex/grid) → Kindle's browser barely supports them; " ++
            "consider floats or table layouts.\n\nFile: d/x.js\n" ++
            "• fetch() used → Kindle may not support fetch; consider an XHR fallback.\n" ++
            "\nScan complete.\n")
        stderr := [] } := by
  have hv : disguised.WellFormed := by decide
  have hargs : readArguments ["d"] = .scan (some "d") := rfl
  obtain ⟨-, -, hends, -⟩ :=
    run_whole "" disguised hv (fun _ => none) rfl rfl ["d"] (some "d") hargs
  have hend := hends "d" rfl (by decide)
  have hending : (lintAll disguised ["d/n.txt", "d/s/b.css", "d/x.js"]).2 = .ok () := by
    rw [lintAll_disguised]
  refine ⟨hv, hargs, ?_⟩
  generalize run "" disguised (fun _ => none) ["d"] = ending at hend
  cases hend with
  | complete hresolve hreports =>
    rw [resolve_disguised] at hresolve
    cases hresolve
    rw [← map_reportOn hreports, ← lintAll_eq_map hending, lintAll_disguised]
    exact congrArg (Ending.mk 0 · []) (by decide +kernel)
  | inaccessible hresolve =>
    rw [resolve_disguised] at hresolve
    cases hresolve
  | astray hresolve =>
    rw [resolve_disguised] at hresolve
    cases hresolve
  | @broken before after p cause reports hresolve hp hcause _ _ =>
    have hmem : p ∈ before ++ p :: after := by simp
    have hfiles := hresolve
    rw [resolve_disguised, Except.ok.injEq] at hfiles
    rw [hfiles] at hending
    have hreadable := readable_of_lintAll hending p hmem hp
    exact absurd hcause ((readable_iff hv hresolve hmem).1 hreadable cause)

/-! ## A report that breaks off -/

/-- The folder `d` with the script `a.js`. -/
def scripted : Volume :=
  { root := .folder [("d", .folder [("a.js", .file (.ok []))])]
    limits := .linux }

theorem resolve_scripted {n : Nat} (h : n ≤ 4094) :
    (resolve scripted (Volume.slashed n)).result =
      .ok [(Volume.slashed n).join "a.js"] := by
  have hv : scripted.WellFormed := by decide
  have hshort : scripted.limits.refuses (Volume.slashed n) = false := by
    simp [scripted, Limits.refuses, Limits.linux]
    omega
  have harrive : scripted.arrive (Volume.slashed n) = .ok ⟨["d"], 0⟩ :=
    Volume.arrive_slashes (by cbv) rfl hshort
  have hroot : scripted.Anchored ⟨⟨["d"], 0⟩, Volume.slashed n⟩ := ⟨harrive, rfl⟩
  have hnames : scripted.names ["d"] = [("a.js" : Name)] := by cbv
  have hlook : scripted.look [] ⟨⟨["d"], 0⟩, Volume.slashed n⟩ "a.js" = .ok none :=
    (Volume.look_eq_none_iff_of_anchored hv hroot (by simp [hnames])).2 (.inl rfl)
  have hfolder : scripted.hasFolder ["d"] = true := rfl
  rw [resolve_result, Volume.locate_eq_ok_iff.2 ⟨0, harrive⟩]
  simp [hfolder, Volume.collect_eq_arrive, harrive, hnames, Volume.walk_cons, Volume.visit, hlook,
    Except.bind, Except.map, Except.mapError]

theorem refuses_scripted {n : Nat} (h : 4091 ≤ n) :
    scripted.limits.refuses ((Volume.slashed n).join "a.js") = true := by
  obtain ⟨m, rfl⟩ : ∃ m, n = m + 1 := ⟨n - 1, by omega⟩
  have hlength : (Bytes.ofString "a.js").length = 4 := rfl
  rw [Volume.join_slashed]
  simp [hlength, scripted, Limits.refuses, Limits.linux]
  omega

theorem readArguments_slashed (n : Nat) :
    readArguments [Volume.slashed n] = .scan (some (Volume.slashed n)) := rfl

theorem run_scripted {n : Nat} (hmin : 4091 ≤ n) (hmax : n ≤ 4094) :
    run "" scripted (fun _ => none) [Volume.slashed n] =
      { status := 2
        stdout := Bytes.ofString "Kindlefy - scanning for Kindle WebBrowser quirks...\n"
        stderr := Bytes.ofString ("Error: " ++
          (LintError.read ((Volume.slashed n).join "a.js")
            (.os .nameTooLong)).message ++ "\n") } := by
  have hv : scripted.WellFormed := by decide
  have hresolve := resolve_scripted hmax
  have hread :=
    (read_error_iff hv hresolve (by simp)).2 ⟨_, .tooLong (refuses_scripted hmin), rfl⟩
  have hscript : Path.isSupported ((Volume.slashed n).join "a.js") = true := by
    rw [isSupported_join _ (by decide)]
    decide
  have hlint : lintAll scripted [(Volume.slashed n).join "a.js"] = _ := lintAll_stop hscript hread
  have hopening : Utf8.encode (Console.opening (isColored fun _ => none) []) =
      Bytes.ofString "Kindlefy - scanning for Kindle WebBrowser quirks...\n" := by
    decide +kernel
  simp only [run, readArguments_slashed]
  rw [runScan_broken (logFilter_unset rfl rfl) (List.ne_nil_of_length_pos (by simp)) hresolve (by rw [hlint]),
    hlint, hopening]

/-- The walk lists a file whose path is too long to be looked up, so that the report breaks off:
neither is it complete, nor is the output empty. -/
theorem run_breaks_off :
    scripted.WellFormed ∧
    readArguments [Volume.slashed 4092] = .scan (some (Volume.slashed 4092)) ∧
    (run "" scripted (fun _ => none) [Volume.slashed 4092]).status = 2 ∧
    (run "" scripted (fun _ => none) [Volume.slashed 4092]).stdout =
      Bytes.ofString "Kindlefy - scanning for Kindle WebBrowser quirks...\n" ∧
    (run "" scripted (fun _ => none) [Volume.slashed 4092]).stdout ≠ [] := by
  have hrun := run_scripted (show 4091 ≤ 4092 by decide) (by decide)
  refine ⟨by decide, readArguments_slashed 4092, by rw [hrun], by rw [hrun], ?_⟩
  rw [hrun]
  decide

end CommandLine

end InkLint
