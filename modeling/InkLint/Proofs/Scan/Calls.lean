import InkLint.Scan
import Mathlib

/-!
# A scan as a list of calls

What a scan hands to its reporter depends on the volume and the target alone. `lintAll` gives the
reports on the files, up to the first file that cannot be read, and `scanCalls` makes calls of them.
A reporter hears these calls one after another until it fails (`Reporter.play`), and that is all it
can do to a scan (`scan_of_files`).
-/

namespace InkLint

/-! ## One file -/

/-- Whether the file at a path is read at all. -/
def Path.isSupported (p : Path) : Bool :=
  (Category.ofPath p).isSupported

/-- The report on a file with this content. -/
def FileReport.ofContent (path : Path) (content : Bytes) : FileReport :=
  ⟨path, .ofPath path, (lintText (.ofPath path) (Utf8.decodeLossy content)).map (·.advice)⟩

/-- The report tells what the file at the path contains. -/
def Volume.ReportedAs (v : Volume) (path : Path) (report : FileReport) : Prop :=
  ∃ content, v.read path = .ok content ∧ report = .ofContent path content

variable {v : Volume} {path : Path}

theorem lintFile_unsupported (h : path.isSupported = false) :
    (lintFile v path).result = .ok none := by
  unfold Path.isSupported at h
  simp [lintFile, lintFileWith, h]

theorem lintFile_unreadable {fault : Fault} (h : path.isSupported = true)
    (hread : v.read path = .error fault) :
    (lintFile v path).result = .error (.read path fault) := by
  unfold Path.isSupported at h
  simp [lintFile, lintFileWith, h, hread]

theorem lintFile_readable {content : Bytes} (h : path.isSupported = true)
    (hread : v.read path = .ok content) :
    (lintFile v path).result = .ok (some (.ofContent path content)) := by
  unfold Path.isSupported at h
  simp [lintFile, lintFileWith, h, hread, FileReport.ofContent]

/-- Linting a file fails exactly if it is supported and reading it fails. -/
theorem lintFile_error_iff {error : LintError} :
    (lintFile v path).result = .error error ↔
      path.isSupported = true ∧ ∃ fault, v.read path = .error fault ∧ error = .read path fault := by
  cases hpath : path.isSupported with
  | false => simp [lintFile_unsupported hpath]
  | true =>
    cases hread : v.read path with
    | error fault => simp [lintFile_unreadable hpath hread, eq_comm]
    | ok content => simp [lintFile_readable hpath hread]

/-! ## Many files -/

/-- The reports on the files in order, up to the first that cannot be read, and how that ends. -/
def lintAll (v : Volume) : List Path → List FileReport × Except LintError Unit
  | [] => ([], .ok ())
  | path :: rest =>
    match (lintFile v path).result with
    | .error error => ([], .error error)
    | .ok none => lintAll v rest
    | .ok (some report) => (report :: (lintAll v rest).1, (lintAll v rest).2)

theorem lintAll_skip {rest : List Path} (h : path.isSupported = false) :
    lintAll v (path :: rest) = lintAll v rest := by
  simp [lintAll, lintFile_unsupported h]

theorem lintAll_stop {fault : Fault} {rest : List Path} (h : path.isSupported = true)
    (hread : v.read path = .error fault) :
    lintAll v (path :: rest) = ([], .error (.read path fault)) := by
  simp [lintAll, lintFile_unreadable h hread]

theorem lintAll_report {content : Bytes} {rest : List Path} (h : path.isSupported = true)
    (hread : v.read path = .ok content) :
    lintAll v (path :: rest) =
      (.ofContent path content :: (lintAll v rest).1, (lintAll v rest).2) := by
  simp [lintAll, lintFile_readable h hread]

/-- If every supported file can be read, there is a report on each of them. -/
theorem lintAll_readable {files : List Path}
    (h : ∀ p ∈ files, p.isSupported = true → ∃ content, v.read p = .ok content) :
    (lintAll v files).2 = .ok () ∧
      List.Forall₂ v.ReportedAs (files.filter Path.isSupported) (lintAll v files).1 := by
  induction files with
  | nil => exact ⟨rfl, .nil⟩
  | cons path rest ih =>
    obtain ⟨hending, hreports⟩ := ih fun p hp => h p (List.mem_cons_of_mem _ hp)
    cases hpath : path.isSupported with
    | false =>
      rw [lintAll_skip hpath, List.filter_cons_of_neg (by simp [hpath])]
      exact ⟨hending, hreports⟩
    | true =>
      obtain ⟨content, hread⟩ := h path (by simp) hpath
      rw [lintAll_report hpath hread, List.filter_cons_of_pos hpath]
      exact ⟨hending, .cons ⟨content, hread, rfl⟩ hreports⟩

/-- The reports end at the first supported file that cannot be read. -/
theorem lintAll_unreadable {before : List Path} (after : List Path) {fault : Fault}
    (hbefore : ∀ p ∈ before, p.isSupported = true → ∃ content, v.read p = .ok content)
    (hpath : path.isSupported = true) (hread : v.read path = .error fault) :
    (lintAll v (before ++ path :: after)).2 = .error (.read path fault) ∧
      (lintAll v (before ++ path :: after)).1 = (lintAll v before).1 := by
  induction before with
  | nil => rw [List.nil_append, lintAll_stop hpath hread]; exact ⟨rfl, rfl⟩
  | cons first before ih =>
    obtain ⟨hending, hreports⟩ := ih fun p hp => hbefore p (List.mem_cons_of_mem _ hp)
    rw [List.cons_append]
    cases hfirst : first.isSupported with
    | false =>
      rw [lintAll_skip hfirst, lintAll_skip hfirst]
      exact ⟨hending, hreports⟩
    | true =>
      obtain ⟨content, hcontent⟩ := hbefore first (by simp) hfirst
      rw [lintAll_report hfirst hcontent, lintAll_report hfirst hcontent, hreports]
      exact ⟨hending, rfl⟩

/-- If linting comes to its end, every supported file can be read. -/
theorem readable_of_lintAll {files : List Path} (h : (lintAll v files).2 = .ok ()) :
    ∀ p ∈ files, p.isSupported = true → ∃ content, v.read p = .ok content := by
  induction files with
  | nil => intro p hp; cases hp
  | cons path rest ih =>
    intro p hp hsupported
    cases hpath : path.isSupported with
    | false =>
      rw [lintAll_skip hpath] at h
      rcases List.mem_cons.1 hp with rfl | hp
      · rw [hpath] at hsupported; cases hsupported
      · exact ih h p hp hsupported
    | true =>
      cases hread : v.read path with
      | error fault => rw [lintAll_stop hpath hread] at h; cases h
      | ok content =>
        rw [lintAll_report hpath hread] at h
        rcases List.mem_cons.1 hp with rfl | hp
        · exact ⟨content, hread⟩
        · exact ih h p hp hsupported

/-- The report on the file at a path. -/
def Volume.reportOn (v : Volume) (path : Path) : FileReport :=
  .ofContent path ((v.read path).toOption.getD [])

theorem reportOn_of_read {content : Bytes} (h : v.read path = .ok content) :
    v.reportOn path = .ofContent path content := by
  simp [Volume.reportOn, h, Except.toOption]

theorem map_reportOn {files : List Path} {reports : List FileReport}
    (h : List.Forall₂ v.ReportedAs files reports) : files.map v.reportOn = reports := by
  have hmap := h.imp (S := fun p report => v.reportOn p = report) <| by
    rintro p report ⟨content, hread, rfl⟩
    exact reportOn_of_read hread
  rwa [← List.forall₂_map_left_iff, List.forall₂_eq_eq_eq] at hmap

/-- If linting comes to its end, the reports are those on the supported files. -/
theorem lintAll_eq_map {files : List Path} (h : (lintAll v files).2 = .ok ()) :
    (lintAll v files).1 = (files.filter Path.isSupported).map v.reportOn :=
  (map_reportOn (lintAll_readable (readable_of_lintAll h)).2).symm

/-- No report has more than three pieces of advice. -/
theorem length_advisories_lintAll_le {files : List Path} {report : FileReport}
    (h : report ∈ (lintAll v files).1) : report.advisories.length ≤ 3 := by
  induction files with
  | nil => cases h
  | cons path rest ih =>
    cases hpath : path.isSupported with
    | false =>
      rw [lintAll_skip hpath] at h
      exact ih h
    | true =>
      cases hread : v.read path with
      | error fault => rw [lintAll_stop hpath hread] at h; cases h
      | ok content =>
        rw [lintAll_report hpath hread] at h
        rcases List.mem_cons.1 h with rfl | h
        · simpa [FileReport.ofContent] using length_lintText_le _ _
        · exact ih h

/-! ## Counting -/

/-- The counters for a number of files and the reports on those that were scanned. -/
def Summary.ofReports (seen : Nat) (reports : List FileReport) : Summary where
  seen := seen
  scanned := reports.length
  flagged := reports.countP (·.isFlagged)
  advisories := (reports.map (·.advisories.length)).sum

/-- Adding reports one by one counts them. -/
theorem foldl_add (s : Summary) (reports : List FileReport) :
    reports.foldl Summary.add s =
      { seen := s.seen
        scanned := s.scanned + reports.length
        flagged := s.flagged + reports.countP (·.isFlagged)
        advisories := s.advisories + (reports.map (·.advisories.length)).sum } := by
  induction reports generalizing s with
  | nil => simp
  | cons report reports ih =>
    rw [List.foldl_cons, ih]
    cases hflag : report.isFlagged <;> simp [Summary.add, hflag] <;> omega

theorem foldl_add_seen (seen : Nat) (reports : List FileReport) :
    reports.foldl Summary.add { seen := seen } = .ofReports seen reports := by
  rw [foldl_add]
  simp [Summary.ofReports]

theorem isFlagged_iff {report : FileReport} :
    report.isFlagged = true ↔ 0 < report.advisories.length := by
  simp [FileReport.isFlagged, List.length_pos_iff]

theorem countP_isFlagged_le (reports : List FileReport) :
    reports.countP (·.isFlagged) ≤ (reports.map (·.advisories.length)).sum := by
  induction reports with
  | nil => simp
  | cons report reports ih =>
    rw [List.countP_cons, List.map_cons, List.sum_cons]
    by_cases hflag : report.isFlagged = true
    · have hpos := isFlagged_iff.1 hflag
      rw [if_pos hflag]
      omega
    · rw [if_neg hflag]
      omega

theorem sum_advisories_le {reports : List FileReport} {bound : Nat}
    (h : ∀ report ∈ reports, report.advisories.length ≤ bound) :
    (reports.map (·.advisories.length)).sum ≤ bound * reports.countP (·.isFlagged) := by
  induction reports with
  | nil => simp
  | cons report reports ih =>
    have hrest := ih fun r hr => h r (List.mem_cons_of_mem _ hr)
    have hfirst := h report (by simp)
    rw [List.countP_cons, List.map_cons, List.sum_cons, Nat.mul_add]
    by_cases hflag : report.isFlagged = true
    · rw [if_pos hflag]
      omega
    · have hzero : report.advisories.length = 0 := by
        rw [isFlagged_iff] at hflag
        omega
      rw [if_neg hflag]
      omega

/-- Reports without advice do not count. -/
theorem sum_advisories_filter (reports : List FileReport) :
    ((reports.filter (·.isFlagged)).map (·.advisories.length)).sum =
      (reports.map (·.advisories.length)).sum := by
  induction reports with
  | nil => rfl
  | cons report reports ih =>
    by_cases hflag : report.isFlagged = true
    · rw [List.filter_cons_of_pos hflag, List.map_cons, List.map_cons, List.sum_cons,
        List.sum_cons, ih]
    · have hzero : report.advisories.length = 0 := by
        rw [isFlagged_iff] at hflag
        omega
      rw [List.filter_cons_of_neg hflag, List.map_cons, List.sum_cons, hzero, Nat.zero_add, ih]

/-! ## What a reporter hears -/

namespace Reporter

variable {σ : Type} (r : Reporter σ)

/-- Hands calls to the reporter one after another until one fails. -/
def play : List Call → σ → Except LintError Unit × σ
  | [], state => (.ok (), state)
  | call :: rest, state =>
    match r.handle call state with
    | (.error error, state) => (.error error, state)
    | (.ok (), state) => play rest state

theorem play_append (first rest : List Call) (state : σ) :
    r.play (first ++ rest) state =
      match r.play first state with
      | (.error error, state) => (.error error, state)
      | (.ok (), state) => r.play rest state := by
  induction first generalizing state with
  | nil => rfl
  | cons call first ih =>
    rw [List.cons_append, play, play]
    cases r.handle call state with
    | mk answer state =>
      cases answer with
      | error error => rfl
      | ok _ => exact ih state

theorem play_singleton (call : Call) (state : σ) : r.play [call] state = r.handle call state := by
  rw [play]
  cases r.handle call state with
  | mk answer next => cases answer <;> rfl

/-- A failure while calls are handed over is the reporter's own. -/
theorem handle_of_play_error {calls : List Call} {state last : σ} {error : LintError}
    (h : r.play calls state = (.error error, last)) :
    ∃ call state, (r.handle call state).1 = .error error := by
  induction calls generalizing state with
  | nil => cases h
  | cons call calls ih =>
    rw [play] at h
    cases hcall : r.handle call state with
    | mk answer next =>
      rw [hcall] at h
      cases answer with
      | error own =>
        cases h
        exact ⟨call, state, by rw [hcall]⟩
      | ok _ => exact ih h

/-- The reporter never fails. -/
def Unfailing : Prop :=
  ∀ call state, (r.handle call state).1 = .ok ()

theorem Unfailing.play {r : Reporter σ} (hr : r.Unfailing) (calls : List Call) (state : σ) :
    (r.play calls state).1 = .ok () := by
  induction calls generalizing state with
  | nil => rfl
  | cons call calls ih =>
    have hcall := hr call state
    rw [Reporter.play]
    cases h : r.handle call state with
    | mk answer next =>
      rw [h] at hcall
      cases hcall
      exact ih next

/-- The reporter with a list of the calls it has received. -/
def recorded : Reporter (σ × List Call) where
  handle call state :=
    ((r.handle call state.1).1, (r.handle call state.1).2, state.2 ++ [call])

/-- Where no call fails, the reporter receives every call. -/
theorem play_recorded {calls : List Call} {state last : σ}
    (h : r.play calls state = (.ok (), last)) (received : List Call) :
    r.recorded.play calls (state, received) = (.ok (), last, received ++ calls) := by
  induction calls generalizing state received with
  | nil => cases h; simp [play]
  | cons call calls ih =>
    rw [play] at h
    cases hcall : r.handle call state with
    | mk answer next =>
      rw [hcall] at h
      cases answer with
      | error error => cases h
      | ok _ =>
        have hrest := ih h (received ++ [call])
        simp only [play, recorded, hcall] at hrest ⊢
        rw [hrest, List.append_assoc, List.singleton_append]

end Reporter

/-! ## A whole scan -/

/-- The answer of a scan and the state it leaves, without what was logged. -/
def outcome {σ : Type} (answer : Logged Summary × σ) : Except LintError Summary × σ :=
  (answer.1.result, answer.2)

/-- How a scan ends after its calls: with its own answer, unless the reporter failed. -/
def afterCalls {σ : Type} (own : Except LintError Summary) :
    Except LintError Unit × σ → Except LintError Summary × σ
  | (.error error, state) => (.error error, state)
  | (.ok (), state) => (own, state)

variable {σ : Type} (r : Reporter σ)

theorem outcome_scanFiles (v : Volume) (files : List Path) (summary : Summary) (state : σ) :
    outcome (scanFiles v r files summary state) =
      afterCalls ((lintAll v files).2.map fun _ => (lintAll v files).1.foldl .add summary)
        (r.play ((lintAll v files).1.map .file) state) := by
  rw [scanFiles]
  induction files generalizing summary state with
  | nil => rfl
  | cons path rest ih =>
    rw [scanFilesWith, lintAll, lintFile]
    cases (lintFileWith v.read path).result with
    | error error => rfl
    | ok report =>
      cases report with
      | none => exact ih summary state
      | some report =>
        simp only [List.map_cons, Reporter.play, List.foldl_cons]
        cases r.handle (.file report) state with
        | mk answer next =>
          cases answer with
          | error error => rfl
          | ok _ => exact ih (summary.add report) next

/-- The counters that a scan of the files ends with. -/
def scanSummary (v : Volume) (files : List Path) : Summary :=
  .ofReports files.length (lintAll v files).1

/-- What a scan of the files hands to its reporter, as far as the reporter goes along. -/
def scanCalls (v : Volume) (target : Path) (files : List Path) : List Call :=
  .begin target :: (lintAll v files).1.map .file ++
    match (lintAll v files).2 with
    | .ok () => [.finish (scanSummary v files)]
    | .error _ => []

theorem outcome_scanResolved (v : Volume) (target : Path) (files : List Path) (state : σ) :
    outcome (scanResolved v r target files state) =
      afterCalls ((lintAll v files).2.map fun _ => scanSummary v files)
        (r.play (scanCalls v target files) state) := by
  have hfiles (s : σ) := outcome_scanFiles r v files { seen := files.length } s
  simp only [foldl_add_seen] at hfiles
  rw [scanResolved, scanResolvedWith, scanCalls, List.cons_append, Reporter.play]
  cases r.handle (.begin target) state with
  | mk answer next =>
    cases answer with
    | error error => rfl
    | ok _ =>
      simp only [Reporter.play_append]
      have hscan := hfiles next
      cases hplay : r.play ((lintAll v files).1.map .file) next with
      | mk heard last =>
        rw [hplay] at hscan
        rw [scanFiles] at hscan
        generalize scanFilesWith v.read r files { seen := files.length } next = scanned at hscan ⊢
        obtain ⟨⟨result, events⟩, reached⟩ := scanned
        cases heard with
        | error error =>
          cases hscan
          rfl
        | ok _ =>
          cases hending : (lintAll v files).2 with
          | error error =>
            rw [hending] at hscan
            cases hscan
            rfl
          | ok _ =>
            rw [hending] at hscan
            cases hscan
            simp only [Reporter.play, scanSummary]
            cases r.handle (.finish (.ofReports files.length (lintAll v files).1)) reached with
            | mk answer final => cases answer <;> rfl

/-- **A scan is its calls.** Once the target is resolved, the reporter hears the calls until it
fails, and unless it fails the scan ends as the files decide. -/
theorem scan_of_files {target : Path} {files : List Path} (state : σ)
    (h : (resolve v target).result = .ok files) :
    outcome (scan v r target state) =
      afterCalls ((lintAll v files).2.map fun _ => scanSummary v files)
        (r.play (scanCalls v target files) state) := by
  rw [← outcome_scanResolved, scan]
  simp only [h]
  rfl

/-- A target that cannot be resolved ends a scan before the reporter hears anything. -/
theorem scan_of_error {target : Path} {error : LintError} (state : σ)
    (h : (resolve v target).result = .error error) :
    outcome (scan v r target state) = (.error error, state) := by
  simp only [scan, h]
  rfl

/-- A scan ends well if its target can be resolved, every supported file can be read and the
reporter goes along with every call. -/
theorem outcome_scan_ok_iff {target : Path} {state last : σ} {summary : Summary} :
    outcome (scan v r target state) = (.ok summary, last) ↔
      ∃ files, (resolve v target).result = .ok files ∧ (lintAll v files).2 = .ok () ∧
        r.play (scanCalls v target files) state = (.ok (), last) ∧
        summary = scanSummary v files := by
  cases hresolve : (resolve v target).result with
  | error error => simp [scan_of_error r state hresolve]
  | ok files =>
    rw [scan_of_files r state hresolve]
    cases hplay : r.play (scanCalls v target files) state with
    | mk answer reached =>
      cases answer with
      | error error => simp [afterCalls, hplay]
      | ok _ =>
        cases hending : (lintAll v files).2 with
        | error error => simp [afterCalls, Except.map, hending]
        | ok _ => simp [afterCalls, Except.map, hending, hplay, and_comm, eq_comm]

/-- What a scan that ends well has gone through. -/
theorem scan_of_ok {target : Path} {state : σ} {summary : Summary}
    (h : (scan v r target state).1.result = .ok summary) :
    ∃ files, (resolve v target).result = .ok files ∧ (lintAll v files).2 = .ok () ∧
      r.play (scanCalls v target files) state = (.ok (), (scan v r target state).2) ∧
      summary = scanSummary v files :=
  (outcome_scan_ok_iff r).1 (Prod.ext h rfl)

/-! ## One reporter, many scans -/

/-- What can be done with a reporter: to hand it a call, or to scan a target with it. -/
inductive Use where
  | call (call : Call)
  | scan (v : Volume) (target : Path)

namespace Use

/-- The calls that a use consists of, as far as the reporter goes along. -/
def calls : Use → List Call
  | call c => [c]
  | scan v target =>
    match (resolve v target).result with
    | .ok files => scanCalls v target files
    | .error _ => []

/-- After the counters nothing is handed over. -/
theorem finish_not_mem_dropLast (u : Use) (summary : Summary) :
    .finish summary ∉ u.calls.dropLast := by
  cases u with
  | call c => simp [calls]
  | scan v target =>
    rw [calls]
    cases (resolve v target).result with
    | error error => simp
    | ok files =>
      intro hmem
      dsimp only [scanCalls] at hmem
      cases hending : (lintAll v files).2 with
      | ok _ =>
        rw [hending, List.dropLast_concat] at hmem
        simp at hmem
      | error error =>
        rw [hending, List.append_nil] at hmem
        simpa using List.mem_of_mem_dropLast hmem

/-- So the calls before any other are not the last. -/
theorem finish_not_mem_of_calls {u : Use} {earlier later : List Call} {c : Call}
    (h : u.calls = earlier ++ c :: later) (summary : Summary) : .finish summary ∉ earlier := by
  intro hmem
  refine u.finish_not_mem_dropLast summary ?_
  rw [h, List.dropLast_append_cons]
  exact List.mem_append_left _ hmem

end Use

namespace Reporter

/-- Uses the reporter. What comes of it, good or bad, is told by the state alone. -/
def use (u : Use) (state : σ) : σ :=
  match u with
  | .call c => (r.handle c state).2
  | .scan v target => (scan v r target state).2

/-- Uses the reporter time and again, whether it fails or not. -/
def session (uses : List Use) (state : σ) : σ :=
  uses.foldl (fun state u => r.use u state) state

theorem use_eq_play (u : Use) (state : σ) : r.use u state = (r.play u.calls state).2 := by
  cases u with
  | call c => rw [use, Use.calls, play_singleton]
  | scan v target =>
    rw [use, Use.calls]
    cases hresolve : (resolve v target).result with
    | error error => exact congrArg Prod.snd (scan_of_error r state hresolve)
    | ok files =>
      have hscan := congrArg Prod.snd (scan_of_files r state hresolve)
      cases hplay : r.play (scanCalls v target files) state with
      | mk answer last =>
        rw [hplay] at hscan
        cases answer <;> exact hscan

/-- A change to the state that commutes with every use commutes with sessions. -/
theorem session_commutes (Fit : σ → Prop) (change : σ → σ)
    (hfit : ∀ state u, Fit state → Fit (r.use u state))
    (hchange : ∀ state u, Fit state → r.use u (change state) = change (r.use u state))
    (uses : List Use) {state : σ} (h : Fit state) :
    Fit (r.session uses state) ∧
      r.session uses (change state) = change (r.session uses state) := by
  induction uses generalizing state with
  | nil => exact ⟨h, rfl⟩
  | cons u uses ih =>
    have hrest := ih (hfit state u h)
    rw [← hchange state u h] at hrest
    exact hrest

/-- Hands calls to the reporter one after another, whether they fail or not. -/
def hear (calls : List Call) (state : σ) : σ :=
  calls.foldl (fun state call => (r.handle call state).2) state

/-- In states of this kind, which it never leaves, the reporter fails only at the counters. -/
structure FailsLast (Fit : σ → Prop) : Prop where
  keeps : ∀ call state, Fit state → Fit (r.handle call state).2
  ok : ∀ call state, Fit state → (∀ summary, call ≠ .finish summary) →
    (r.handle call state).1 = .ok ()

variable {r} {Fit : σ → Prop}

/-- So it makes no difference that a failure ends a scan. -/
theorem FailsLast.play (hr : r.FailsLast Fit) {calls : List Call}
    (hlast : ∀ summary, .finish summary ∉ calls.dropLast) {state : σ} (h : Fit state) :
    (r.play calls state).2 = r.hear calls state := by
  induction calls generalizing state with
  | nil => rfl
  | cons call calls ih =>
    cases calls with
    | nil => rw [play_singleton]; rfl
    | cons next calls =>
      rw [List.dropLast_cons_cons] at hlast
      have hok := hr.ok call state h fun summary heq => hlast summary (by simp [heq])
      have hrest := ih (fun summary hmem => hlast summary (List.mem_cons_of_mem _ hmem))
        (hr.keeps call state h)
      rw [Reporter.play, hear, List.foldl_cons, ← hear, ← hrest]
      cases hhandle : r.handle call state with
      | mk answer reached =>
        rw [hhandle] at hok
        cases hok
        rfl

theorem FailsLast.hear (hr : r.FailsLast Fit) (calls : List Call) {state : σ} (h : Fit state) :
    Fit (r.hear calls state) := by
  induction calls generalizing state with
  | nil => exact h
  | cons call calls ih => exact ih (hr.keeps call state h)

/-- And that whatever is done with the reporter comes down to calls. -/
theorem FailsLast.session (hr : r.FailsLast Fit) (uses : List Use) {state : σ} (h : Fit state) :
    r.session uses state = r.hear (uses.flatMap Use.calls) state := by
  induction uses generalizing state with
  | nil => rfl
  | cons u uses ih =>
    have huse : r.use u state = r.hear u.calls state := by
      rw [use_eq_play, hr.play u.finish_not_mem_dropLast h]
    have hrest := ih (hr.hear u.calls h)
    rw [Reporter.session, List.foldl_cons, ← Reporter.session, huse, hrest, List.flatMap_cons,
      Reporter.hear, Reporter.hear, Reporter.hear, List.foldl_append]

end Reporter

end InkLint
