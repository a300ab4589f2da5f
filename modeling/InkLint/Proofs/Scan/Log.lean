import InkLint.Proofs.Rules
import InkLint.Proofs.Scan.Contract

/-!
# What a scan logs

Four parts of the program write to the log: the walk, the choice of files, the rules and the scan
itself. Together they tell the story of the scan, file by file up to the one where it stopped, and
whether it came to its end (`scan_log`). Where it did, the log can be counted against the counters.

Which files a scan takes up depends on everything that can go wrong before: a file is taken up if
the reporter has taken the target, and every supported file before it could be read and was reported
(`Reporter.GoneWell`).
-/

namespace InkLint

/-! ## Entries -/

/-- An event as a log shows it. -/
structure LogEntry where
  level : Level
  message : String
  fields : List (String × Value)
deriving DecidableEq, Repr

def Event.entry (e : Event) : LogEntry :=
  ⟨e.level, e.message, e.fields⟩

namespace LogEntry

/-- A walk has found this many files. -/
def collected (root : Path) (count : Nat) : LogEntry :=
  ⟨.debug, "collected files", [("root", .text root.display), ("count", .count count)]⟩

/-- A file is passed over. -/
def skipped (path : Path) : LogEntry :=
  ⟨.trace, "skipping unsupported file", [("path", .text path.display)]⟩

/-- A file is about to be read. -/
def scanning (path : Path) (category : Category) : LogEntry :=
  let label := match category with
    | .script => "script"
    | .typedScript => "typed script"
    | .markup => "markup"
    | .stylesheet => "stylesheet"
    | .unsupported => "unsupported"
  ⟨.debug, "scanning file", [("path", .text path.display), ("category", .text label)]⟩

/-- The rule with this identifier has fired. -/
def matched (id : String) : LogEntry :=
  ⟨.debug, "rule matched", [("rule", .text id)]⟩

/-- A scan has ended well. -/
def finished (target : Path) (seen scanned flagged : Nat) : LogEntry :=
  ⟨.info, "scan finished",
    [("target", .text target.display), ("seen", .count seen), ("scanned", .count scanned),
     ("flagged", .count flagged)]⟩

end LogEntry

/-- What is logged about a file. -/
inductive Volume.Logs (v : Volume) (path : Path) : List LogEntry → Prop
  | skipped : path.isSupported = false → v.Logs path [.skipped path]
  | unread {fault : Fault} :
      path.isSupported = true → v.read path = .error fault →
      v.Logs path [.scanning path (.ofPath path)]
  /-- For each piece of advice the rule that has given it is named. -/
  | linted {content : Bytes} {entries : List LogEntry} :
      path.isSupported = true → v.read path = .ok content →
      List.Forall₂
        (fun advice entry => ∃ rule ∈ Rule.forCategory (.ofPath path),
          rule.fires (Utf8.decodeLossy content) = true ∧ rule.advice = advice ∧
            entry = .matched rule.id)
        (FileReport.ofContent path content).advisories entries →
      v.Logs path (.scanning path (.ofPath path) :: entries)

variable {v : Volume} {path target : Path} {files : List Path}

/-- There is only one way to log a file. -/
theorem Volume.Logs.unique : Relator.RightUnique v.Logs := by
  intro path entries entries' h h'
  cases h with
  | skipped hpath =>
    cases h' with
    | skipped => rfl
    | unread hpath' => exact absurd hpath' (by simp [hpath])
    | linted hpath' => exact absurd hpath' (by simp [hpath])
  | unread hpath hread =>
    cases h' with
    | skipped hpath' => exact absurd hpath (by simp [hpath'])
    | unread => rfl
    | linted _ hread' => exact absurd (hread.symm.trans hread') (by simp)
  | linted hpath hread hentries =>
    cases h' with
    | skipped hpath' => exact absurd hpath (by simp [hpath'])
    | unread _ hread' => exact absurd (hread.symm.trans hread') (by simp)
    | linted _ hread' hentries' =>
      obtain rfl := Except.ok.inj (hread.symm.trans hread')
      -- advice tells the rule it comes from
      refine congrArg _ (Relator.RightUnique.forall₂ ?_ hentries hentries')
      rintro _ _ _ ⟨rule, -, -, rfl, rfl⟩ ⟨rule', -, -, hadvice, rfl⟩
      rw [Rule.advice_injective hadvice]

theorem events_unsupported (h : path.isSupported = false) :
    (lintFile v path).events = [.skipped path] := by
  unfold Path.isSupported at h
  simp [lintFile, lintFileWith, h]

theorem events_unreadable {fault : Fault} (h : path.isSupported = true)
    (hread : v.read path = .error fault) :
    (lintFile v path).events = [.scanning path (.ofPath path)] := by
  unfold Path.isSupported at h
  simp [lintFile, lintFileWith, h, hread]

theorem events_readable {content : Bytes} (h : path.isSupported = true)
    (hread : v.read path = .ok content) :
    (lintFile v path).events =
      .scanning path (.ofPath path) ::
        (lintText (.ofPath path) (Utf8.decodeLossy content)).map .matched := by
  unfold Path.isSupported at h
  simp [lintFile, lintFileWith, h, hread]

theorem entry_scanning (path : Path) (category : Category) :
    (Event.scanning path category).entry = .scanning path category := by
  cases category <;> rfl

/-- The log of one file. -/
def lintLog (v : Volume) (path : Path) : List LogEntry :=
  (lintFile v path).events.map Event.entry

theorem logs_lintLog (v : Volume) (path : Path) : v.Logs path (lintLog v path) := by
  unfold lintLog
  cases hpath : path.isSupported with
  | false =>
    rw [events_unsupported hpath]
    exact .skipped hpath
  | true =>
    cases hread : v.read path with
    | error fault =>
      rw [events_unreadable hpath hread, List.map_singleton, entry_scanning]
      exact .unread hpath hread
    | ok content =>
      rw [events_readable hpath hread, List.map_cons, List.map_map, entry_scanning]
      refine .linted hpath hread ?_
      rw [FileReport.ofContent, List.forall₂_map_left_iff, List.forall₂_map_right_iff]
      refine List.forall₂_same.2 fun rule hrule => ?_
      obtain ⟨hmem, hfires⟩ := List.mem_filter.1 hrule
      exact ⟨rule, hmem, hfires, rfl, rfl⟩

/-! ## The files of a scan -/

section

variable {σ : Type} (r : Reporter σ)

/-- Each supported file could be read, and the reporter has taken the reports. -/
def Reporter.TakesFiles (v : Volume) (files : List Path) (state : σ) : Prop :=
  (lintAll v files).2 = .ok () ∧ (r.play ((lintAll v files).1.map .file) state).1 = .ok ()

/-- Everything has gone well with the files: the reporter has taken the target, each supported file
could be read, and the reporter has taken the reports. -/
def Reporter.GoneWell (v : Volume) (target : Path) (files : List Path) (state : σ) : Prop :=
  (lintAll v files).2 = .ok () ∧
    (r.play (.begin target :: (lintAll v files).1.map .file) state).1 = .ok ()

theorem goneWell_iff {state : σ} :
    r.GoneWell v target files state ↔
      ∃ next, r.handle (.begin target) state = (.ok (), next) ∧ r.TakesFiles v files next := by
  rw [Reporter.GoneWell, Reporter.play]
  cases r.handle (.begin target) state with
  | mk answer next => cases answer <;> simp [Reporter.TakesFiles]

/-- The state of the reporter after a file, unless the scan ends there. -/
def pastFile (v : Volume) (path : Path) (state : σ) : Option σ :=
  match (lintFile v path).result with
  | .error _ => none
  | .ok none => some state
  | .ok (some report) =>
    match r.handle (.file report) state with
    | (.error _, _) => none
    | (.ok (), next) => some next

theorem takesFiles_cons_iff {state : σ} :
    r.TakesFiles v (path :: files) state ↔
      ∃ next, pastFile r v path state = some next ∧ r.TakesFiles v files next := by
  rw [Reporter.TakesFiles, pastFile, lintAll]
  cases (lintFile v path).result with
  | error error => simp
  | ok report =>
    cases report with
    | none => simp [Reporter.TakesFiles]
    | some report =>
      simp only [List.map_cons, Reporter.play]
      cases r.handle (.file report) state with
      | mk answer next => cases answer <;> simp [Reporter.TakesFiles]

/-- The files that are taken up: one after another, until the scan ends at one of them. -/
def takenUp (v : Volume) : List Path → σ → List Path
  | [], _ => []
  | path :: rest, state =>
    path ::
      match pastFile r v path state with
      | none => []
      | some next => takenUp v rest next

theorem takenUp_prefix (v : Volume) (files : List Path) (state : σ) :
    takenUp r v files state <+: files := by
  induction files generalizing state with
  | nil => exact List.prefix_refl _
  | cons path rest ih =>
    rw [takenUp, List.prefix_cons_inj]
    cases pastFile r v path state with
    | none => exact List.nil_prefix
    | some next => exact ih next

/-- A file is taken up if those before it were taken. -/
theorem length_lt_takenUp_iff (v : Volume) (before : List Path) (path : Path) (after : List Path)
    (state : σ) :
    before.length < (takenUp r v (before ++ path :: after) state).length ↔
      r.TakesFiles v before state := by
  induction before generalizing state with
  | nil => simp [takenUp, lintAll, Reporter.play, Reporter.TakesFiles]
  | cons first before ih =>
    rw [List.cons_append, takenUp, takesFiles_cons_iff, List.length_cons, List.length_cons,
      Nat.add_lt_add_iff_right]
    cases pastFile r v first state with
    | none => simp
    | some next => simpa using ih next

theorem takenUp_eq {state : σ} (h : r.TakesFiles v files state) :
    takenUp r v files state = files := by
  induction files generalizing state with
  | nil => rfl
  | cons path rest ih =>
    obtain ⟨next, hpast, hrest⟩ := (takesFiles_cons_iff r).1 h
    rw [takenUp, hpast]
    exact congrArg _ (ih hrest)

/-- The log of the files is the log of those that are taken up. -/
theorem events_scanFiles (v : Volume) (files : List Path) (summary : Summary) (state : σ) :
    (scanFiles v r files summary state).1.events =
      (takenUp r v files state).flatMap fun p => (lintFile v p).events := by
  rw [scanFiles]
  induction files generalizing summary state with
  | nil => rfl
  | cons path rest ih =>
    rw [scanFilesWith, takenUp, pastFile, List.flatMap_cons, lintFile]
    cases (lintFileWith v.read path).result with
    | error error => simp
    | ok report =>
      cases report with
      | none => simp [Logged.after, ih]
      | some report =>
        cases hhandle : r.handle (.file report) state with
        | mk answer next => cases answer <;> simp [hhandle, Logged.after, ih]

/-- The files that a scan takes up, none if the reporter does not take the target. -/
def scanTakes (v : Volume) (target : Path) (files : List Path) (state : σ) : List Path :=
  match r.handle (.begin target) state with
  | (.error _, _) => []
  | (.ok (), state) => takenUp r v files state

theorem scanTakes_prefix (v : Volume) (target : Path) (files : List Path) (state : σ) :
    scanTakes r v target files state <+: files := by
  unfold scanTakes
  split
  · exact List.nil_prefix
  · exact takenUp_prefix r v files _

theorem length_lt_scanTakes_iff (v : Volume) (target : Path) (before : List Path) (path : Path)
    (after : List Path) (state : σ) :
    before.length < (scanTakes r v target (before ++ path :: after) state).length ↔
      r.GoneWell v target before state := by
  rw [scanTakes, goneWell_iff]
  cases r.handle (.begin target) state with
  | mk answer next =>
    cases answer with
    | error error => simp
    | ok _ => simpa using length_lt_takenUp_iff r v before path after next

theorem scanTakes_eq {state : σ} (h : r.GoneWell v target files state) :
    scanTakes r v target files state = files := by
  obtain ⟨next, hbegin, hfiles⟩ := (goneWell_iff r).1 h
  rw [scanTakes, hbegin]
  exact takenUp_eq r hfiles

/-- A scan logs the files that it takes up, and its end if it ends well. -/
theorem events_scanResolved (v : Volume) (target : Path) (files : List Path) (state : σ) :
    (scanResolved v r target files state).1.events =
      (scanTakes r v target files state).flatMap (fun p => (lintFile v p).events) ++
        match (scanResolved v r target files state).1.result with
        | .ok summary => [.finished target summary]
        | .error _ => [] := by
  rw [scanResolved, scanResolvedWith, scanTakes]
  cases r.handle (.begin target) state with
  | mk answer next =>
    cases answer with
    | error error => rfl
    | ok _ =>
      have hevents := events_scanFiles r v files { seen := files.length } next
      dsimp only
      rw [scanFiles] at hevents
      generalize scanFilesWith v.read r files { seen := files.length } next = scanned at hevents ⊢
      obtain ⟨⟨result, events⟩, reached⟩ := scanned
      cases result with
      | error error => simp [← hevents]
      | ok summary =>
        cases hfinish : r.handle (.finish summary) reached with
        | mk answer final => cases answer <;> simp [hfinish, ← hevents]

/-- A scan that ends well has gone well with all its files. -/
theorem goneWell_of_scan {state : σ} {summary : Summary}
    (hfiles : (resolve v target).result = .ok files)
    (h : (scan v r target state).1.result = .ok summary) :
    r.GoneWell v target files state ∧ summary = scanSummary v files := by
  obtain ⟨_, hfiles', hending, hplay, hsummary⟩ := scan_of_ok r h
  obtain rfl := Except.ok.inj (hfiles.symm.trans hfiles')
  refine ⟨⟨hending, ?_⟩, hsummary⟩
  rw [scanCalls, hending, Reporter.play_append] at hplay
  cases hfirst : r.play (.begin target :: (lintAll v files).1.map .file) state with
  | mk answer reached =>
    rw [hfirst] at hplay
    cases answer with
    | error error => cases hplay
    | ok _ => rfl

end

/-! ## Finding the files -/

/-- Whether a path leads to a folder. -/
def Volume.leadsToFolder (v : Volume) (p : Path) : Bool :=
  match v.locate p with
  | .ok loc => v.hasFolder loc
  | .error _ => false

theorem events_resolve (h : (resolve v target).result = .ok files) :
    (resolve v target).events =
      if v.leadsToFolder target then [.collected target files.length] else [] := by
  rw [resolve] at h ⊢
  rw [Volume.leadsToFolder]
  cases hlocate : v.locate target with
  | error fault => simp [hlocate] at h
  | ok loc =>
    cases hfolder : v.hasFolder loc with
    | false => simp [hfolder]
    | true =>
      simp only [hlocate, hfolder, if_true, collectFiles] at h ⊢
      cases hcollect : v.collect target with
      | error fault => simp [hcollect] at h
      | ok found =>
        simp only [hcollect, Except.ok.injEq] at h
        rw [h]

theorem events_unresolved {error : LintError} (h : (resolve v target).result = .error error) :
    (resolve v target).events = [] := by
  rw [resolve] at h ⊢
  cases hlocate : v.locate target with
  | error fault => rfl
  | ok loc =>
    cases hfolder : v.hasFolder loc with
    | false => simp [hlocate, hfolder] at h
    | true =>
      simp only [hlocate, hfolder, if_true, collectFiles] at h ⊢
      cases hcollect : v.collect target with
      | error fault => rfl
      | ok found => simp [hcollect] at h

/-! ## Counting -/

/-- How many entries have this message. -/
def told (message : String) (log : List LogEntry) : Nat :=
  log.countP fun entry => entry.message = message

theorem told_append (message : String) (first rest : List LogEntry) :
    told message (first ++ rest) = told message first + told message rest :=
  List.countP_append

theorem told_unsupported (h : path.isSupported = false) (message : String) :
    told message (lintLog v path) = if message = "skipping unsupported file" then 1 else 0 := by
  rw [lintLog, events_unsupported h]
  simp [told, Event.entry, Event.message, List.countP_cons, eq_comm]

theorem told_readable {content : Bytes} (h : path.isSupported = true)
    (hread : v.read path = .ok content) (message : String) :
    told message (lintLog v path) =
      (if message = "scanning file" then 1 else 0) +
        if message = "rule matched" then (FileReport.ofContent path content).advisories.length
        else 0 := by
  have hmatched (rules : List Rule) : told message (rules.map (Event.entry ∘ Event.matched)) =
      if message = "rule matched" then rules.length else 0 := by
    rw [told, List.countP_map]
    by_cases hmessage : message = "rule matched"
    · simp [hmessage, Event.entry, Event.message, Function.comp_def]
    · simp [hmessage, Event.entry, Event.message, Function.comp_def, eq_comm]
  rw [lintLog, events_readable h hread, List.map_cons, List.map_map, ← List.singleton_append,
    told_append, hmatched]
  simp [told, Event.entry, Event.message, List.countP_cons, FileReport.ofContent, eq_comm]

/-- If all supported files could be read, the log has an entry for each of them and one for each
piece of advice, and all other files were passed over. -/
theorem told_lintAll (h : (lintAll v files).2 = .ok ()) :
    told "rule matched" (files.flatMap (lintLog v)) =
      ((lintAll v files).1.map (·.advisories.length)).sum ∧
    told "scanning file" (files.flatMap (lintLog v)) = (lintAll v files).1.length ∧
    told "skipping unsupported file" (files.flatMap (lintLog v)) + (lintAll v files).1.length =
      files.length := by
  induction files with
  | nil => exact ⟨rfl, rfl, rfl⟩
  | cons path rest ih =>
    simp only [List.flatMap_cons, told_append]
    cases hpath : path.isSupported with
    | false =>
      rw [lintAll_skip hpath] at h ⊢
      obtain ⟨hmatched, hscanning, hskipping⟩ := ih h
      simp only [told_unsupported hpath, hmatched, hscanning, List.length_cons, ← hskipping]
      refine ⟨by simp, by simp, ?_⟩
      simp only [if_true]
      omega
    | true =>
      obtain ⟨content, hread⟩ := readable_of_lintAll h path (by simp) hpath
      rw [lintAll_report hpath hread] at h ⊢
      obtain ⟨hmatched, hscanning, hskipping⟩ := ih h
      simp only [told_readable hpath hread, hmatched, hscanning, List.length_cons, List.map_cons,
        List.sum_cons, ← hskipping]
      refine ⟨by simp, ?_, ?_⟩
      · simp
        omega
      · simp
        omega

/-! ## A whole scan -/

/-- What is logged before the files of a scan. -/
def openingLog (v : Volume) (target : Path) (files : List Path) : List LogEntry :=
  if v.leadsToFolder target then [.collected target files.length] else []

/-- What is logged after the files of a scan. -/
def closingLog (target : Path) : Except LintError Summary → List LogEntry
  | .ok summary => [.finished target summary.seen summary.scanned summary.flagged]
  | .error _ => []

theorem log_scan {σ : Type} (r : Reporter σ) (state : σ)
    (h : (resolve v target).result = .ok files) :
    (scan v r target state).1.events.map Event.entry =
      openingLog v target files ++ (scanTakes r v target files state).flatMap (lintLog v) ++
        closingLog target (scan v r target state).1.result := by
  have hscan : (scan v r target state).1 =
      (scanResolved v r target files state).1.after (resolve v target).events := by
    simp only [scan, h]
  have hopening : (resolve v target).events.map Event.entry = openingLog v target files := by
    rw [events_resolve h, openingLog]
    split <;> rfl
  rw [hscan]
  simp only [Logged.after, List.map_append, hopening, events_scanResolved, List.map_flatMap,
    List.append_assoc]
  cases (scanResolved v r target files state).1.result <;> rfl

/-- What stands before and after the files is not counted with them. -/
theorem told_scan {σ : Type} (r : Reporter σ) (state : σ)
    (h : (resolve v target).result = .ok files) {message : String}
    (hopening : message ≠ "collected files") (hclosing : message ≠ "scan finished") :
    told message ((scan v r target state).1.events.map Event.entry) =
      told message ((scanTakes r v target files state).flatMap (lintLog v)) := by
  have hbefore : told message (openingLog v target files) = 0 := by
    rw [openingLog]
    split <;> simp [told, LogEntry.collected, hopening.symm]
  have hafter : told message (closingLog target (scan v r target state).1.result) = 0 := by
    cases (scan v r target state).1.result <;>
      simp [closingLog, told, LogEntry.finished, hclosing.symm]
  rw [log_scan r state h, told_append, told_append, hbefore, hafter, Nat.zero_add, Nat.add_zero]

/-- **What a scan logs.** If its target cannot be resolved, a scan logs nothing. Otherwise it logs
how many files it found, if the target is a folder; then each file that it takes up, as passed over,
or as scanned with the rules that gave its advice; and at last its end with the counters, if it ends
well and only then. A file is taken up if everything went well before it. In the log of a scan that
ended well, the counters are the numbers of entries. -/
theorem scan_log {σ : Type} (v : Volume) (r : Reporter σ) (target : Path) (state : σ) :
    (∀ error, (resolve v target).result = .error error →
      (scan v r target state).1.result = .error error ∧ (scan v r target state).1.events = []) ∧
    ∀ files log, (resolve v target).result = .ok files →
      (scan v r target state).1.events.map Event.entry = log →
      ∃ taken chunks,
        taken <+: files ∧
        (∀ before path after, files = before ++ path :: after →
          (before.length < taken.length ↔ r.GoneWell v target before state)) ∧
        List.Forall₂ v.Logs taken chunks ∧
        log =
          (if v.leadsToFolder target then [.collected target files.length] else []) ++
            chunks.flatten ++
            (match (scan v r target state).1.result with
              | .ok summary => [.finished target summary.seen summary.scanned summary.flagged]
              | .error _ => []) ∧
        ∀ summary, (scan v r target state).1.result = .ok summary →
          taken = files ∧
          told "rule matched" log = summary.advisories ∧
          told "scanning file" log = summary.scanned ∧
          summary.scanned ≤ summary.seen ∧
          told "skipping unsupported file" log = summary.seen - summary.scanned := by
  constructor
  · intro error herror
    refine ⟨congrArg Prod.fst (scan_of_error r state herror), ?_⟩
    simp only [scan, herror]
    exact events_unresolved herror
  · rintro files _ hfiles rfl
    refine ⟨scanTakes r v target files state,
      (scanTakes r v target files state).map (lintLog v),
      scanTakes_prefix r v target files state, ?_, ?_, ?_, ?_⟩
    · rintro before path after rfl
      exact length_lt_scanTakes_iff r v target before path after state
    · rw [List.forall₂_map_right_iff]
      exact List.forall₂_same.2 fun p _ => logs_lintLog v p
    · rw [log_scan r state hfiles, List.flatMap_def]
      rfl
    · intro summary hok
      obtain ⟨hwell, rfl⟩ := goneWell_of_scan r hfiles hok
      have htaken := scanTakes_eq r hwell
      obtain ⟨hmatched, hscanning, hskipping⟩ := told_lintAll hwell.1
      have htold {message : String} (hopening : message ≠ "collected files")
          (hclosing : message ≠ "scan finished") :
          told message ((scan v r target state).1.events.map Event.entry) =
            told message (files.flatMap (lintLog v)) := by
        rw [told_scan r state hfiles hopening hclosing, htaken]
      have hseen : (scanSummary v files).seen = files.length := rfl
      have hscanned : (scanSummary v files).scanned = (lintAll v files).1.length := rfl
      refine ⟨htaken, (htold (by decide) (by decide)).trans hmatched,
        (htold (by decide) (by decide)).trans hscanning, by omega, ?_⟩
      rw [htold (by decide) (by decide)]
      omega

/-- A reporter that takes as many calls as its state says. -/
def patient : Reporter Nat where
  handle _ left := if left = 0 then (.error (.output .outputFull), 0) else (.ok (), left - 1)

theorem logs_disguised :
    List.Forall₂ disguised.Logs ["d/n.txt", "d/s/b.css", "d/x.js"]
      [[.skipped "d/n.txt"],
       [.scanning "d/s/b.css" .stylesheet, .matched "KFY-CSS-001"],
       [.scanning "d/x.js" .script, .matched "KFY-JS-003"]] := by
  have hstyle : disguised.read "d/s/b.css" = .ok "grid" := by cbv
  have hscript : disguised.read "d/x.js" = .ok "fetch(" := by cbv
  refine .cons (.skipped (by decide)) (.cons ?_ (.cons ?_ .nil))
  · have hadvice : (FileReport.ofContent "d/s/b.css" "grid").advisories =
        [Rule.modernLayout.advice] := by decide
    refine .linted (by decide) hstyle (hadvice ▸ .cons ⟨.modernLayout, ?_, ?_, rfl, rfl⟩ .nil)
    · decide
    · decide
  · have hadvice : (FileReport.ofContent "d/x.js" "fetch(").advisories =
        [Rule.fetchCalls.advice] := by decide
    refine .linted (by decide) hscript (hadvice ▸ .cons ⟨.fetchCalls, ?_, ?_, rfl, rfl⟩ .nil)
    · decide
    · decide

/-- A scan that ends well, with its log; one whose target is not there; and one that ends with its
second file of three since the report on it is not taken. -/
theorem scan_log_disguised :
    (scan disguised silent "d" ()).1.result = .ok ⟨3, 2, 2, 2⟩ ∧
    (scan disguised silent "d" ()).1.events.map Event.entry =
      [⟨.debug, "collected files", [("root", .text "d"), ("count", .count 3)]⟩,
       ⟨.trace, "skipping unsupported file", [("path", .text "d/n.txt")]⟩,
       ⟨.debug, "scanning file",
         [("path", .text "d/s/b.css"), ("category", .text "stylesheet")]⟩,
       ⟨.debug, "rule matched", [("rule", .text "KFY-CSS-001")]⟩,
       ⟨.debug, "scanning file", [("path", .text "d/x.js"), ("category", .text "script")]⟩,
       ⟨.debug, "rule matched", [("rule", .text "KFY-JS-003")]⟩,
       ⟨.info, "scan finished",
         [("target", .text "d"), ("seen", .count 3), ("scanned", .count 2),
          ("flagged", .count 2)]⟩] ∧
    told "rule matched" ((scan disguised silent "d" ()).1.events.map Event.entry) = 2 ∧
    told "scanning file" ((scan disguised silent "d" ()).1.events.map Event.entry) = 2 ∧
    told "skipping unsupported file"
      ((scan disguised silent "d" ()).1.events.map Event.entry) = 1 ∧
    (resolve disguised "x").result = .error (.target "x" (.os .noSuchFile)) ∧
    (scan disguised silent "x" ()).1.events = [] ∧
    ∃ taken chunks, taken.length = 2 ∧ List.Forall₂ disguised.Logs taken chunks ∧
      (scan disguised patient "d" 1).1.events.map Event.entry =
        [.collected "d" 3] ++ chunks.flatten := by
  have hmissing : (resolve disguised "x").result = .error (.target "x" (.os .noSuchFile)) := by
    cbv
  have hfolder : disguised.leadsToFolder "d" = true := by cbv
  obtain ⟨-, hwhole⟩ := scan_log disguised silent "d" ()
  obtain ⟨taken, chunks, -, -, hlogs, hlog, hcounts⟩ := hwhole _ _ resolve_disguised rfl
  obtain ⟨rfl, hmatched, hscanning, -, hskipping⟩ := hcounts _ scan_disguised
  obtain rfl := Volume.Logs.unique.forall₂ hlogs logs_disguised
  rw [hfolder, scan_disguised] at hlog
  refine ⟨scan_disguised, hlog.trans (by decide), hmatched, hscanning, hskipping, hmissing,
    ((scan_log disguised silent "x" ()).1 _ hmissing).2, ?_⟩
  obtain ⟨taken, chunks, -, hreached, hlogs, hlog, hended⟩ :=
    (scan_log disguised patient "d" 1).2 _ _ resolve_disguised rfl
  have hstyle : disguised.read "d/s/b.css" = .ok "grid" := by cbv
  have hfirst : patient.GoneWell disguised "d" ["d/n.txt"] 1 := by
    rw [Reporter.GoneWell, lintAll_skip (by decide)]
    exact ⟨rfl, rfl⟩
  have hsecond : ¬patient.GoneWell disguised "d" ["d/n.txt", "d/s/b.css"] 1 := by
    rw [Reporter.GoneWell, lintAll_skip (by decide), lintAll_report (by decide) hstyle]
    rintro ⟨-, hplay⟩
    cases hplay
  have hlength : taken.length = 2 := by
    have hmore := (hreached _ _ _ (List.singleton_append ..).symm).2 hfirst
    have hless := mt (hreached [_, _] _ [] rfl).1 hsecond
    simp only [List.length_cons, List.length_nil] at hmore hless
    omega
  refine ⟨taken, chunks, hlength, hlogs, ?_⟩
  cases hresult : (scan disguised patient "d" 1).1.result with
  | ok summary =>
    rw [(hended summary hresult).1] at hlength
    cases hlength
  | error error =>
    rw [hresult, hfolder] at hlog
    rw [hlog, List.append_nil]
    rfl

end InkLint
