import InkLint.Proofs.Scan.Calls
import InkLint.Proofs.Walk.Listed

/-!
# What a scan does

A scan that ends well has told its reporter of the target, of every supported file once and in
order, and of the counters, and the counters count just that. Below a folder the files are told
apart by their own names: a link is linted as what its name says, with the content it leads to.
-/

namespace InkLint

variable {v : Volume} {files : List Path} {target : Path}

/-- What a file in a folder is linted as follows from its name alone. -/
theorem ofPath_join (p : Path) {name : Name} (hname : name.Plain) :
    Category.ofPath (p.join name) = Category.ofPath name := by
  have hstay : Path.staysPut name = false := by
    simp [Path.staysPut, hname.ne_nil, hname.ne_here]
  unfold Category.ofPath Path.extension?
  rw [Path.fileName?_join p hname.no_slash hstay hname.ne_up]

theorem isSupported_join (p : Path) {name : Name} (hname : name.Plain) :
    (p.join name).isSupported = Path.isSupported name := by
  rw [Path.isSupported, Path.isSupported, ofPath_join p hname]

/-- The paths below a folder that lead to a file whose name has a supported extension. -/
def Volume.supportedBelow (v : Volume) (root : Path) : Set Path :=
  {p | ∃ names name, v.IsPosition root (names ++ [name]) ∧ v.EndsInFile root (names ++ [name]) ∧
    Path.isSupported name = true ∧ p = root.joinAll (names ++ [name])}

/-- Below a folder the supported files that were resolved are all the supported files. -/
theorem encard_supportedBelow (hv : v.WellFormed) {loc : Loc} (hlocate : v.locate target = .ok loc)
    (hfolder : v.hasFolder loc = true) (h : (resolve v target).result = .ok files) :
    (v.supportedBelow target).encard = (files.filter Path.isSupported).length := by
  obtain ⟨dir, ha, rfl, rfl, hwalk⟩ := resolve_folder hlocate hfolder h
  obtain ⟨hnodup, hlisted⟩ := Volume.walk_listed hv ha hwalk
  have hsees (ns : List Name) : v.Sees [] dir ns (.ok none) ↔ _ :=
    Volume.sees_file_iff hv ha (Volume.not_sees_error hv hwalk)
  have hset : v.supportedBelow dir.path = {p | p ∈ files.filter Path.isSupported} := by
    ext p
    simp only [Volume.supportedBelow, Set.mem_ofPred_eq, List.mem_filter, hlisted]
    constructor
    · rintro ⟨names, name, hpos, hfile, hname, rfl⟩
      refine ⟨⟨names ++ [name], (hsees _).2 ⟨hpos, hfile⟩, rfl⟩, ?_⟩
      rw [Path.joinAll_concat, isSupported_join _ (hpos.plain hv name (by simp))]
      exact hname
    · rintro ⟨⟨ns, hns, rfl⟩, hp⟩
      obtain ⟨hpos, hfile⟩ := (hsees ns).1 hns
      obtain ⟨names, name, -, rfl, -⟩ := id hfile
      rw [Path.joinAll_concat, isSupported_join _ (hpos.plain hv name (by simp))] at hp
      exact ⟨names, name, hpos, hfile, hp, rfl⟩
  have hcoe : {p | p ∈ files.filter Path.isSupported} =
      ((files.filter Path.isSupported).toFinset : Set Path) := by
    ext p
    simp
  rw [hset, hcoe, Set.encard_coe_eq_coe_finsetCard,
    List.toFinset_card_of_nodup (hnodup.filter _)]

/-- A scan with a reporter that never fails ends well if the target can be resolved and every
supported file can be read. -/
theorem scan_ok_iff {σ : Type} {r : Reporter σ} (hr : r.Unfailing) (state : σ) (summary : Summary) :
    (scan v r target state).1.result = .ok summary ↔
      ∃ files, (resolve v target).result = .ok files ∧ (lintAll v files).2 = .ok () ∧
        summary = scanSummary v files := by
  constructor
  · intro h
    obtain ⟨files, hfiles, hending, -, hsummary⟩ := scan_of_ok r h
    exact ⟨files, hfiles, hending, hsummary⟩
  · rintro ⟨files, hfiles, hending, hsummary⟩
    have hplay : r.play (scanCalls v target files) state =
        (.ok (), (r.play (scanCalls v target files) state).2) :=
      Prod.ext (hr.play (scanCalls v target files) state) rfl
    exact congrArg Prod.fst
      ((outcome_scan_ok_iff r).2 ⟨files, hfiles, hending, hplay, hsummary⟩)

/-- A scan whose reporter never fails ends as linting its files does. -/
theorem scan_unfailing {σ : Type} {r : Reporter σ} (hr : r.Unfailing) (state : σ)
    (h : (resolve v target).result = .ok files) :
    (scan v r target state).1.result = (lintAll v files).2.map fun _ => scanSummary v files := by
  have hscan := congrArg Prod.fst (scan_of_files r state h)
  have hplay := hr.play (scanCalls v target files) state
  cases hheard : r.play (scanCalls v target files) state with
  | mk answer last =>
    rw [hheard] at hscan hplay
    cases hplay
    exact hscan

/-- Everything that a scan hands to its reporter, if the reporter never fails. -/
theorem scan_recorded {σ : Type} {r : Reporter σ} (hr : r.Unfailing) (state : σ)
    (h : (resolve v target).result = .ok files) :
    (scan v r.recorded target (state, [])).2 =
      ((scan v r target state).2, scanCalls v target files) := by
  have hscan := congrArg Prod.snd (scan_of_files r state h)
  have hrecorded := congrArg Prod.snd (scan_of_files r.recorded (state, []) h)
  have hplay := hr.play (scanCalls v target files) state
  cases hheard : r.play (scanCalls v target files) state with
  | mk answer last =>
    rw [hheard] at hscan hplay
    cases hplay
    rw [r.play_recorded hheard] at hrecorded
    simp only [outcome, afterCalls, List.nil_append] at hscan hrecorded
    rw [hrecorded, hscan]

/-- **What a scan does.** With a reporter that never fails, a scan ends well exactly if its target
can be resolved and every supported file among the resolved ones can be read. Then the reporter has
received the target, a report on each supported file in order, and the counters, and nothing else;
and the counters count the files, the reports, those with advice and the pieces of advice. Below a
folder every file that can be reached is scanned if its own name has a supported extension. -/
theorem scan_exact {σ : Type} (v : Volume) (hv : v.WellFormed) (r : Reporter σ)
    (hr : r.Unfailing) (target : Path) (state : σ) :
    ((∃ summary, (scan v r target state).1.result = .ok summary) ↔
      ∃ files, (resolve v target).result = .ok files ∧
        ∀ p ∈ files, p.isSupported = true → ∃ content, v.read p = .ok content) ∧
    ∀ summary, (scan v r target state).1.result = .ok summary →
      ∃ files reports, (resolve v target).result = .ok files ∧
        List.Forall₂ v.ReportedAs (files.filter Path.isSupported) reports ∧
        (scan v r.recorded target (state, [])).2 =
          ((scan v r target state).2, .begin target :: reports.map .file ++ [.finish summary]) ∧
        summary.seen = files.length ∧
        summary.scanned = reports.length ∧
        summary.flagged = reports.countP (·.isFlagged) ∧
        summary.advisories = (reports.map (·.advisories.length)).sum ∧
        summary.flagged ≤ summary.scanned ∧ summary.scanned ≤ summary.seen ∧
        summary.flagged ≤ summary.advisories ∧ summary.advisories ≤ 3 * summary.flagged ∧
        ∀ loc, v.locate target = .ok loc → v.hasFolder loc = true →
          (v.supportedBelow target).encard = summary.scanned := by
  constructor
  · simp only [scan_ok_iff hr]
    constructor
    · rintro ⟨_, files, hfiles, hending, -⟩
      exact ⟨files, hfiles, readable_of_lintAll hending⟩
    · rintro ⟨files, hfiles, hreadable⟩
      exact ⟨_, files, hfiles, (lintAll_readable hreadable).1, rfl⟩
  · intro summary h
    obtain ⟨files, hfiles, hending, rfl⟩ := (scan_ok_iff hr state summary).1 h
    have hreports := (lintAll_readable (readable_of_lintAll hending)).2
    have hscanned := hreports.length_eq
    refine ⟨files, (lintAll v files).1, hfiles, hreports, ?_, rfl, rfl, rfl, rfl,
      List.countP_le_length, ?_, countP_isFlagged_le _,
      sum_advisories_le fun _ => length_advisories_lintAll_le, ?_⟩
    · rw [scan_recorded hr state hfiles, scanCalls, hending]
    · show (lintAll v files).1.length ≤ files.length
      rw [← hscanned]
      exact List.length_filter_le _ _
    · intro loc hlocate hfolder
      rw [encard_supportedBelow hv hlocate hfolder hfiles, hscanned]
      rfl

/-- The folder `d` holds the file `n.txt` with a call of `fetch`, the link `x.js` to it and the
folder `s` with a stylesheet. -/
def disguised : Volume :=
  { root := .folder [("d", .folder [("x.js", .link "n.txt"),
      ("s", .folder [("b.css", .file (.ok "grid"))]),
      ("n.txt", .file (.ok "fetch("))])]
    limits := .linux }

/-- A reporter that says nothing. -/
def silent : Reporter Unit where
  handle _ _ := (.ok (), ())

theorem resolve_disguised :
    (resolve disguised "d").result = .ok ["d/n.txt", "d/s/b.css", "d/x.js"] := by
  cbv

theorem lintAll_disguised :
    lintAll disguised ["d/n.txt", "d/s/b.css", "d/x.js"] =
      ([.ofContent "d/s/b.css" "grid", .ofContent "d/x.js" "fetch("], .ok ()) := by
  have hstyle : disguised.read "d/s/b.css" = .ok "grid" := by cbv
  have hscript : disguised.read "d/x.js" = .ok "fetch(" := by cbv
  rw [lintAll_skip (by decide), lintAll_report (by decide) hstyle,
    lintAll_report (by decide) hscript]
  rfl

theorem scanSummary_disguised :
    scanSummary disguised ["d/n.txt", "d/s/b.css", "d/x.js"] = ⟨3, 2, 2, 2⟩ := by
  have hstyle : lintText .stylesheet (Utf8.decodeLossy "grid") = [.modernLayout] := by
    decide
  have hscript : lintText .script (Utf8.decodeLossy "fetch(") = [.fetchCalls] := by
    decide
  have hcss : Category.ofPath "d/s/b.css" = .stylesheet := by decide
  have hjs : Category.ofPath "d/x.js" = .script := by decide
  simp [scanSummary, lintAll_disguised, Summary.ofReports, FileReport.ofContent,
    FileReport.isFlagged, hcss, hjs, hstyle, hscript]

theorem scan_disguised :
    (scan disguised silent "d" ()).1.result = .ok ⟨3, 2, 2, 2⟩ :=
  (scan_ok_iff (fun _ _ => rfl) () _).2
    ⟨_, resolve_disguised, by rw [lintAll_disguised], scanSummary_disguised.symm⟩

theorem scan_exact_disguised :
    disguised.WellFormed ∧ silent.Unfailing ∧
    (scan disguised silent "d" ()).1.result = .ok ⟨3, 2, 2, 2⟩ ∧
    (disguised.supportedBelow "d").encard = 2 ∧
    ∃ files reports, (resolve disguised "d").result = .ok files ∧
      List.Forall₂ disguised.ReportedAs (files.filter Path.isSupported) reports ∧
      (scan disguised silent.recorded "d" ((), [])).2 =
        ((), .begin "d" :: reports.map .file ++ [.finish ⟨3, 2, 2, 2⟩]) := by
  have hv : disguised.WellFormed := by decide
  have hr : silent.Unfailing := fun _ _ => rfl
  have hlocate : disguised.locate "d" = .ok ["d"] := by cbv
  obtain ⟨files, reports, hfiles, hreports, hcalls, -, -, -, -, -, -, -, -, hbelow⟩ :=
    (scan_exact disguised hv silent hr "d" ()).2 _ scan_disguised
  exact ⟨hv, hr, scan_disguised, hbelow _ hlocate rfl, files, reports, hfiles, hreports, hcalls⟩

end InkLint
