import InkLint.Proofs.CommandLine.Run
import InkLint.Proofs.Compare.Gains
import InkLint.Proofs.Output.Console
import InkLint.Proofs.Scan.Contract
import InkLint.Proofs.Scan.Reread

/-!
# A scan with one file more

A file that is added below the target of a scan shows up in the scan once for each way to its
folder, and changes nothing else: no link leads elsewhere, no fault comes up, every other file keeps
its report (`scan_added_file`). If there is nothing to say about the new file, the console shows the
same as before.

The one thing that can go wrong is that the new file is to be read and a path to it is too long to
be looked up. The walk lists it all the same, and the scan ends there (`scan_added_long`).
-/

namespace InkLint

variable {v w : Volume} {loc : Loc} {name : Name} {content : Bytes}
variable {target p : Path} {ways files newFiles : List Path}

/-! ## The files -/

theorem Volume.Gains.resolve_adds (h : v.Gains w loc name content) (hv : v.WellFormed)
    (hw : w.WellFormed) {top : Loc} (htarget : v.locate target = .ok top)
    (htop : v.hasFolder top = true) (hfiles : (resolve v target).result = .ok files) :
    ∃ newFiles ways, (resolve w target).result = .ok newFiles ∧
      (∀ p, p ∈ ways ↔ p ∈ v.waysTo target loc) ∧ Volume.Adds name ways files newFiles := by
  obtain ⟨dir, ha, rfl, rfl, hwalk⟩ := resolve_folder htarget htop hfiles
  obtain ⟨newFiles, ways, hnew, hways, hadds⟩ := h.walk hv hw ha hwalk
  refine ⟨newFiles, ways, ?_, hways, hadds⟩
  rw [resolve_anchored (h.within.anchored ha), hnew]
  rfl

/-- The new file is read by each path to it that is not too long. -/
theorem Volume.Gains.read_added (h : v.Gains w loc name content) (hw : w.WellFormed)
    (hp : v.locate p = .ok loc) :
    w.read (p.join name) =
      if v.limits.refuses (p.join name) then .error (.os .nameTooLong) else .ok content := by
  obtain ⟨links, harrive⟩ := Volume.locate_eq_ok_iff.1 (h.within.locate hp)
  have hplain := hw.plain h.mem_names
  have hlink : w.hasLink (loc ++ [name]) = false :=
    Volume.not_hasLink_of_hasFile (Volume.hasFile_iff.2 ⟨_, h.added⟩)
  have hfollow : w.follow [] ⟨loc, links⟩ [name] = .ok ⟨loc ++ [name], links⟩ :=
    Volume.follow_entry hplain h.mem_names hlink
  have hjoin : w.arrive (p.join name) =
      if v.limits.refuses (p.join name) then .error (.os .nameTooLong)
      else .ok ⟨loc ++ [name], links⟩ := by
    rw [Volume.arrive_join harrive hplain, hfollow, h.limits]
  rw [Volume.read, Volume.locate, hjoin]
  cases v.limits.refuses (p.join name) with
  | true => rfl
  | false => simp [Except.map, Except.mapError, h.added]

theorem mem_adds (hadds : Volume.Adds name ways files newFiles) (hp : p ∈ newFiles) :
    p ∈ files ∨ ∃ q ∈ ways, p = q.join name := by
  by_cases hadded : p ∈ ways.map (·.join name)
  · obtain ⟨q, hq, rfl⟩ := List.mem_map.1 hadded
    exact .inr ⟨q, hq, rfl⟩
  · rw [hadds.old_eq]
    exact .inl (List.mem_filter.2 ⟨hp, decide_eq_true hadded⟩)

/-! ## The reports -/

/-- The reports with advice, told from the files. -/
theorem flagged_lintAll (h : (lintAll v files).2 = .ok ()) :
    (lintAll v files).1.filter (·.isFlagged) =
      (files.filter fun p => (v.reportOn p).isFlagged && p.isSupported).map v.reportOn := by
  rw [lintAll_eq_map h, List.filter_map, List.filter_filter]
  rfl

/-- Files without advice that are added to others change none of the reports with advice. -/
theorem flagged_of_adds (hadds : Volume.Adds name ways files newFiles)
    (hending : (lintAll v files).2 = .ok ()) (hnewEnding : (lintAll w newFiles).2 = .ok ())
    (hold : ∀ p ∈ files, p.isSupported = true → w.reportOn p = v.reportOn p)
    (hnew : ∀ p ∈ ways, (p.join name).isSupported = true →
      (w.reportOn (p.join name)).isFlagged = false) :
    (lintAll w newFiles).1.filter (·.isFlagged) = (lintAll v files).1.filter (·.isFlagged) := by
  have hfilter : (newFiles.filter fun p => (w.reportOn p).isFlagged && p.isSupported) =
      files.filter fun p => (v.reportOn p).isFlagged && p.isSupported := by
    rw [hadds.old_eq, List.filter_filter]
    refine List.filter_congr fun p hp => ?_
    rcases mem_adds hadds hp with hp | ⟨q, hq, rfl⟩
    · have hnot : p ∉ ways.map (·.join name) := by
        rw [hadds.old_eq] at hp
        exact of_decide_eq_true (List.mem_filter.1 hp).2
      cases hsupported : p.isSupported with
      | false => simp
      | true => simp only [hold p hp hsupported, hnot, not_false_eq_true, decide_true,
          Bool.and_true]
    · have hmem : q.join name ∈ ways.map (·.join name) := List.mem_map_of_mem hq
      cases hsupported : (q.join name).isSupported with
      | false => simp
      | true => simp only [hnew q hq hsupported, hmem, Bool.false_and, not_true_eq_false,
          decide_false, Bool.and_false]
  rw [flagged_lintAll hending, flagged_lintAll hnewEnding, hfilter]
  refine List.map_congr_left fun p hp => ?_
  obtain ⟨hp, hflag⟩ := List.mem_filter.1 hp
  exact hold p hp (Bool.and_eq_true _ _ ▸ hflag).2

/-- The counters go up by the number of ways to the new file, and no others than those of files. -/
theorem scanSummary_of_adds (hadds : Volume.Adds name ways files newFiles) (hname : name.Plain)
    (hending : (lintAll v files).2 = .ok ()) (hnewEnding : (lintAll w newFiles).2 = .ok ())
    (hflagged : (lintAll w newFiles).1.filter (·.isFlagged) =
      (lintAll v files).1.filter (·.isFlagged)) :
    scanSummary w newFiles =
      { scanSummary v files with
        seen := (scanSummary v files).seen + ways.length
        scanned := (scanSummary v files).scanned +
          if Path.isSupported name then ways.length else 0 } := by
  have hseen : newFiles.length = files.length + ways.length := by
    simpa using hadds.perm.length_eq
  have hcount : (ways.map (·.join name)).countP Path.isSupported =
      if Path.isSupported name then ways.length else 0 := by
    rw [List.countP_map]
    cases hsupported : Path.isSupported name with
    | true => simp [List.countP_eq_length, isSupported_join _ hname, hsupported]
    | false => simp [List.countP_eq_zero, isSupported_join _ hname, hsupported]
  have hscanned : (lintAll w newFiles).1.length =
      (lintAll v files).1.length + if Path.isSupported name then ways.length else 0 := by
    rw [lintAll_eq_map hending, lintAll_eq_map hnewEnding, List.length_map, List.length_map,
      ← List.countP_eq_length_filter, ← List.countP_eq_length_filter,
      hadds.perm.countP_eq, List.countP_append, hcount]
  have hcounters : (lintAll w newFiles).1.countP (·.isFlagged) =
      (lintAll v files).1.countP (·.isFlagged) := by
    rw [List.countP_eq_length_filter, List.countP_eq_length_filter, hflagged]
  have hadvice : ((lintAll w newFiles).1.map (·.advisories.length)).sum =
      ((lintAll v files).1.map (·.advisories.length)).sum := by
    rw [← sum_advisories_filter, hflagged, sum_advisories_filter]
  simp only [scanSummary, Summary.ofReports, hseen, hscanned, hcounters, hadvice]

/-! ## The scan -/

/-- The new file is not read, or it can be read by every path to it. -/
def Fits (v : Volume) (name : Name) (ways : List Path) : Prop :=
  Path.isSupported name = true → ∀ p ∈ ways, v.limits.refuses (p.join name) = false

section
variable (h : v.Gains w loc name content) (hw : w.WellFormed)
variable (hadds : Volume.Adds name ways files newFiles)
variable (hways : ∀ p ∈ ways, v.locate p = .ok loc) (hending : (lintAll v files).2 = .ok ())

include h hending in
/-- What was read before is read again. -/
theorem read_of_adds (hp : p ∈ files) (hsupported : p.isSupported = true) :
    w.read p = v.read p := by
  obtain ⟨content, hread⟩ := readable_of_lintAll hending p hp hsupported
  rw [hread, h.within.read hread]

include h hw hadds hways hending

/-- If the new file fits in, every supported file can be read. -/
theorem lintAll_of_adds (hfits : Fits v name ways) : (lintAll w newFiles).2 = .ok () := by
  refine (lintAll_readable fun p hp hsupported => ?_).1
  rcases mem_adds hadds hp with hp | ⟨q, hq, rfl⟩
  · rw [read_of_adds h hending hp hsupported]
    exact readable_of_lintAll hending p hp hsupported
  · rw [isSupported_join _ (hw.plain h.mem_names)] at hsupported
    rw [h.read_added hw (hways q hq), hfits hsupported q hq]
    exact ⟨content, rfl⟩

/-- A new file without advice changes none of the reports with advice. -/
theorem flagged_of_quiet (hfits : Fits v name ways)
    (hquiet : Path.isSupported name = true →
      lintText (.ofPath name) (Utf8.decodeLossy content) = []) :
    (lintAll w newFiles).1.filter (·.isFlagged) = (lintAll v files).1.filter (·.isFlagged) := by
  have hname := hw.plain h.mem_names
  refine flagged_of_adds hadds hending (lintAll_of_adds h hw hadds hways hending hfits) ?_ ?_
  · intro p hp hsupported
    rw [Volume.reportOn, Volume.reportOn, read_of_adds h hending hp hsupported]
  · intro p hp hsupported
    rw [isSupported_join _ hname] at hsupported
    have hread := h.read_added hw (hways p hp)
    rw [hfits hsupported p hp] at hread
    rw [reportOn_of_read hread]
    simp [FileReport.ofContent, FileReport.isFlagged, ofPath_join _ hname, hquiet hsupported]

/-- A new file without advice changes no more than the counters of files. -/
theorem scan_of_quiet (hfiles : (resolve v target).result = .ok files)
    (hnew : (resolve w target).result = .ok newFiles) (colored : Bool) {sink : Sink}
    (hlimit : sink.limit = none) (hflush : sink.flushable = true) (hfits : Fits v name ways)
    (hquiet : Path.isSupported name = true →
      lintText (.ofPath name) (Utf8.decodeLossy content) = []) :
    (scan w (Console.reporter colored) target sink).1.result =
      .ok { scanSummary v files with
        seen := (scanSummary v files).seen + ways.length
        scanned := (scanSummary v files).scanned +
          if Path.isSupported name then ways.length else 0 } ∧
    (scan w (Console.reporter colored) target sink).2 =
      (scan v (Console.reporter colored) target sink).2 := by
  have hnewEnding := lintAll_of_adds h hw hadds hways hending hfits
  have hflagged := flagged_of_quiet h hw hadds hways hending hfits hquiet
  have hold := Console.scan_unlimited colored hlimit hflush hfiles
  have hscan := Console.scan_unlimited colored hlimit hflush hnew
  rw [Console.flatMap_text_scanCalls, hending] at hold
  rw [Console.flatMap_text_scanCalls, hnewEnding] at hscan
  constructor
  · rw [← scanSummary_of_adds hadds (hw.plain h.mem_names) hending hnewEnding hflagged]
    exact congrArg Prod.fst hscan
  · refine (congrArg Prod.snd hscan).trans (Eq.trans ?_ (congrArg Prod.snd hold).symm)
    simp only [Console.complete_congr colored hflagged]

/-- If it does not fit in, linting ends at the first path to it that is too long. -/
theorem lintAll_of_long (hlong : ¬Fits v name ways) :
    ∃ before q after, newFiles = before ++ q.join name :: after ∧ q ∈ ways ∧
      Path.isSupported name = true ∧ v.limits.refuses (q.join name) = true ∧
      (∀ p ∈ ways, p.join name ∈ before → v.limits.refuses (p.join name) = false) ∧
      (lintAll w newFiles).2 = .error (.read (q.join name) (.os .nameTooLong)) := by
  have hname := hw.plain h.mem_names
  have hshort {q : Path} (hq : q ∈ ways) (hread : ∃ bytes, w.read (q.join name) = .ok bytes) :
      v.limits.refuses (q.join name) = false := by
    obtain ⟨bytes, hread⟩ := hread
    rw [h.read_added hw (hways q hq)] at hread
    cases hrefuses : v.limits.refuses (q.join name) with
    | false => rfl
    | true => simp [hrefuses] at hread
  rcases first_unreadable w newFiles with
    hreadable | ⟨before, p, after, fault, rfl, hp, hread, hbefore⟩
  · refine absurd (fun hsupported p hp => hshort hp ?_) hlong
    exact hreadable _ (hadds.mem p hp) (by rw [isSupported_join _ hname, hsupported])
  · rcases mem_adds hadds (List.mem_append_right before (List.mem_cons_self (a := p) (l := after)))
      with hold | ⟨q, hq, rfl⟩
    · obtain ⟨bytes, hbytes⟩ := readable_of_lintAll hending p hold hp
      rw [h.within.read hbytes] at hread
      cases hread
    · have hending := (lintAll_unreadable after hbefore hp hread).1
      rw [isSupported_join _ hname] at hp
      rw [h.read_added hw (hways q hq)] at hread
      cases hrefuses : v.limits.refuses (q.join name) with
      | false => simp [hrefuses] at hread
      | true =>
        simp only [hrefuses, if_true, Except.error.injEq] at hread
        subst hread
        refine ⟨before, q, after, rfl, hq, hp, hrefuses, fun p' hp' hmem => hshort hp' ?_, hending⟩
        exact hbefore _ hmem (by rw [isSupported_join _ hname, hp])

end

/-- **One file more changes nothing else.** Let a scan of a folder go well, and let the volume gain
a file called `name`. Then the target resolves to the same files as before, in the same order, and
besides to the new file, once below each path by which the walk comes to the new file's folder; and
every old file is linted as before. If the new file is not supported, or each path to it can be
looked up, the scan goes well again. If moreover there is nothing to say about it, the output is the
same, and the counters differ by the number of ways to the new file alone. Otherwise the scan ends
at the first path to the new file that is too long. -/
theorem scan_added_file (v w : Volume) (hv : v.WellFormed) (hw : w.WellFormed) (loc : Loc)
    (name : Name) (content : Bytes) (h : v.Gains w loc name content) (target : Path) (top : Loc)
    (htarget : v.locate target = .ok top) (htop : v.hasFolder top = true) (colored : Bool)
    (sink : Sink) (hlimit : sink.limit = none) (hflush : sink.flushable = true) (summary : Summary)
    (hscan : (scan v (Console.reporter colored) target sink).1.result = .ok summary) :
    ∃ files newFiles ways, (resolve v target).result = .ok files ∧
      (resolve w target).result = .ok newFiles ∧
      (∀ p, p ∈ ways ↔ p ∈ v.waysTo target loc) ∧ Volume.Adds name ways files newFiles ∧
      (∀ p ∈ files, lintFile w p = lintFile v p) ∧
      (Fits v name ways →
        ∃ newSummary, (scan w (Console.reporter colored) target sink).1.result = .ok newSummary) ∧
      (Path.isSupported name = false →
        (scan w (Console.reporter colored) target sink).1.result =
          .ok { summary with seen := summary.seen + ways.length } ∧
        (scan w (Console.reporter colored) target sink).2 =
          (scan v (Console.reporter colored) target sink).2) ∧
      (Path.isSupported name = true → lintText (.ofPath name) (Utf8.decodeLossy content) = [] →
        Fits v name ways →
        (scan w (Console.reporter colored) target sink).1.result =
          .ok { summary with
            seen := summary.seen + ways.length, scanned := summary.scanned + ways.length } ∧
        (scan w (Console.reporter colored) target sink).2 =
          (scan v (Console.reporter colored) target sink).2) ∧
      (¬Fits v name ways →
        ∃ before p after, newFiles = before ++ p.join name :: after ∧ p ∈ ways ∧
          Path.isSupported name = true ∧ v.limits.refuses (p.join name) = true ∧
          (∀ q ∈ ways, q.join name ∈ before → v.limits.refuses (q.join name) = false) ∧
          (scan w (Console.reporter colored) target sink).1.result =
            .error (.read (p.join name) (.os .nameTooLong))) := by
  have hout : outcome (scan v (Console.reporter colored) target sink) =
      (.ok summary, (scan v (Console.reporter colored) target sink).2) := Prod.ext hscan rfl
  obtain ⟨files, hfiles, hending, -, rfl⟩ := (outcome_scan_ok_iff _).1 hout
  obtain ⟨newFiles, ways, hnew, hways, hadds⟩ := h.resolve_adds hv hw htarget htop hfiles
  have hlocate (p : Path) (hp : p ∈ ways) : v.locate p = .ok loc := by
    obtain ⟨-, -, -, hp⟩ := (hways p).1 hp
    exact hp
  have hresult := Console.result_unlimited colored hlimit hflush hnew
  refine ⟨files, newFiles, ways, hfiles, hnew, hways, hadds, ?_, ?_, ?_, ?_, ?_⟩
  · exact fun p hp => lintFile_congr (read_of_adds h hending hp)
  · intro hfits
    rw [lintAll_of_adds h hw hadds hlocate hending hfits] at hresult
    exact ⟨_, hresult⟩
  · intro hunsupported
    have hquiet := scan_of_quiet h hw hadds hlocate hending hfiles hnew colored hlimit hflush
      (by simp [Fits, hunsupported]) (by simp [hunsupported])
    simpa only [hunsupported, Bool.false_eq_true, if_false, Nat.add_zero] using hquiet
  · intro hsupported hnone hfits
    have hquiet := scan_of_quiet h hw hadds hlocate hending hfiles hnew colored hlimit hflush hfits
      fun _ => hnone
    simpa only [hsupported, if_true] using hquiet
  · intro hlong
    obtain ⟨before, p, after, heq, hp, hsupported, hrefuses, hbefore, herror⟩ :=
      lintAll_of_long h hw hadds hlocate hending hlong
    rw [herror] at hresult
    exact ⟨before, p, after, heq, hp, hsupported, hrefuses, hbefore, hresult⟩

/-- The folder `r` holds the folder `d` with the script `b.js`, and the link `l` to `d`. -/
def shared : Volume :=
  { root := .folder [("r", .folder [
      ("d", .folder [("b.js", .file (.ok "fetch("))]),
      ("l", .link "d")])]
    limits := .linux }

/-- An empty script `a.js` that is put into `d` is found twice. -/
theorem scan_added_file_shared :
    shared.Gains (shared.put ["r", "d", "a.js"] (.file (.ok []))) ["r", "d"] "a.js" [] ∧
    (scan shared (Console.reporter true) "r" {}).1.result = .ok ⟨2, 2, 2, 2⟩ ∧
    (scan (shared.put ["r", "d", "a.js"] (.file (.ok [])))
      (Console.reporter true) "r" {}).1.result = .ok ⟨4, 4, 2, 2⟩ ∧
    (scan (shared.put ["r", "d", "a.js"] (.file (.ok [])))
      (Console.reporter true) "r" {}).2 = (scan shared (Console.reporter true) "r" {}).2 := by
  have h : shared.Gains (shared.put ["r", "d", "a.js"] (.file (.ok []))) ["r", "d"] "a.js" [] :=
    Volume.gains_put ["r", "d"] _ _ rfl rfl
  have hold : (resolve shared "r").result = .ok ["r/d/b.js", "r/l/b.js"] := by cbv
  have hall : (resolve (shared.put ["r", "d", "a.js"] (.file (.ok []))) "r").result =
      .ok ["r/d/a.js", "r/d/b.js", "r/l/a.js", "r/l/b.js"] := by cbv
  have hscan : (scan shared (Console.reporter true) "r" {}).1.result = .ok ⟨2, 2, 2, 2⟩ := by
    have hlint : lintAll shared ["r/d/b.js", "r/l/b.js"] =
        ([.ofContent "r/d/b.js" "fetch(", .ofContent "r/l/b.js" "fetch("], .ok ()) := by
      rw [lintAll_report (by decide) (show shared.read _ = .ok "fetch(" by cbv),
        lintAll_report (by decide) (show shared.read _ = .ok "fetch(" by cbv)]
      rfl
    rw [Console.result_unlimited true rfl rfl hold, scanSummary, hlint]
    decide
  obtain ⟨files, newFiles, ways, hfiles, hnew, -, hadds, -, -, -, hquiet, -⟩ :=
    scan_added_file shared _ (by decide) (by decide) _ _ _ h "r" ["r"] (by cbv) rfl true {} rfl
      rfl _ hscan
  cases hfiles.symm.trans hold
  cases hnew.symm.trans hall
  have hcount : ways.length = 2 := by
    have hlength := hadds.perm.length_eq
    simp only [List.length_append, List.length_map, List.length_cons, List.length_nil] at hlength
    omega
  have hshort : ∀ p ∈ (["r/d/a.js", "r/d/b.js", "r/l/a.js", "r/l/b.js"] : List Path),
      shared.limits.refuses p = false := by decide
  obtain ⟨hresult, hstate⟩ := hquiet (by decide) (by decide) fun _ p hp => hshort _ (hadds.mem p hp)
  rw [hcount] at hresult
  exact ⟨h, hscan, hresult, hstate⟩

/-- The folder `d` is empty. -/
def vacant : Volume :=
  { root := .folder [("d", .folder [])]
    limits := .linux }

theorem resolve_vacant {n : Nat} (h : n ≤ 4094) :
    (resolve vacant (Volume.slashed n)).result = .ok [] := by
  have hshort : vacant.limits.refuses (Volume.slashed n) = false := by
    simp [vacant, Limits.refuses, Limits.linux]
    omega
  have harrive : vacant.arrive (Volume.slashed n) = .ok ⟨["d"], 0⟩ :=
    Volume.arrive_slashes (by cbv) rfl hshort
  have hroot : vacant.Anchored ⟨⟨["d"], 0⟩, Volume.slashed n⟩ := ⟨harrive, rfl⟩
  have hnames : vacant.names ["d"] = [] := by cbv
  rw [resolve_anchored hroot, hnames, Volume.walk_nil]
  rfl

/-- A script is added to an empty folder. The path to it is too long to be looked up, and so the
scan, which went well before, ends with an error. -/
theorem scan_added_long :
    vacant.WellFormed ∧ CommandLine.scripted.WellFormed ∧
    vacant.Gains CommandLine.scripted ["d"] "a.js" [] ∧
    (scan vacant (Console.reporter false) (Volume.slashed 4092) {}).1.result = .ok {} ∧
    (scan CommandLine.scripted (Console.reporter false) (Volume.slashed 4092) {}).1.result =
      .error (.read ((Volume.slashed 4092).join "a.js") (.os .nameTooLong)) := by
  have hw : CommandLine.scripted.WellFormed := by decide
  have hresolve := CommandLine.resolve_scripted (show 4092 ≤ 4094 by decide)
  have hrefuses := CommandLine.refuses_scripted (show 4091 ≤ 4092 by decide)
  have hread := (read_error_iff hw hresolve (by simp)).2 ⟨_, .tooLong hrefuses, rfl⟩
  have hscript : Path.isSupported ((Volume.slashed 4092).join "a.js") = true := by
    rw [isSupported_join _ (by decide)]
    decide
  refine ⟨by decide, hw, Volume.gains_put (v := vacant) ["d"] _ _ rfl rfl, ?_, ?_⟩
  · rw [Console.result_unlimited false rfl rfl (resolve_vacant (by decide))]
    rfl
  · rw [Console.result_unlimited false rfl rfl hresolve, lintAll_stop hscript hread]
    rfl

end InkLint
