import InkLint.Proofs.Output.Console
import InkLint.Proofs.Output.Document
import InkLint.Proofs.Scan.Contract

/-!
# Two reports on one scan

A console report shows each file as soon as it is linted, a JSON report collects the files and
writes them at the end, and the counters are kept by the scan. All the same they tell one story:
a reader of the JSON report can write down the console report from its list of files, and finds the
counters by counting in the list (`reports_agree`).
-/

namespace InkLint

/-! ## What a reader of a document knows -/

/-- A file in the list of a document. -/
structure Entry where
  path : String
  category : String
  advisories : List String
deriving DecidableEq, Repr

namespace Entry

/-- How the entry stands in a document. -/
def data (e : Entry) : Json.Data :=
  .object
    [("path", .text e.path),
     ("category", .text e.category),
     ("advisories", .list (e.advisories.map .text))]

/-- How the entry is shown on a console without colours. -/
def shown (e : Entry) : List Char :=
  '\n' :: ("File: " ++ e.path).toList ++
    '\n' :: e.advisories.flatMap fun advice => ("• " ++ advice).toList ++ ['\n']

end Entry

/-- The console report that belongs to a list of files. -/
def listing (entries : List Entry) : List Char :=
  "Kindlefy - scanning for Kindle WebBrowser quirks...".toList ++
    '\n' :: entries.flatMap Entry.shown ++ '\n' :: "Scan complete.".toList ++ ['\n']

/-- What a reader of a document learns about a file. -/
def FileReport.entry (r : FileReport) : Entry :=
  ⟨r.path.display, r.category.key, r.advisories⟩

/-- The entries for all files with advice. -/
def flaggedEntries (reports : List FileReport) : List Entry :=
  (reports.filter (·.isFlagged)).map FileReport.entry

theorem advisories_ne_nil_of_mem {reports : List FileReport} {e : Entry}
    (h : e ∈ flaggedEntries reports) : e.advisories ≠ [] := by
  obtain ⟨r, hr, rfl⟩ := List.mem_map.1 h
  exact List.length_pos_iff.1 (isFlagged_iff.1 (List.mem_filter.1 hr).2)

theorem flagged_ofReports (seen : Nat) (reports : List FileReport) :
    (Summary.ofReports seen reports).flagged = (flaggedEntries reports).length := by
  rw [flaggedEntries, List.length_map, ← List.countP_eq_length_filter]
  rfl

theorem advisories_ofReports (seen : Nat) (reports : List FileReport) :
    (Summary.ofReports seen reports).advisories =
      ((flaggedEntries reports).map (·.advisories.length)).sum := by
  rw [flaggedEntries, List.map_map]
  exact (sum_advisories_filter reports).symm

/-! ## The console -/

namespace Console

theorem entry_eq_shown (r : FileReport) : entry false r = r.entry.shown := by
  simp only [entry, shade_false, Entry.shown, FileReport.entry]

theorem complete_eq_listing (reports : List FileReport) :
    complete false reports = listing (flaggedEntries reports) := by
  have hentries : (reports.filter (!·.advisories.isEmpty)).flatMap (entry false) =
      (flaggedEntries reports).flatMap Entry.shown := by
    rw [flaggedEntries, List.flatMap_map, funext entry_eq_shown]
    rfl
  unfold complete opening listing
  rw [hentries, shade_false, shade_false]

/-- The report on a scan whose files can all be read. -/
theorem play_scanCalls {v : Volume} {files : List Path} (target : Path)
    (h : (lintAll v files).2 = .ok ()) :
    (reporter false).play (scanCalls v target files) {} =
      (.ok (), { content := Utf8.encode (listing (flaggedEntries (lintAll v files).1)) }) := by
  rw [play_unlimited false _ rfl rfl, flatMap_text_scanCalls, h]
  simp only [complete_eq_listing, List.nil_append]

end Console

/-! ## The document -/

namespace Document

/-- Files are collected one by one, those without advice are left out. -/
theorem play_files (reports : List FileReport) (doc : Document) :
    reporter.play (reports.map .file) doc =
      (.ok (), { doc with files := doc.files ++ reports.filter (·.isFlagged) }) := by
  induction reports generalizing doc with
  | nil => simp [Reporter.play]
  | cons report reports ih =>
    cases hflag : report.isFlagged with
    | true =>
      simp only [List.map_cons, Reporter.play, reporter, hflag, if_true] at ih ⊢
      rw [ih, List.filter_cons_of_pos hflag]
      simp
    | false =>
      simp only [List.map_cons, Reporter.play, reporter, hflag] at ih ⊢
      rw [List.filter_cons_of_neg (by simp [hflag])]
      exact ih doc

/-- A scan whose files can all be read comes down to finishing a document on them, with those that
were collected before. -/
theorem play_scanCalls_after {v : Volume} {files : List Path} (target : Path)
    (h : (lintAll v files).2 = .ok ()) (doc : Document) :
    reporter.play (scanCalls v target files) doc =
      reporter.handle (.finish (scanSummary v files))
        { doc with
          target := target
          files := doc.files ++ (lintAll v files).1.filter (·.isFlagged) } := by
  have hbegin : reporter.handle (.begin target) doc = (.ok (), { doc with target := target }) := rfl
  have hfiles := play_files (lintAll v files).1 { doc with target := target }
  rw [scanCalls, h, List.cons_append, Reporter.play, hbegin]
  simp only [Reporter.play_append, hfiles, Reporter.play_singleton]

theorem play_scanCalls {v : Volume} {files : List Path} (target : Path)
    (h : (lintAll v files).2 = .ok ()) :
    reporter.play (scanCalls v target files) {} =
      reporter.handle (.finish (scanSummary v files))
        { target := target, files := (lintAll v files).1.filter (·.isFlagged) } :=
  play_scanCalls_after target h {}

/-- A finished document is read as its target, its files and the counters. -/
theorem readBytes_finish {doc : Document} {summary : Summary} (hlimit : doc.sink.limit = none)
    (hempty : doc.sink.content = []) (h : doc.IsText) :
    Json.Reader.readBytes (reporter.handle (.finish summary) doc).2.sink.content =
      some (doc.data summary) := by
  obtain ⟨text, -, hvalue, hhandle⟩ := finish_of_writes hlimit h summary
  rw [hhandle]
  show Json.Reader.readBytes (doc.sink.content ++ Utf8.encode (text ++ ['\n'])) = _
  rw [hempty, List.nil_append, Json.Reader.readBytes_encode, Json.Reader.readText_eq_some_iff]
  exact text_of_value hvalue

/-- A sink that takes everything and paths that are texts are all that a document needs. -/
theorem scan_of_isText {v : Volume} {target : Path} {files : List Path} {doc : Document}
    (hfiles : (resolve v target).result = .ok files) (hending : (lintAll v files).2 = .ok ())
    (hlimit : doc.sink.limit = none)
    (htext : IsText
      { doc with
        target := target
        files := doc.files ++ (lintAll v files).1.filter (·.isFlagged) }) :
    (scan v reporter target doc).1.result = .ok (scanSummary v files) := by
  obtain ⟨text, -, -, hfinish⟩ := finish_of_writes (by exact hlimit) htext (scanSummary v files)
  rw [← play_scanCalls_after target hending] at hfinish
  exact congrArg Prod.fst ((outcome_scan_ok_iff _).2 ⟨files, hfiles, hending, hfinish, rfl⟩)

/-- Besides what any scan needs, a document needs paths that are texts. -/
theorem scan_ok_iff {v : Volume} {target : Path} {summary : Summary} :
    (scan v reporter target {}).1.result = .ok summary ↔
      ∃ files, (resolve v target).result = .ok files ∧ (lintAll v files).2 = .ok () ∧
        IsText { target := target, files := (lintAll v files).1.filter (·.isFlagged) } ∧
        summary = scanSummary v files := by
  constructor
  · intro h
    obtain ⟨files, hfiles, hending, hplay, hsummary⟩ := scan_of_ok reporter h
    rw [play_scanCalls target hending] at hplay
    exact ⟨files, hfiles, hending, isText_of_finish (congrArg Prod.fst hplay), hsummary⟩
  · rintro ⟨files, hfiles, hending, htext, rfl⟩
    exact scan_of_isText hfiles hending rfl htext

/-- What a scan leaves is the document on its files. -/
theorem scan_snd {v : Volume} {target : Path} {files : List Path}
    (hfiles : (resolve v target).result = .ok files) (hending : (lintAll v files).2 = .ok ()) :
    (scan v reporter target {}).2 =
      (reporter.handle (.finish (scanSummary v files))
        { target := target, files := (lintAll v files).1.filter (·.isFlagged) }).2 := by
  have hscan := reporter.use_eq_play (.scan v target) {}
  rw [Use.calls, hfiles] at hscan
  exact hscan.trans (congrArg Prod.snd (play_scanCalls target hending))

theorem map_fileData (files : List FileReport) :
    files.map fileData = (files.map FileReport.entry).map Entry.data := by
  rw [List.map_map]
  rfl

end Document

/-! ## Both reports -/

/-- **The reports agree.** If a scan with a JSON reporter ends well, so does the same scan with a
console reporter, and with the same counters. The files that are listed in the document are the
files that the console shows, in the same order, under the same paths and with the same advice. Each
of them has some advice, and the counters of the document count these files and all their advice. -/
theorem reports_agree (v : Volume) (target : Path) (summary : Summary)
    (h : (scan v Document.reporter target {}).1.result = .ok summary) :
    (scan v (Console.reporter false) target {}).1.result = .ok summary ∧
    ∃ entries : List Entry,
      Json.Reader.readBytes (scan v Document.reporter target {}).2.sink.content =
        some (.object
          [("target", .text target.display),
           ("files", .list (entries.map Entry.data)),
           ("summary", Document.summaryData summary)]) ∧
      (scan v (Console.reporter false) target {}).2.content = Utf8.encode (listing entries) ∧
      (∀ e ∈ entries, e.advisories ≠ []) ∧
      summary.flagged = entries.length ∧
      summary.advisories = (entries.map (·.advisories.length)).sum := by
  obtain ⟨files, hfiles, hending, htext, rfl⟩ := Document.scan_ok_iff.1 h
  have hconsole := (outcome_scan_ok_iff (Console.reporter false)).2
    ⟨files, hfiles, hending, Console.play_scanCalls target hending, rfl⟩
  refine ⟨congrArg Prod.fst hconsole, flaggedEntries (lintAll v files).1, ?_, ?_, ?_, ?_, ?_⟩
  · rw [Document.scan_snd hfiles hending, Document.readBytes_finish rfl rfl htext, Document.data,
      Document.map_fileData]
    rfl
  · exact congrArg (fun answer => answer.2.content) hconsole
  · intro e he
    exact advisories_ne_nil_of_mem he
  · exact flagged_ofReports _ _
  · exact advisories_ofReports _ _

theorem scan_document_disguised :
    (scan disguised Document.reporter "d" {}).1.result = .ok ⟨3, 2, 2, 2⟩ := by
  have htext : Document.IsText
      { target := "d"
        files := [.ofContent "d/s/b.css" "grid", .ofContent "d/x.js" "fetch("].filter
          (·.isFlagged) } := by
    decide
  rw [Document.scan_ok_iff]
  refine ⟨_, resolve_disguised, ?_, ?_, scanSummary_disguised.symm⟩
  · rw [lintAll_disguised]
  · rw [lintAll_disguised]
    exact htext

/-- Two files with advice, one of them reached through a link. -/
theorem reports_agree_disguised :
    (scan disguised Document.reporter "d" {}).1.result = .ok ⟨3, 2, 2, 2⟩ ∧
    (scan disguised (Console.reporter false) "d" {}).1.result = .ok ⟨3, 2, 2, 2⟩ ∧
    ∃ entries : List Entry, entries.length = 2 ∧
      Json.Reader.readBytes (scan disguised Document.reporter "d" {}).2.sink.content =
        some (.object
          [("target", .text "d"),
           ("files", .list (entries.map Entry.data)),
           ("summary", Document.summaryData ⟨3, 2, 2, 2⟩)]) ∧
      (scan disguised (Console.reporter false) "d" {}).2.content =
        Utf8.encode (listing entries) := by
  obtain ⟨hsame, entries, hread, hshown, -, hlength, -⟩ :=
    reports_agree disguised "d" _ scan_document_disguised
  exact ⟨scan_document_disguised, hsame, entries, hlength.symm, hread, hshown⟩

end InkLint
