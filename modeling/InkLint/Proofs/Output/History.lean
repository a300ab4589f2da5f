import InkLint.Proofs.Output.Agreement
import InkLint.Proofs.Output.Bounded

/-!
# What a JSON report remembers

A JSON reporter is never emptied: a target is replaced by the next one, and a file with advice that
was collected stays collected. So a document lists the files of every call since the reporter was
made, whatever became of the documents before it, while its counters are those it was handed just
now. `document_history` says so for every sequence of calls, and for scans one after another: each
document lists what the earlier ones listed and then the files of its own scan, and its counters
count only these last ones.
-/

namespace InkLint

/-! ## What calls tell -/

namespace Call

/-- The target that a call tells of. -/
def target? : Call → Option Path
  | .begin target => some target
  | _ => none

/-- The report that a call tells of, if it has any advice. -/
def flagged? : Call → Option FileReport
  | .file report => if report.isFlagged then some report else none
  | _ => none

end Call

/-- The target that was told last, or the empty path. -/
def lastTarget (calls : List Call) : Path :=
  (calls.reverse.findSome? Call.target?).getD []

/-- The reports with advice, in the order of the calls. -/
def flaggedReports (calls : List Call) : List FileReport :=
  calls.filterMap Call.flagged?

theorem lastTarget_concat (calls : List Call) (call : Call) :
    lastTarget (calls ++ [call]) = call.target?.getD (lastTarget calls) := by
  simp only [lastTarget, List.reverse_append, List.reverse_singleton, List.singleton_append,
    List.findSome?_cons]
  cases call.target? <;> rfl

theorem flaggedReports_append (calls more : List Call) :
    flaggedReports (calls ++ more) = flaggedReports calls ++ flaggedReports more :=
  List.filterMap_append

theorem flaggedReports_files (reports : List FileReport) :
    flaggedReports (reports.map .file) = reports.filter (·.isFlagged) := by
  rw [flaggedReports, List.filterMap_map, ← List.filterMap_eq_filter]
  rfl

/-- The reports with advice on the files that a target stands for. -/
def Volume.flaggedReports (v : Volume) (target : Path) : List FileReport :=
  match (resolve v target).result with
  | .ok files => ((files.filter Path.isSupported).map v.reportOn).filter (·.isFlagged)
  | .error _ => []

theorem flaggedReports_resolved {v : Volume} {target : Path} {files : List Path}
    (hfiles : (resolve v target).result = .ok files) (hending : (lintAll v files).2 = .ok ()) :
    v.flaggedReports target = (lintAll v files).1.filter (·.isFlagged) := by
  rw [Volume.flaggedReports, hfiles, lintAll_eq_map hending]

namespace Document

/-! ## One call -/

variable {doc : Document} {calls : List Call}

theorem target_handle (call : Call) (doc : Document) :
    (reporter.handle call doc).2.target = call.target?.getD doc.target := by
  cases call with
  | begin target => rfl
  | file report => by_cases hflag : report.isFlagged = true <;> simp [reporter, hflag, Call.target?]
  | finish summary => rfl

theorem files_handle (call : Call) (doc : Document) :
    (reporter.handle call doc).2.files = doc.files ++ flaggedReports [call] := by
  cases call with
  | begin target => simp [reporter, flaggedReports, Call.flagged?]
  | file report =>
    by_cases hflag : report.isFlagged = true <;>
      simp [reporter, hflag, flaggedReports, Call.flagged?]
  | finish summary => simp [reporter, flaggedReports, Call.flagged?]

/-- A document is written if it is whole and it fits, line end included. -/
theorem write_ok {sink : Sink} {json : Json} (h : (write sink json).1 = .ok ()) :
    (json.render 0).isWhole = true ∧
      (sink.write (Utf8.encode ((json.render 0).text ++ ['\n']))).1 = .ok () := by
  rw [write] at h
  rw [Utf8.encode_append, Sink.write_append]
  cases hwrite : sink.write (Utf8.encode (json.render 0).text) with
  | mk answer written =>
    rw [hwrite] at h
    cases answer with
    | error fault => cases h
    | ok _ =>
      cases hwhole : (json.render 0).isWhole with
      | false => simp [hwhole] at h
      | true =>
        refine ⟨rfl, ?_⟩
        simp only [hwhole, if_true] at h ⊢
        cases hnewline : written.write (Utf8.encode ['\n']) with
        | mk answer final =>
          rw [hnewline] at h
          cases answer with
          | error fault => cases h
          | ok _ => rfl

/-- The text of the document that finishing writes, with the line end after it. -/
def finalText (target : Path) (files : List FileReport) (summary : Summary) : Bytes :=
  Utf8.encode (((value target files summary).render 0).text ++ ['\n'])

theorem readBytes_finalText (h : doc.IsText) (summary : Summary) :
    Json.Reader.readBytes (finalText doc.target doc.files summary) = some (doc.data summary) := by
  obtain ⟨text, hrender, -, hvalue⟩ := writes_document h summary
  rw [finalText, hrender, Json.Reader.readBytes_encode, Json.Reader.readText_eq_some_iff]
  exact text_of_value hvalue

theorem finish_of_ok {summary : Summary}
    (h : (reporter.handle (.finish summary) doc).1 = .ok ()) :
    (reporter.handle (.finish summary) doc).2 =
      { doc with sink := { doc.sink with
        content := doc.sink.content ++ finalText doc.target doc.files summary } } := by
  obtain ⟨hwhole, hfits⟩ := write_ok h
  rw [handle_finish, write_snd, hwhole, if_pos rfl, Sink.write_of_ok hfits]
  rfl

/-- What finishing adds to the sink: a beginning of the document, and all of it if it succeeds. -/
theorem finish_written (doc : Document) (summary : Summary) :
    ∃ written,
      (reporter.handle (.finish summary) doc).2 =
        { doc with sink := { doc.sink with content := doc.sink.content ++ written } } ∧
      written <+: finalText doc.target doc.files summary ∧
      ((reporter.handle (.finish summary) doc).1 = .ok () →
        doc.IsText ∧ Json.Reader.readBytes written = some (doc.data summary)) := by
  cases hanswer : (reporter.handle (.finish summary) doc).1 with
  | ok _ =>
    have htext := isText_of_finish hanswer
    exact ⟨_, finish_of_ok hanswer, List.prefix_refl _,
      fun _ => ⟨htext, readBytes_finalText htext summary⟩⟩
  | error error =>
    rw [handle_finish, write_snd]
    refine ⟨_, rfl, (List.take_prefix _ _).trans ?_, fun hok => by cases hok⟩
    rw [finalText, Utf8.encode_append, Utf8.encode_append, List.prefix_append_right_inj]
    split
    · exact List.prefix_refl _
    · exact List.nil_prefix

/-! ## Many calls -/

/-- The reporters that have heard some calls. A call may have failed, and between two calls the sink
may have become any other: it was emptied, it failed for a while, it has room again. -/
inductive Heard : List Call → Document → Prop
  | made (sink : Sink) : Heard [] { sink := sink }
  | call {calls : List Call} {doc : Document} :
      Heard calls doc → ∀ call, Heard (calls ++ [call]) (reporter.handle call doc).2
  | outside {calls : List Call} {doc : Document} :
      Heard calls doc → ∀ sink, Heard calls { doc with sink := sink }

/-- The target that was told last and all reports with advice are there, and nothing else is. -/
theorem Heard.state (h : Heard calls doc) :
    doc.target = lastTarget calls ∧ doc.files = flaggedReports calls := by
  induction h with
  | made sink => exact ⟨rfl, rfl⟩
  | call _ call ih =>
    rw [target_handle, files_handle, lastTarget_concat, flaggedReports_append, ih.1, ih.2]
    exact ⟨rfl, rfl⟩
  | outside _ sink ih => exact ih

theorem Heard.hear (h : Heard calls doc) (more : List Call) :
    Heard (calls ++ more) (reporter.hear more doc) := by
  induction more generalizing calls doc with
  | nil => rwa [List.append_nil]
  | cons call more ih =>
    have hrest := ih (h.call call)
    rwa [List.append_assoc, List.singleton_append] at hrest

/-- Only finishing a document can fail. -/
theorem failsLast : reporter.FailsLast fun _ => True where
  keeps _ _ _ := trivial
  ok call doc _ hcall := handle_ok call hcall doc

theorem Heard.session (h : Heard calls doc) (uses : List Use) :
    Heard (calls ++ uses.flatMap Use.calls) (reporter.session uses doc) := by
  rw [failsLast.session uses trivial]
  exact h.hear _

end Document

/-! ## Scans one after another -/

/-- The scans end well, one after another. -/
def Reporter.Completes {σ : Type} (r : Reporter σ) : List (Volume × Path) → σ → Prop
  | [], _ => True
  | (v, target) :: rest, state =>
    (∃ summary, (scan v r target state).1.result = .ok summary) ∧
      r.Completes rest (scan v r target state).2

/-- The scans as uses of a reporter. -/
def scanUses (scans : List (Volume × Path)) : List Use :=
  scans.map fun s => .scan s.1 s.2

/-- A scan that ends well has handed over the reports with advice on all files of its target. -/
theorem flaggedReports_calls {σ : Type} {r : Reporter σ} {v : Volume} {target : Path} {state : σ}
    {summary : Summary} (h : (scan v r target state).1.result = .ok summary) :
    flaggedReports (Use.scan v target).calls = v.flaggedReports target := by
  obtain ⟨files, hfiles, hending, -, -⟩ := scan_of_ok r h
  have hbegin : flaggedReports [.begin target] = [] := rfl
  have hfinish : flaggedReports [.finish (scanSummary v files)] = [] := rfl
  rw [flaggedReports_resolved hfiles hending, Use.calls, hfiles]
  simp only [scanCalls, hending]
  rw [← List.singleton_append, flaggedReports_append, flaggedReports_append, hbegin, hfinish,
    flaggedReports_files, List.nil_append, List.append_nil]

theorem flaggedReports_scanUses {σ : Type} {r : Reporter σ} {scans : List (Volume × Path)}
    {state : σ} (h : r.Completes scans state) :
    flaggedReports ((scanUses scans).flatMap Use.calls) =
      scans.flatMap fun s => s.1.flaggedReports s.2 := by
  induction scans generalizing state with
  | nil => rfl
  | cons s scans ih =>
    obtain ⟨⟨summary, hscan⟩, hrest⟩ := h
    rw [scanUses, List.map_cons, List.flatMap_cons, flaggedReports_append,
      flaggedReports_calls hscan, List.flatMap_cons]
    exact congrArg _ (ih hrest)

namespace Document

/-- The document that a scan ends with lists what was collected before and then its own files, and
its counters count its own files. -/
theorem scan_document {v : Volume} {target : Path} {doc : Document} {summary : Summary}
    (h : (scan v reporter target doc).1.result = .ok summary) :
    (∃ written,
      (scan v reporter target doc).2.sink.content = doc.sink.content ++ written ∧
      Json.Reader.readBytes written =
        some (.object
          [("target", .text target.display),
           ("files", .list ((doc.files ++ v.flaggedReports target).map fileData)),
           ("summary", summaryData summary)])) ∧
    summary.flagged = (v.flaggedReports target).length ∧
    summary.advisories = ((v.flaggedReports target).map (·.advisories.length)).sum := by
  obtain ⟨files, hfiles, hending, hplay, rfl⟩ := scan_of_ok reporter h
  rw [play_scanCalls_after target hending, ← flaggedReports_resolved hfiles hending] at hplay
  obtain ⟨written, hstate, -, hread⟩ := finish_written
    { doc with target := target, files := doc.files ++ v.flaggedReports target }
    (scanSummary v files)
  refine ⟨⟨written, ?_, (hread (congrArg Prod.fst hplay)).2⟩, ?_, ?_⟩
  · rw [hplay] at hstate
    exact congrArg (fun doc => doc.sink.content) hstate
  · rw [flaggedReports_resolved hfiles hending, ← List.countP_eq_length_filter]
    rfl
  · rw [flaggedReports_resolved hfiles hending, sum_advisories_filter]
    rfl

end Document

/-- **What a JSON report remembers.** Whatever calls a JSON reporter has heard, and whatever became
of them and of its sink in between, it holds the target that was told last, or the empty path, and
every report with advice since it was made, once and in order. The document that it finishes has
these as its target and its files, and the counters it is finished with; if finishing fails, what is
written is a beginning of that document. So after scans that ended well the document of one more
lists the files of all of them, one scan after another, and its counters count those of the last scan
alone. -/
theorem document_history :
    (∀ calls doc, Document.Heard calls doc →
      doc.target = lastTarget calls ∧ doc.files = flaggedReports calls ∧
      ∀ summary, ∃ written,
        (Document.reporter.handle (.finish summary) doc).2 =
          { doc with sink := { doc.sink with content := doc.sink.content ++ written } } ∧
        written <+: Document.finalText (lastTarget calls) (flaggedReports calls) summary ∧
        ((Document.reporter.handle (.finish summary) doc).1 = .ok () →
          (lastTarget calls).IsText ∧ (∀ r ∈ flaggedReports calls, r.path.IsText) ∧
          Json.Reader.readBytes written =
            some (.object
              [("target", .text (lastTarget calls).display),
               ("files", .list ((flaggedReports calls).map Document.fileData)),
               ("summary", Document.summaryData summary)]))) ∧
    ∀ sink scans v target summary before,
      Document.reporter.Completes scans { sink := sink } →
      Document.reporter.session (scanUses scans) { sink := sink } = before →
      (scan v Document.reporter target before).1.result = .ok summary →
      (∃ written,
        (scan v Document.reporter target before).2.sink.content = before.sink.content ++ written ∧
        Json.Reader.readBytes written =
          some (.object
            [("target", .text target.display),
             ("files", .list
               (((scans ++ [(v, target)]).flatMap fun s => s.1.flaggedReports s.2).map
                 Document.fileData)),
             ("summary", Document.summaryData summary)])) ∧
      summary.flagged = (v.flaggedReports target).length ∧
      summary.advisories = ((v.flaggedReports target).map (·.advisories.length)).sum := by
  constructor
  · intro calls doc hheard
    obtain ⟨htarget, hfiles⟩ := hheard.state
    refine ⟨htarget, hfiles, fun summary => ?_⟩
    obtain ⟨written, hstate, hprefix, hread⟩ := Document.finish_written doc summary
    rw [← htarget, ← hfiles]
    refine ⟨written, hstate, hprefix, fun hok => ?_⟩
    obtain ⟨htext, hdata⟩ := hread hok
    exact ⟨htext.target, htext.files, hdata⟩
  · intro sink scans v target summary before hscans hbefore hscan
    have hheard := (Document.Heard.made sink).session (scanUses scans)
    rw [hbefore, List.nil_append] at hheard
    have hfiles := hheard.state.2
    rw [flaggedReports_scanUses hscans] at hfiles
    have hdocument := Document.scan_document hscan
    rw [hfiles] at hdocument
    rw [List.flatMap_append, List.flatMap_singleton]
    exact hdocument

/-- A target that is no text and a file with advice, a document that cannot be finished, and then
another target. -/
def interrupted : List Call :=
  [.begin [0xff], .file ⟨"a", .script, ["first"]⟩, .finish {}, .begin "d",
    .file ⟨"b", .script, []⟩, .file ⟨"c", .script, ["last"]⟩]

theorem scan_disguised_again :
    (scan disguised Document.reporter "d"
      (scan disguised Document.reporter "d" {}).2).1.result = .ok ⟨3, 2, 2, 2⟩ := by
  have hending : (lintAll disguised ["d/n.txt", "d/s/b.css", "d/x.js"]).2 = .ok () := by
    rw [lintAll_disguised]
  obtain ⟨files, hfiles, -, htext, -⟩ := Document.scan_ok_iff.1 scan_document_disguised
  obtain rfl := Except.ok.inj (resolve_disguised.symm.trans hfiles)
  rw [Document.scan_snd hfiles hending, ← scanSummary_disguised]
  refine Document.scan_of_isText hfiles hending (Document.limit_handle _ _) ⟨htext.target, ?_⟩
  intro r hr
  rcases List.mem_append.1 hr with hr | hr
  · exact htext.files r hr
  · exact htext.files r hr

theorem document_history_twice :
    (∃ doc, Document.Heard interrupted doc ∧
      (Document.reporter.handle (.finish ⟨3, 2, 1, 1⟩) doc).1 = .ok () ∧
      ∃ written,
        (Document.reporter.handle (.finish ⟨3, 2, 1, 1⟩) doc).2.sink.content =
          doc.sink.content ++ written ∧
        Json.Reader.readBytes written =
          some (.object
            [("target", .text "d"),
             ("files", .list
               ([⟨"a", .script, ["first"]⟩, ⟨"c", .script, ["last"]⟩].map Document.fileData)),
             ("summary", Document.summaryData ⟨3, 2, 1, 1⟩)])) ∧
    Document.reporter.Completes [(disguised, "d")] {} ∧
    (scan disguised Document.reporter "d"
      (scan disguised Document.reporter "d" {}).2).1.result = .ok ⟨3, 2, 2, 2⟩ ∧
    (disguised.flaggedReports "d").length = 2 ∧
    ∃ written,
      (scan disguised Document.reporter "d"
        (scan disguised Document.reporter "d" {}).2).2.sink.content =
          (scan disguised Document.reporter "d" {}).2.sink.content ++ written ∧
      Json.Reader.readBytes written =
        some (.object
          [("target", .text "d"),
           ("files", .list
             ((disguised.flaggedReports "d" ++ disguised.flaggedReports "d").map
               Document.fileData)),
           ("summary", Document.summaryData ⟨3, 2, 2, 2⟩)]) := by
  obtain ⟨hcalls, hscans⟩ := document_history
  have hshown : Path.display "d" = "d" := by decide
  constructor
  · have hheard := (Document.Heard.made {}).session (interrupted.map .call)
    rw [show (interrupted.map Use.call).flatMap Use.calls = interrupted from rfl] at hheard
    obtain ⟨htarget, hfiles, hfinish⟩ := hcalls _ _ hheard
    obtain ⟨written, hstate, -, hread⟩ := hfinish ⟨3, 2, 1, 1⟩
    have hlimit := (Document.session_cut 0 (interrupted.map .call)).1
    have htext : (Document.reporter.session (interrupted.map .call) {}).IsText := by
      constructor
      · rw [htarget]
        decide
      · rw [hfiles]
        decide
    obtain ⟨_, -, -, hhandle⟩ := Document.finish_of_writes hlimit htext ⟨3, 2, 1, 1⟩
    have hok := congrArg Prod.fst hhandle
    refine ⟨_, hheard, hok, written, by rw [hstate], ?_⟩
    rw [(hread hok).2.2]
    rfl
  · have hcompletes : Document.reporter.Completes [(disguised, "d")] {} :=
      ⟨⟨_, scan_document_disguised⟩, trivial⟩
    obtain ⟨⟨written, hcontent, hread⟩, hflagged, -⟩ :=
      hscans {} _ disguised "d" _ _ hcompletes rfl scan_disguised_again
    simp only [hshown, List.singleton_append, List.flatMap_cons, List.flatMap_nil,
      List.append_nil] at hread
    exact ⟨hcompletes, scan_disguised_again, hflagged.symm, written, hcontent, hread⟩

end InkLint
