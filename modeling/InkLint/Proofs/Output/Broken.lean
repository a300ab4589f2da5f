import InkLint.Proofs.Output.Agreement
import InkLint.Proofs.Scan.Abort

/-!
# Documents that break off

A path that is no text has no place in a document, so a document breaks off where such a path would
stand. Only the target and the files with advice are written, so no other path can do that
(`finish_broken`). What is written up to the break does not depend on the path that is missing: it
is what any document begins with that has some text in its place.
-/

namespace InkLint

namespace Json

/-! ## Drafts -/

theorem append_of_broken {a : Draft} (h : a.isWhole = false) (b : Draft) : a ++ b = a := by
  rw [Draft.append_def]
  simp [h]

theorem eq_of_isWhole {a : Draft} (h : a.isWhole = true) : a = ⟨a.text, true⟩ := by
  rw [← h]

theorem text_append_append (s t : List Char) (d : Draft) :
    (⟨s, true⟩ : Draft) ++ (⟨t, true⟩ ++ d) = ⟨s ++ t, true⟩ ++ d := by
  rw [← Draft.append_assoc, draft_append]

/-- One draft stands at the beginning of another. -/
def Begins (d front : Draft) : Prop :=
  ∃ rest, d = front ++ rest

variable {d front : Draft} {depth : Nat} {json : Json} {items : List Json}
variable {fields : List (String × Json)}

theorem Begins.refl (d : Draft) : Begins d d := by
  refine ⟨⟨[], true⟩, ?_⟩
  rw [Draft.append_def]
  by_cases h : d.isWhole = true
  · simp [h, ← eq_of_isWhole h]
  · simp [h]

theorem Begins.append (h : Begins d front) (e : Draft) : Begins (d ++ e) front := by
  obtain ⟨rest, rfl⟩ := h
  exact ⟨rest ++ e, Draft.append_assoc ..⟩

theorem Begins.behind (a : Draft) (h : Begins d front) : Begins (a ++ d) (a ++ front) := by
  obtain ⟨rest, rfl⟩ := h
  exact ⟨rest, (Draft.append_assoc ..).symm⟩

/-! ## The beginnings of values -/

theorem begins_field (key : String) (fields : List (String × Json))
    (h : Begins (json.render depth) front) :
    Begins (renderFields depth ((key, json) :: fields))
      (⟨newline depth ++ quote key ++ [':', ' '], true⟩ ++ front) := by
  rw [renderFields]
  exact ((h.behind _).append _).append _

/-- A field that can be written stands whole in front of the others. -/
theorem begins_later_field (key : String) {text : List Char} (hfields : fields ≠ [])
    (hwhole : json.render depth = ⟨text, true⟩) (h : Begins (renderFields depth fields) front) :
    Begins (renderFields depth ((key, json) :: fields))
      (⟨newline depth ++ quote key ++ [':', ' '] ++ text ++ [','], true⟩ ++ front) := by
  have hmore : fields.isEmpty = false := by simpa using hfields
  rw [renderFields, hwhole, hmore, draft_append, draft_append]
  exact h.behind _

theorem begins_object (hfields : fields ≠ []) (h : Begins (renderFields (depth + 1) fields) front) :
    Begins ((object fields).render depth) (⟨['\x7b'], true⟩ ++ front) := by
  rw [render, if_neg (by simpa using hfields)]
  exact (h.behind _).append _

theorem begins_list (hitems : items ≠ []) (h : Begins (renderItems (depth + 1) items) front) :
    Begins ((list items).render depth) (⟨['['], true⟩ ++ front) := by
  rw [render, if_neg (by simpa using hitems)]
  exact (h.behind _).append _

/-- Items that can be written stand whole in front of the others, a comma after each. -/
theorem begins_item {before : List Json} (after : List Json)
    (hbefore : ∀ x ∈ before, (x.render depth).isWhole = true)
    (h : Begins (json.render depth) front) :
    Begins (renderItems depth (before ++ json :: after))
      (⟨before.flatMap (fun x => newline depth ++ (x.render depth).text ++ [',']) ++ newline depth,
        true⟩ ++ front) := by
  induction before with
  | nil =>
    rw [List.nil_append, renderItems]
    exact ((h.behind _).append _).append _
  | cons x before ih =>
    have hx := eq_of_isWhole (hbefore x (by simp))
    have hmore : (before ++ json :: after).isEmpty = false := by simp
    have hrest := ih fun y hy => hbefore y (List.mem_cons_of_mem _ hy)
    have hbehind := hrest.behind ⟨newline depth ++ (x.render depth).text ++ [','], true⟩
    rw [text_append_append, ← List.append_assoc] at hbehind
    rw [List.cons_append, renderItems, hmore, hx, draft_append, draft_append, List.flatMap_cons]
    exact hbehind

end Json

/-- A path that is a text is kept, and any text may stand in place of another one. -/
structure Path.Mends (p q : Path) : Prop where
  isText : q.IsText
  kept : p.IsText → q = p

/-- The report on a file under the path that stands in its place. -/
def FileReport.Mends (r s : FileReport) : Prop :=
  ∃ path, r.path.Mends path ∧ s = { r with path := path }

namespace Document

open Json (Begins quote newline)

/-! ## Up to a path -/

/-- A document up to its target. -/
def upToTarget : List Char :=
  "\x7b\n  \"target\": ".toList

/-- A document up to the path of the file that comes after the given ones. -/
def upToPath (target : Path) (before : List FileReport) : List Char :=
  upToTarget ++ quote target.display ++ ",\n  \"files\": [".toList ++
    before.flatMap (fun r => "\n    ".toList ++ ((fileValue r).render 2).text ++ [',']) ++
    "\n    \x7b\n      \"path\": ".toList

variable {target : Path} {before after : List FileReport} {r : FileReport}

theorem render_path {p : Path} (h : p.IsText) (depth : Nat) :
    (pathValue p).render depth = ⟨quote p.display, true⟩ := by
  obtain ⟨t, hrender, hlaid, -⟩ := writes_path h depth
  cases hlaid
  exact hrender

theorem render_path_broken {p : Path} (h : ¬p.IsText) (depth : Nat) :
    (pathValue p).render depth = .broken := by
  have hnone : Utf8.decode? p = none := by
    rw [Path.isText_iff] at h
    simpa using h
  rw [pathValue, hnone, Json.render]

theorem begins_target (target : Path) (files : List FileReport) (summary : Summary) :
    Begins ((value target files summary).render 0)
      (⟨upToTarget, true⟩ ++ (pathValue target).render 1) := by
  have htarget := Json.begins_object (List.cons_ne_nil _ _)
    (Json.begins_field "target"
      [("files", .list (files.map fileValue)), ("summary", summaryValue summary)]
      (Begins.refl ((pathValue target).render 1)))
  rw [← Draft.append_assoc, Json.draft_append] at htarget
  exact htarget

theorem upToPath_eq (target : Path) (before : List FileReport) :
    upToPath target before =
      upToTarget ++ quote target.display ++ [','] ++
        (newline 1 ++ quote "files" ++ [':', ' '] ++ ['['] ++
          ((before.map fileValue).flatMap (fun x => newline 2 ++ (x.render 2).text ++ [',']) ++
            newline 2 ++ ['\x7b'] ++ (newline 3 ++ quote "path" ++ [':', ' ']))) := by
  have hfiles : ",\n  \"files\": [".toList =
      ',' :: (newline 1 ++ quote "files" ++ [':', ' '] ++ ['[']) := by
    decide
  have hpath : "\n    \x7b\n      \"path\": ".toList =
      newline 2 ++ ['\x7b'] ++ (newline 3 ++ quote "path" ++ [':', ' ']) := by
    decide
  have hline : "\n    ".toList = newline 2 := by decide
  rw [upToPath, hfiles, hpath, hline, List.flatMap_map]
  simp only [List.append_assoc, List.cons_append, List.nil_append]

theorem begins_path (htarget : target.IsText) (hbefore : ∀ r ∈ before, r.path.IsText)
    (r : FileReport) (after : List FileReport) (summary : Summary) :
    Begins ((value target (before ++ r :: after) summary).render 0)
      (⟨upToPath target before, true⟩ ++ (pathValue r.path).render 3) := by
  have hwhole : ∀ x ∈ before.map fileValue, (x.render 2).isWhole = true := by
    intro x hx
    obtain ⟨r, hr, rfl⟩ := List.mem_map.1 hx
    obtain ⟨t, hrender, -⟩ := writes_file (hbefore r hr) 2
    rw [hrender]
  have hfile : Begins ((fileValue r).render 2) _ :=
    Json.begins_object (List.cons_ne_nil _ _)
      (Json.begins_field "path" _ (Begins.refl ((pathValue r.path).render 3)))
  have hlist := Json.begins_list (by simp) (Json.begins_item (after.map fileValue) hwhole hfile)
  have hvalue := Json.begins_object (by simp)
    (Json.begins_later_field "target" (by simp) (render_path htarget 1)
      (Json.begins_field "files" [("summary", summaryValue summary)] hlist))
  have hhead : upToTarget = ['\x7b'] ++ (newline 1 ++ quote "target" ++ [':', ' ']) := by decide
  rw [value, List.map_append, List.map_cons, upToPath_eq, hhead]
  simpa only [Json.text_append_append, List.append_assoc] using hvalue

/-! ## Finishing -/

/-- The document after some bytes were written. -/
def adding (doc : Document) (bytes : Bytes) : Document :=
  { doc with sink := { doc.sink with content := doc.sink.content ++ bytes } }

variable {doc fixed : Document} {summary : Summary} {front : List Char}

/-- A document that breaks off is written up to there. -/
theorem finish_of_break (hsink : doc.sink.limit = none)
    (hbegins : Begins ((value doc.target doc.files summary).render 0) (⟨front, true⟩ ++ .broken)) :
    reporter.handle (.finish summary) doc =
      (.error (.document .pathNotText), doc.adding (Utf8.encode front)) := by
  obtain ⟨rest, hrender⟩ := hbegins
  have hbreak : (⟨front, true⟩ : Draft) ++ .broken = ⟨front, false⟩ := by
    rw [Draft.broken, Json.draft_append, List.append_nil]
  rw [hbreak, Json.append_of_broken rfl] at hrender
  simp [reporter, write, hrender, Sink.write_unlimited hsink, adding]

/-- A document that does not break off is written with what it begins with. -/
theorem finish_of_begins {path : List Char} (hsink : doc.sink.limit = none) (htext : doc.IsText)
    (hbegins : Begins ((value doc.target doc.files summary).render 0)
      (⟨front, true⟩ ++ ⟨path, true⟩)) :
    ∃ rest, reporter.handle (.finish summary) doc =
      (.ok (), doc.adding (Utf8.encode (front ++ path ++ rest))) := by
  obtain ⟨⟨rest, isWhole⟩, hrender⟩ := hbegins
  have hwhole := (isWhole_render_value doc summary).2 htext
  rw [Json.draft_append, Json.draft_append] at hrender
  rw [hrender] at hwhole
  obtain rfl : isWhole = true := hwhole
  refine ⟨rest ++ ['\n'], ?_⟩
  rw [finish_of_render hsink hrender, adding, List.append_assoc (front ++ path)]

theorem finish_ok_iff (hsink : doc.sink.limit = none) :
    (reporter.handle (.finish summary) doc).1 = .ok () ↔ doc.IsText := by
  constructor
  · exact isText_of_finish
  · intro h
    obtain ⟨text, -, -, hfinish⟩ := finish_of_writes hsink h summary
    rw [hfinish]

/-! ## Documents with texts in place of the other paths -/

/-- The document with texts in place of all paths that are none. -/
structure Mends (doc fixed : Document) : Prop where
  sink : fixed.sink = doc.sink
  target : doc.target.Mends fixed.target
  files : List.Forall₂ FileReport.Mends doc.files fixed.files

theorem isText_of_mends {files fixed : List FileReport}
    (h : List.Forall₂ FileReport.Mends files fixed) : ∀ r ∈ fixed, r.path.IsText := by
  induction h with
  | nil => simp
  | cons hfirst _ ih =>
    obtain ⟨path, hpath, rfl⟩ := hfirst
    exact List.forall_mem_cons.2 ⟨hpath.isText, ih⟩

theorem Mends.isText (h : doc.Mends fixed) : fixed.IsText :=
  ⟨h.target.isText, isText_of_mends h.files⟩

/-- Files whose paths are texts stay where they are. -/
theorem eq_append_of_mends {files : List FileReport} (hbefore : ∀ r ∈ before, r.path.IsText)
    (h : List.Forall₂ FileReport.Mends (before ++ r :: after) files) :
    ∃ s others, r.Mends s ∧ files = before ++ s :: others := by
  induction before generalizing files with
  | nil =>
    cases h with
    | cons hr _ => exact ⟨_, _, hr, rfl⟩
  | cons first before ih =>
    rw [List.forall_mem_cons] at hbefore
    cases h with
    | cons hfirst hothers =>
      obtain ⟨path, hpath, rfl⟩ := hfirst
      obtain rfl := hpath.kept hbefore.1
      obtain ⟨s, others, hs, rfl⟩ := ih hbefore.2 hothers
      exact ⟨s, others, hs, rfl⟩

/-- One file is the first whose path is no text, unless all are texts. -/
theorem exists_first_not_isText {files : List FileReport} (h : ¬∀ r ∈ files, r.path.IsText) :
    ∃ before r after, files = before ++ r :: after ∧ (∀ r ∈ before, r.path.IsText) ∧
      ¬r.path.IsText := by
  induction files with
  | nil => simp at h
  | cons first files ih =>
    by_cases hfirst : first.path.IsText
    · rw [List.forall_mem_cons, not_and] at h
      obtain ⟨before, r, after, rfl, hbefore, hr⟩ := ih (h hfirst)
      exact ⟨first :: before, r, after, rfl, List.forall_mem_cons.2 ⟨hfirst, hbefore⟩, hr⟩
    · exact ⟨[], first, files, rfl, by simp, hfirst⟩

theorem exists_mends (doc : Document) : ∃ fixed, doc.Mends fixed := by
  let mend (p : Path) : Path := if p.IsText then p else []
  have hmend (p : Path) : p.Mends (mend p) := by
    by_cases h : p.IsText
    · simp only [mend, if_pos h]
      exact ⟨h, fun _ => rfl⟩
    · simp only [mend, if_neg h]
      exact ⟨⟨"", rfl⟩, fun htext => absurd htext h⟩
  refine ⟨⟨doc.sink, mend doc.target, doc.files.map fun r => { r with path := mend r.path }⟩,
    rfl, hmend _, ?_⟩
  rw [List.forall₂_map_right_iff, List.forall₂_same]
  exact fun r _ => ⟨_, hmend r.path, rfl⟩

/-- Where a document breaks off: what is written by then, and which path would come next. -/
inductive Breaks (doc : Document) : List Char → (Document → Option Path) → Prop
  /-- The target is no text. -/
  | target : ¬doc.target.IsText → Breaks doc upToTarget fun d => some d.target
  /-- The target is a text, and this file is the first whose path is none. -/
  | file {before after : List FileReport} {bad : FileReport} :
      doc.target.IsText → doc.files = before ++ bad :: after → (∀ r ∈ before, r.path.IsText) →
      ¬bad.path.IsText →
      Breaks doc (upToPath doc.target before) fun d => d.files[before.length]?.map (·.path)

theorem exists_breaks (h : ¬doc.IsText) : ∃ front place, doc.Breaks front place := by
  by_cases htarget : doc.target.IsText
  · have hfiles : ¬∀ r ∈ doc.files, r.path.IsText := fun hfiles => h ⟨htarget, hfiles⟩
    obtain ⟨before, bad, after, hsplit, hbefore, hbad⟩ := exists_first_not_isText hfiles
    exact ⟨_, _, .file htarget hsplit hbefore hbad⟩
  · exact ⟨_, _, .target htarget⟩

variable {place : Document → Option Path}

theorem Breaks.begins (h : doc.Breaks front place) (summary : Summary) :
    Begins ((value doc.target doc.files summary).render 0) (⟨front, true⟩ ++ .broken) := by
  cases h with
  | target htarget =>
    rw [← render_path_broken htarget 1]
    exact begins_target doc.target doc.files summary
  | file htarget hsplit hbefore hbad =>
    rw [← render_path_broken hbad 3, hsplit]
    exact begins_path htarget hbefore _ _ summary

/-- Another document begins in the same way, with its own path at that place. -/
theorem Breaks.begins_mended (h : doc.Breaks front place) (hmends : doc.Mends fixed)
    (summary : Summary) :
    ∃ path, place fixed = some path ∧
      Begins ((value fixed.target fixed.files summary).render 0)
        (⟨front, true⟩ ++ ⟨quote path.display, true⟩) := by
  cases h with
  | target _ =>
    refine ⟨fixed.target, rfl, ?_⟩
    rw [← render_path hmends.target.isText 1]
    exact begins_target fixed.target fixed.files summary
  | @file before after bad htarget hsplit hbefore _ =>
    have hfiles := hmends.files
    rw [hsplit] at hfiles
    obtain ⟨good, others, ⟨path, hpath, rfl⟩, hfixed⟩ := eq_append_of_mends hbefore hfiles
    refine ⟨path, by simp [hfixed], ?_⟩
    rw [← render_path hpath.isText 3, hmends.target.kept htarget, hfixed]
    exact begins_path htarget hbefore _ _ summary

/-! ## Scans -/

theorem exists_afterCalls_ok_iff {σ : Type} {own : Summary} {answer : Except LintError Unit × σ} :
    (∃ summary, (afterCalls (.ok own) answer).1 = .ok summary) ↔ answer.1 = .ok () := by
  obtain ⟨(_ | _), state⟩ := answer <;> simp [afterCalls]

/-- When all files can be read, a scan needs only that the target and the paths of the files with
advice are texts. -/
theorem scanResolvedWith_ok_iff {read : Access} {files : List Path} {reports : List FileReport}
    (hsink : doc.sink.limit = none) (target : Path)
    (hreported : List.Forall₂ read.ReportedAs (files.filter Path.isSupported) reports) :
    (∃ summary, (scanResolvedWith read reporter target files doc).1.result = .ok summary) ↔
      target.IsText ∧ (∀ r ∈ doc.files, r.path.IsText) ∧
        ∀ r ∈ reports, r.isFlagged = true → r.path.IsText := by
  have hbegin : reporter.handle (.begin target) doc = (.ok (), { doc with target := target }) := rfl
  have htakes : reporter.Takes read files { doc with target := target } reports _ :=
    ⟨hreported, play_files reports _⟩
  have hscan := outcome_scanResolvedWith read files hbegin
  rw [htakes.scanFilesWith_eq] at hscan
  have hresult := congrArg Prod.fst hscan
  dsimp only [outcome] at hresult
  simp only [hresult, exists_afterCalls_ok_iff]
  rw [finish_ok_iff (by exact hsink)]
  constructor
  · rintro ⟨htarget, hfiles⟩
    rw [List.forall_mem_append] at hfiles
    exact ⟨htarget, hfiles.1, fun r hr hflag => hfiles.2 r (List.mem_filter.2 ⟨hr, hflag⟩)⟩
  · rintro ⟨htarget, hfiles, hflagged⟩
    refine ⟨htarget, List.forall_mem_append.2 ⟨hfiles, fun r hr => ?_⟩⟩
    rw [List.mem_filter] at hr
    exact hflagged r hr.1 hr.2

/-- **A document breaks off at the first path that is no text.** On a sink that takes everything,
finishing succeeds exactly if the target and the paths of the collected files are texts. Otherwise
it fails for that reason, and what it has written is the beginning of a document: up to the target
if that is no text, else up to the path of the first file whose path is none. Whatever texts are put
in place of all these paths, the document can then be written, and it is what was written before,
that path in quotes, and the rest. The collected files are kept in any case. A file without advice
is not collected, and one without a supported extension not even reported, so their paths do no
harm: a scan whose files can be read fails only for the target or a file with advice. -/
theorem finish_broken (doc : Document) (summary : Summary) (hsink : doc.sink.limit = none) :
    ((reporter.handle (.finish summary) doc).1 = .ok () ↔ doc.IsText) ∧
    (reporter.handle (.finish summary) doc).2.files = doc.files ∧
    (¬doc.IsText → ∃ front place, doc.Breaks front place ∧
      reporter.handle (.finish summary) doc =
        (.error (.document .pathNotText), doc.adding (Utf8.encode front)) ∧
      (∃ fixed, doc.Mends fixed) ∧
      ∀ fixed, doc.Mends fixed → ∃ path rest, place fixed = some path ∧
        reporter.handle (.finish summary) fixed =
          (.ok (), fixed.adding (Utf8.encode (front ++ quote path.display ++ rest)))) ∧
    DocumentFault.message .pathNotText = "path contains invalid UTF-8 characters" ∧
    (∀ report : FileReport, report.isFlagged = false →
      reporter.handle (.file report) doc = (.ok (), doc)) ∧
    ∀ read target files reports,
      List.Forall₂ (Access.ReportedAs read) (files.filter Path.isSupported) reports →
      ((∃ summary, (scanResolvedWith read reporter target files doc).1.result = .ok summary) ↔
        target.IsText ∧ (∀ r ∈ doc.files, r.path.IsText) ∧
          ∀ r ∈ reports, r.isFlagged = true → r.path.IsText) := by
  refine ⟨finish_ok_iff hsink, rfl, ?_, rfl, ?_,
    fun _ target _ _ hreported => scanResolvedWith_ok_iff hsink target hreported⟩
  · intro h
    obtain ⟨front, place, hbreaks⟩ := exists_breaks h
    refine ⟨front, place, hbreaks, finish_of_break hsink (hbreaks.begins summary),
      exists_mends doc, ?_⟩
    intro fixed hmends
    have hfixed : fixed.sink.limit = none := by rw [hmends.sink, hsink]
    obtain ⟨path, hpath, hbegins⟩ := hbreaks.begins_mended hmends summary
    obtain ⟨rest, hfinish⟩ := finish_of_begins hfixed hmends.isText hbegins
    exact ⟨path, rest, hpath, hfinish⟩
  · intro report hflag
    simp [reporter, hflag]

/-- The name of a script that begins with a byte which is no text. -/
def noText : Name :=
  0xff :: Bytes.ofString ".js"

/-- The scripts `a.js` and `noText`. -/
def garbled : Document :=
  { target := "d"
    files := [⟨"a.js", .script, ["one"]⟩, ⟨noText, .script, ["two"]⟩] }

/-- The same with the name `b.js`. -/
def ungarbled : Document :=
  { target := "d"
    files := [⟨"a.js", .script, ["one"]⟩, ⟨"b.js", .script, ["two"]⟩] }

theorem mends_garbled : garbled.Mends ungarbled := by
  refine ⟨rfl, ⟨by decide, fun _ => rfl⟩, .cons ⟨_, ⟨by decide, fun _ => rfl⟩, rfl⟩
    (.cons ⟨_, ⟨by decide, fun h => absurd h (by decide)⟩, rfl⟩ .nil)⟩

/-- The document breaks off after its first file. Names that are no texts do no harm to a scan of a
script without advice and a file that is not supported. -/
theorem finish_broken_garbled :
    garbled.sink.limit = none ∧ ¬garbled.IsText ∧
    reporter.handle (.finish ⟨2, 2, 2, 2⟩) garbled =
      (.error (.document .pathNotText),
        garbled.adding (Utf8.encode (upToPath "d" [⟨"a.js", .script, ["one"]⟩]))) ∧
    garbled.Mends ungarbled ∧
    (∃ rest, reporter.handle (.finish ⟨2, 2, 2, 2⟩) ungarbled =
      (.ok (), ungarbled.adding (Utf8.encode
        (upToPath "d" [⟨"a.js", .script, ["one"]⟩] ++ quote "b.js" ++ rest)))) ∧
    reporter.handle (.file ⟨noText, .script, []⟩) garbled = (.ok (), garbled) ∧
    ∃ summary,
      (scanResolvedWith (fun _ => .ok []) reporter "d" [[0xff], noText] {}).1.result =
        .ok summary := by
  have hbroken : ¬garbled.IsText := by decide
  obtain ⟨-, -, hbreak, -, hquiet, -⟩ := finish_broken garbled ⟨2, 2, 2, 2⟩ rfl
  obtain ⟨front, place, hbreaks, hfinish, -, hmended⟩ := hbreak hbroken
  obtain ⟨path, rest, hpath, hwhole⟩ := hmended ungarbled mends_garbled
  obtain ⟨-, -, -, -, -, hscan⟩ := finish_broken {} ⟨2, 2, 2, 2⟩ rfl
  have hsupported : List.filter Path.isSupported [[0xff], noText] = [noText] := by
    decide
  have hreported : List.Forall₂ (Access.ReportedAs fun _ => .ok [])
      (List.filter Path.isSupported [[0xff], noText]) [.ofContent noText []] := by
    rw [hsupported]
    exact .cons ⟨[], rfl, rfl⟩ .nil
  -- The break can only be at the second file: the target and the first path are texts.
  obtain ⟨rfl, rfl⟩ : front = upToPath "d" [⟨"a.js", .script, ["one"]⟩] ∧ path = "b.js" := by
    cases hbreaks with
    | target htarget => exact absurd (by decide) htarget
    | @file before after bad _ hsplit _ hbad =>
      rcases before with _ | ⟨first, _ | ⟨second, before⟩⟩ <;> simp [garbled] at hsplit
      · obtain ⟨rfl, -⟩ := hsplit
        exact absurd (by decide) hbad
      · obtain ⟨rfl, -⟩ := hsplit
        exact ⟨rfl, (Option.some.inj hpath).symm⟩
  refine ⟨rfl, hbroken, hfinish, mends_garbled, ⟨rest, hwhole⟩, hquiet _ rfl, ?_⟩
  exact (hscan _ "d" _ _ hreported).2 ⟨by decide, by simp, by decide⟩

end Document

end InkLint
