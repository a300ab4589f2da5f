import InkLint.Output.Document
import InkLint.Proofs.Json.Layout

/-!
# JSON reports can be read back

The document that a JSON report ends with is a JSON text, laid out line by line, and reading it
gives back the target, the files and the counters. So different reports are different documents.
-/

namespace InkLint

/-- A path that is the UTF-8 of some text. -/
def Path.IsText (p : Path) : Prop :=
  ∃ s, Bytes.ofString s = p

/-- These are the paths that strict reading accepts. -/
theorem Path.isText_iff {p : Path} : p.IsText ↔ (Utf8.decode? p).isSome = true := by
  constructor
  · rintro ⟨s, rfl⟩
    rw [Bytes.ofString, Utf8.decode?_encode]
    rfl
  · intro h
    obtain ⟨text, htext⟩ := Option.isSome_iff_exists.1 h
    refine ⟨String.ofList text, ?_⟩
    rw [Bytes.ofString, String.toList_ofList, Utf8.decode?_eq_some_iff.1 htext]

instance (p : Path) : Decidable p.IsText :=
  decidable_of_iff _ Path.isText_iff.symm

@[simp] theorem Path.display_ofString (s : String) : Path.display (Bytes.ofString s) = s := by
  rw [Path.display, Bytes.ofString, Utf8.decodeLossy_encode, String.ofList_toList]

theorem Path.IsText.ofString_display {p : Path} (h : p.IsText) : Bytes.ofString p.display = p := by
  obtain ⟨s, rfl⟩ := h
  rw [Path.display_ofString]

theorem Path.IsText.display_inj {p q : Path} (hp : p.IsText) (hq : q.IsText)
    (h : p.display = q.display) : p = q := by
  rw [← hp.ofString_display, ← hq.ofString_display, h]

theorem Category.key_injective : Function.Injective Category.key := by
  intro c d h
  have hkey := congrArg Category.ofKey? h
  rw [Category.ofKey?_key, Category.ofKey?_key] at hkey
  exact Option.some.inj hkey

namespace Document

open Json (Data Writes)

/-! ## What a document stands for -/

def fileData (r : FileReport) : Data :=
  .object
    [("path", .text r.path.display),
     ("category", .text r.category.key),
     ("advisories", .list (r.advisories.map .text))]

def summaryData (s : Summary) : Data :=
  .object
    [("files_seen", .number s.seen),
     ("files_scanned", .number s.scanned),
     ("files_with_advisories", .number s.flagged),
     ("advisories", .number s.advisories)]

/-- The value that a document stands for. -/
def data (doc : Document) (summary : Summary) : Data :=
  .object
    [("target", .text doc.target.display),
     ("files", .list (doc.files.map fileData)),
     ("summary", summaryData summary)]

/-- The target and the paths of the files that were collected are texts. -/
structure IsText (doc : Document) : Prop where
  target : doc.target.IsText
  files : ∀ r ∈ doc.files, r.path.IsText

instance (doc : Document) : Decidable doc.IsText :=
  decidable_of_iff (doc.target.IsText ∧ ∀ r ∈ doc.files, r.path.IsText)
    ⟨fun h => ⟨h.1, h.2⟩, fun h => ⟨h.target, h.files⟩⟩

/-! ## Writing -/

theorem writes_path {p : Path} (h : p.IsText) (depth : Nat) :
    Writes depth (pathValue p) (.text p.display) := by
  obtain ⟨s, rfl⟩ := h
  have hvalue : pathValue (Bytes.ofString s) = .text s := by
    rw [pathValue, Bytes.ofString, Utf8.decode?_encode]
    exact congrArg Json.text String.ofList_toList
  rw [hvalue, Path.display_ofString]
  exact Json.writes_text depth s

theorem writes_file {r : FileReport} (h : r.path.IsText) (depth : Nat) :
    Writes depth (fileValue r) (fileData r) := by
  have hadvisories : List.Forall₂ (Writes (depth + 1 + 1)) (r.advisories.map Json.text)
      (r.advisories.map Data.text) := by
    rw [List.forall₂_map_left_iff, List.forall₂_map_right_iff]
    exact List.forall₂_same.2 fun s _ => Json.writes_text _ s
  exact Json.writes_object
    (.cons ⟨rfl, writes_path h _⟩
      (.cons ⟨rfl, Json.writes_text _ _⟩ (.cons ⟨rfl, Json.writes_list hadvisories⟩ .nil)))

theorem writes_summary (s : Summary) (depth : Nat) :
    Writes depth (summaryValue s) (summaryData s) :=
  Json.writes_object
    (.cons ⟨rfl, Json.writes_number _ _⟩
      (.cons ⟨rfl, Json.writes_number _ _⟩
        (.cons ⟨rfl, Json.writes_number _ _⟩ (.cons ⟨rfl, Json.writes_number _ _⟩ .nil))))

theorem writes_document {doc : Document} (h : doc.IsText) (summary : Summary) :
    Writes 0 (value doc.target doc.files summary) (doc.data summary) := by
  have hfiles : List.Forall₂ (Writes 2) (doc.files.map fileValue) (doc.files.map fileData) := by
    rw [List.forall₂_map_left_iff, List.forall₂_map_right_iff]
    exact List.forall₂_same.2 fun r hr => writes_file (h.files r hr) 2
  exact Json.writes_object
    (.cons ⟨rfl, writes_path h.target _⟩
      (.cons ⟨rfl, Json.writes_list hfiles⟩ (.cons ⟨rfl, writes_summary summary _⟩ .nil)))

theorem finish_of_render {doc : Document} {summary : Summary} {text : List Char}
    (hsink : doc.sink.limit = none)
    (hrender : (value doc.target doc.files summary).render 0 = ⟨text, true⟩) :
    reporter.handle (.finish summary) doc =
      (.ok (), { doc with
        sink := { doc.sink with
          content := doc.sink.content ++ Utf8.encode (text ++ ['\n']) } }) := by
  have hwrite := Sink.write_unlimited hsink (Utf8.encode text)
  have hnewline := Sink.write_unlimited (s := { doc.sink with
    content := doc.sink.content ++ Utf8.encode text }) hsink (Utf8.encode ['\n'])
  simp [reporter, write, hrender, hwrite, hnewline]

theorem finish_of_writes {doc : Document} (hsink : doc.sink.limit = none) (h : doc.IsText)
    (summary : Summary) :
    ∃ text, Json.Laid 0 (doc.data summary) text ∧ Json.Grammar.Value (doc.data summary) text ∧
      reporter.handle (.finish summary) doc =
        (.ok (), { doc with
          sink := { doc.sink with
            content := doc.sink.content ++ Utf8.encode (text ++ ['\n']) } }) := by
  obtain ⟨text, hrender, hlaid, hvalue⟩ := writes_document h summary
  exact ⟨text, hlaid, hvalue, finish_of_render hsink hrender⟩

/-! ## Paths that are no texts -/

theorem isWhole_render_path (p : Path) (depth : Nat) :
    ((pathValue p).render depth).isWhole = true ↔ p.IsText := by
  rw [Path.isText_iff, pathValue]
  cases Utf8.decode? p with
  | none => simp [Json.render, Draft.broken]
  | some text => simp

/-- A document breaks off at the first path that is no text. -/
theorem isWhole_render_value (doc : Document) (summary : Summary) :
    ((value doc.target doc.files summary).render 0).isWhole = true ↔ doc.IsText := by
  have hfile (r : FileReport) (depth : Nat) :
      ((fileValue r).render depth).isWhole = true ↔ r.path.IsText := by
    simp [fileValue, isWhole_render_path]
  have hsummary (depth : Nat) : ((summaryValue summary).render depth).isWhole = true := by
    simp [summaryValue]
  simp only [value, Json.isWhole_render_object, Json.isWhole_render_list, List.all_cons,
    List.all_nil, List.all_map, Bool.and_eq_true, List.all_eq_true, Function.comp_apply,
    isWhole_render_path, hfile, hsummary, and_true]
  exact ⟨fun h => ⟨h.1, h.2⟩, fun h => ⟨h.target, h.files⟩⟩

/-- So a document that was finished has only paths that are texts. -/
theorem isText_of_finish {doc : Document} {summary : Summary}
    (h : (reporter.handle (.finish summary) doc).1 = .ok ()) : doc.IsText := by
  rw [← isWhole_render_value doc summary]
  by_contra hbroken
  simp only [reporter, write, hbroken, if_false] at h
  split at h <;> cases h

/-! ## Reading -/

/-- A text and the line end after it stand for what the text stands for. -/
theorem text_of_value {v : Data} {text : List Char} (h : Json.Grammar.Value v text) :
    Json.Grammar.Text v (text ++ ['\n']) := by
  have hbefore : Json.Grammar.Spaces [] := by simp [Json.Grammar.Spaces]
  have hafter : Json.Grammar.Spaces ['\n'] := by simp [Json.Grammar.Spaces, Json.Grammar.isSpace]
  exact .intro hbefore h hafter

theorem fileData_inj {r r' : FileReport} (h : r.path.IsText) (h' : r'.path.IsText)
    (heq : fileData r = fileData r') : r = r' := by
  obtain ⟨path, category, advisories⟩ := r
  obtain ⟨path', category', advisories'⟩ := r'
  simp only [fileData, Data.object.injEq, List.cons.injEq, Prod.mk.injEq, Data.text.injEq,
    Data.list.injEq, true_and, and_true] at heq
  obtain ⟨hpath, hcategory, hadvisories⟩ := heq
  obtain rfl := h.display_inj h' hpath
  obtain rfl := Category.key_injective hcategory
  obtain rfl := List.map_injective_iff.2 (fun _ _ => Data.text.inj) hadvisories
  rfl

theorem map_fileData_inj {files files' : List FileReport} (h : ∀ r ∈ files, r.path.IsText)
    (h' : ∀ r ∈ files', r.path.IsText) (heq : files.map fileData = files'.map fileData) :
    files = files' := by
  induction files generalizing files' with
  | nil => exact (List.map_eq_nil_iff.1 heq.symm).symm
  | cons r files ih =>
    cases files' with
    | nil => cases heq
    | cons r' files' =>
      rw [List.forall_mem_cons] at h h'
      rw [List.map_cons, List.map_cons, List.cons.injEq] at heq
      rw [fileData_inj h.1 h'.1 heq.1, ih h.2 h'.2 heq.2]

theorem data_inj {doc doc' : Document} {summary summary' : Summary} (h : doc.IsText)
    (h' : doc'.IsText) (heq : doc.data summary = doc'.data summary') :
    doc.target = doc'.target ∧ doc.files = doc'.files ∧ summary = summary' := by
  obtain ⟨seen, scanned, flagged, advisories⟩ := summary
  obtain ⟨seen', scanned', flagged', advisories'⟩ := summary'
  simp only [data, summaryData, Data.object.injEq, List.cons.injEq, Prod.mk.injEq, Data.text.injEq,
    Data.list.injEq, Data.number.injEq, Nat.cast_inj, true_and, and_true] at heq
  obtain ⟨htarget, hfiles, rfl, rfl, rfl, rfl⟩ := heq
  exact ⟨h.target.display_inj h'.target htarget, map_fileData_inj h.files h'.files hfiles, rfl⟩

/-- **A JSON report can be read back.** On a sink that takes everything, and with paths that are
texts, finishing writes one JSON text and a line end. It is laid out line by line, it stands for
the target, the files and the counters and for nothing else, and a reader gets back just these. Two
different reports are never written the same. -/
theorem finish_read_back (doc : Document) (summary : Summary) (hsink : doc.sink.limit = none)
    (h : doc.IsText) :
    (Bytes.ofString doc.target.display = doc.target ∧
      ∀ r ∈ doc.files, Bytes.ofString r.path.display = r.path) ∧
    (∃ text,
      reporter.handle (.finish summary) doc =
        (.ok (), { doc with
          sink := { doc.sink with
            content := doc.sink.content ++ Utf8.encode (text ++ ['\n']) } }) ∧
      Json.Laid 0 (doc.data summary) text ∧
      Json.Grammar.Value (doc.data summary) text ∧
      (∀ v, Json.Grammar.Text v (text ++ ['\n']) ↔ v = doc.data summary) ∧
      Json.Reader.readBytes (Utf8.encode (text ++ ['\n'])) = some (doc.data summary)) ∧
    ∀ (other : Document) (summary' : Summary), other.sink = doc.sink → other.IsText →
      (reporter.handle (.finish summary') other).2.sink =
        (reporter.handle (.finish summary) doc).2.sink →
      other = doc ∧ summary' = summary := by
  obtain ⟨text, hlaid, hvalue, hhandle⟩ := finish_of_writes hsink h summary
  have htext := text_of_value hvalue
  refine ⟨⟨h.target.ofString_display, fun r hr => (h.files r hr).ofString_display⟩,
    ⟨text, hhandle, hlaid, hvalue, ?_, ?_⟩, ?_⟩
  · intro v
    constructor
    · intro hv
      exact Json.Reader.text_unique hv htext
    · rintro rfl
      exact htext
  · rw [Json.Reader.readBytes_encode, Json.Reader.readText_eq_some_iff]
    exact htext
  · intro other summary' hother h' heq
    obtain ⟨text', -, hvalue', hhandle'⟩ := finish_of_writes (hother ▸ hsink) h' summary'
    have hbytes : Utf8.encode (text' ++ ['\n']) = Utf8.encode (text ++ ['\n']) := by
      rw [hhandle, hhandle', hother] at heq
      simpa using heq
    have hsame := Utf8.encode_injective hbytes
    obtain ⟨htarget, hfiles, rfl⟩ :=
      data_inj h' h (Json.Reader.text_unique (text_of_value hvalue') (hsame ▸ htext))
    obtain ⟨sink, target, files⟩ := other
    obtain rfl : sink = doc.sink := hother
    obtain rfl : target = doc.target := htarget
    obtain rfl : files = doc.files := hfiles
    exact ⟨rfl, rfl⟩

/-- Two files, with quotes, a backslash, control characters and letters beyond ASCII. -/
def marked : Document :=
  { target := Bytes.ofString "say \"hi\""
    files :=
      [⟨Bytes.ofString "é/𝄞.js", .script, ["back\\slash\tand \x01", "two\nlines"]⟩,
       ⟨Bytes.ofString "x.css", .stylesheet, []⟩] }

theorem finish_read_back_marked :
    marked.sink.limit = none ∧ marked.IsText ∧
    Json.Reader.readBytes (reporter.handle (.finish ⟨3, 2, 1, 2⟩) marked).2.sink.content =
      some (.object
        [("target", .text "say \"hi\""),
         ("files", .list
           [.object
             [("path", .text "é/𝄞.js"),
              ("category", .text "script"),
              ("advisories", .list [.text "back\\slash\tand \x01", .text "two\nlines"])],
            .object
             [("path", .text "x.css"),
              ("category", .text "stylesheet"),
              ("advisories", .list [])]]),
         ("summary", .object
           [("files_seen", .number 3),
            ("files_scanned", .number 2),
            ("files_with_advisories", .number 1),
            ("advisories", .number 2)])]) := by
  have hsink : marked.sink.limit = none := rfl
  have htext : marked.IsText := by decide
  obtain ⟨-, ⟨text, hhandle, -, -, -, hread⟩, -⟩ :=
    finish_read_back marked ⟨3, 2, 1, 2⟩ hsink htext
  refine ⟨hsink, htext, ?_⟩
  rw [hhandle, show marked.sink.content = [] from rfl, List.nil_append, hread]
  simp [data, fileData, summaryData, marked, Category.key]

end Document

end InkLint
