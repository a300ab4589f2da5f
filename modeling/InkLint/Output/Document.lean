import InkLint.Output.Json
import InkLint.Output.Reporter

/-!
# JSON reports

A JSON report is one document, written when the run finishes. Until then the reporter collects the
files with advice; it keeps them for good, so a later document also lists the files of earlier
runs.
-/

namespace InkLint

/-- What the reporter has collected, and where it writes. -/
structure Document where
  sink : Sink := {}
  target : Path := []
  files : List FileReport := []
deriving DecidableEq, Repr

namespace Document

/-- A path as a value: its text if it is UTF-8. -/
def pathValue (p : Path) : Json :=
  match Utf8.decode? p with
  | some text => .text (String.ofList text)
  | none => .unwritable

/-- A report on a file as a value. -/
def fileValue (r : FileReport) : Json :=
  .object
    [("path", pathValue r.path),
     ("category", .text r.category.key),
     ("advisories", .list (r.advisories.map .text))]

/-- The counters as a value. -/
def summaryValue (s : Summary) : Json :=
  .object
    [("files_seen", .number s.seen),
     ("files_scanned", .number s.scanned),
     ("files_with_advisories", .number s.flagged),
     ("advisories", .number s.advisories)]

/-- The whole document as a value. -/
def value (target : Path) (files : List FileReport) (summary : Summary) : Json :=
  .object
    [("target", pathValue target),
     ("files", .list (files.map fileValue)),
     ("summary", summaryValue summary)]

/-- Writes a document and a line end. If the document breaks off, what stands before the break is
written all the same. -/
def write (sink : Sink) (json : Json) : Except LintError Unit × Sink :=
  let draft := json.render 0
  match sink.write (Utf8.encode draft.text) with
  | (.error fault, sink) => (.error (.document (.write fault)), sink)
  | (.ok (), sink) =>
    if draft.isWhole then
      match sink.write (Utf8.encode ['\n']) with
      | (.error fault, sink) => (.error (.output fault), sink)
      | (.ok (), sink) => (.ok (), sink)
    else (.error (.document .pathNotText), sink)

/-- The reporter that collects files and writes one document at the end. -/
def reporter : Reporter Document where
  handle
    | .begin target, doc => (.ok (), { doc with target := target })
    | .file report, doc =>
      (.ok (), if report.isFlagged then { doc with files := doc.files ++ [report] } else doc)
    | .finish summary, doc =>
      let (answer, sink) := write doc.sink (value doc.target doc.files summary)
      (answer, { doc with sink := sink })

end Document

end InkLint
