import InkLint.Event
import InkLint.Output.Reporter
import InkLint.Volume.Walk

/-!
# Scanning

A scan finds the files under a target, lints each of them that has a supported category, hands the
reports to a reporter one by one and counts. The target is resolved before the reporter hears
anything, and the first failure ends the scan.
-/

namespace InkLint

/-- An answer, and what was logged on the way to it. -/
structure Logged (α : Type) where
  result : Except LintError α
  events : List Event := []

/-- The answer with events logged before it. -/
def Logged.after {α : Type} (events : List Event) (answer : Logged α) : Logged α :=
  { answer with events := events ++ answer.events }

/-! ## Finding files -/

/-- Every file below a path. The number found is logged. -/
def collectFiles (v : Volume) (root : Path) : Logged (List Path) :=
  match v.collect root with
  | .error fault => { result := .error (.walk fault) }
  | .ok files => { result := .ok files, events := [.collected root files.length] }

/-- The files a target stands for: itself, or every file below it if it is a folder. -/
def resolve (v : Volume) (target : Path) : Logged (List Path) :=
  match v.locate target with
  | .error fault => { result := .error (.target target fault) }
  | .ok loc => if v.hasFolder loc then collectFiles v target else { result := .ok [target] }

/-! ## Linting a file -/

/-- A way to read the file at a path. A volume offers one; another may refuse for any reason. -/
abbrev Access := Path → Except Fault Bytes

/-- The report on a file that is read in a given way. A file of no supported category is not
touched. -/
def lintFileWith (read : Access) (path : Path) : Logged (Option FileReport) :=
  let category := Category.ofPath path
  if category.isSupported then
    match read path with
    | .error fault =>
      { result := .error (.read path fault), events := [.scanning path category] }
    | .ok content =>
      let rules := lintText category (Utf8.decodeLossy content)
      { result := .ok (some ⟨path, category, rules.map (·.advice)⟩)
        events := .scanning path category :: rules.map .matched }
  else { result := .ok none, events := [.skipped path] }

/-- The report on a file of a volume. -/
def lintFile (v : Volume) (path : Path) : Logged (Option FileReport) :=
  lintFileWith v.read path

/-! ## A whole scan -/

/-- Lints the files in order and hands each report to the reporter. -/
def scanFilesWith {σ : Type} (read : Access) (r : Reporter σ) :
    List Path → Summary → σ → Logged Summary × σ
  | [], summary, state => ({ result := .ok summary }, state)
  | path :: rest, summary, state =>
    let linted := lintFileWith read path
    match linted.result with
    | .error error => ({ result := .error error, events := linted.events }, state)
    | .ok none =>
      let (answer, state) := scanFilesWith read r rest summary state
      (answer.after linted.events, state)
    | .ok (some report) =>
      match r.handle (.file report) state with
      | (.error error, state) => ({ result := .error error, events := linted.events }, state)
      | (.ok (), state) =>
        let (answer, state) := scanFilesWith read r rest (summary.add report) state
        (answer.after linted.events, state)

/-- Lints files of a volume. -/
def scanFiles {σ : Type} (v : Volume) (r : Reporter σ) (files : List Path) (summary : Summary)
    (state : σ) : Logged Summary × σ :=
  scanFilesWith v.read r files summary state

/-- Scans the given files: the reporter hears of the target, of each file, and of the counters. -/
def scanResolvedWith {σ : Type} (read : Access) (r : Reporter σ) (target : Path)
    (files : List Path) (state : σ) : Logged Summary × σ :=
  match r.handle (.begin target) state with
  | (.error error, state) => ({ result := .error error }, state)
  | (.ok (), state) =>
    match scanFilesWith read r files { seen := files.length } state with
    | ({ result := .error error, events }, state) => ({ result := .error error, events }, state)
    | ({ result := .ok summary, events }, state) =>
      match r.handle (.finish summary) state with
      | (.error error, state) => ({ result := .error error, events }, state)
      | (.ok (), state) =>
        ({ result := .ok summary, events := events ++ [.finished target summary] }, state)

/-- Scans the given files of a volume. -/
def scanResolved {σ : Type} (v : Volume) (r : Reporter σ) (target : Path) (files : List Path)
    (state : σ) : Logged Summary × σ :=
  scanResolvedWith v.read r target files state

/-- Scans everything a target stands for. -/
def scan {σ : Type} (v : Volume) (r : Reporter σ) (target : Path) (state : σ) :
    Logged Summary × σ :=
  let resolved := resolve v target
  match resolved.result with
  | .error error => ({ result := .error error, events := resolved.events }, state)
  | .ok files =>
    let (answer, state) := scanResolved v r target files state
    (answer.after resolved.events, state)

end InkLint
