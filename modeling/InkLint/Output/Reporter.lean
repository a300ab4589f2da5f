import InkLint.Output.Sink
import InkLint.Report

/-!
# Reporters

A reporter receives a run as a sequence of calls: the target before anything else, then each
scanned file, then the counters. What it does with a call may fail, and its state after a failed
call still matters, so a call yields both an answer and a state.
-/

namespace InkLint

/-- What a run hands to a reporter. -/
inductive Call where
  /-- The target was found and scanning starts. -/
  | begin (target : Path)
  /-- A file was scanned, with or without advice. -/
  | file (report : FileReport)
  /-- The last file was scanned. -/
  | finish (summary : Summary)
deriving DecidableEq, Repr

/-- A reporter whose state is a `σ`. -/
structure Reporter (σ : Type) where
  handle : Call → σ → Except LintError Unit × σ

/-- The forms a report can take. -/
inductive Format where
  | console
  | json
deriving DecidableEq, Repr

/-- The name of a form. -/
def Format.key : Format → String
  | console => "console"
  | json => "json"

end InkLint
