import InkLint.Report
import InkLint.Rule

/-!
# Log events

A run tells what it does as a list of events. An event has a level, a source (the part of the
program that speaks), a message and named fields; `Event.line` writes all of it on one line.
-/

namespace InkLint

/-- How much a log shows, from nothing to everything. -/
inductive Level where
  | off
  | error
  | warn
  | info
  | debug
  | trace
deriving DecidableEq, Repr

namespace Level

/-- Every level, the quietest first. -/
def all : List Level :=
  [off, error, warn, info, debug, trace]

/-- The place of a level among all of them. -/
def rank : Level → Nat
  | off => 0
  | error => 1
  | warn => 2
  | info => 3
  | debug => 4
  | trace => 5

/-- The name of a level, as it is written in a log. -/
def name : Level → String
  | off => "OFF"
  | error => "ERROR"
  | warn => "WARN"
  | info => "INFO"
  | debug => "DEBUG"
  | trace => "TRACE"

end Level

/-- A value in a log. -/
inductive Value where
  | text (s : String)
  | count (n : Nat)
deriving DecidableEq, Repr

/-- How a value is written in a log. -/
def Value.written : Value → String
  | .text s => s
  | .count n => toString n

/-- What a run does. -/
inductive Event where
  /-- A walk found this many files. -/
  | collected (root : Path) (count : Nat)
  /-- A file was passed over. -/
  | skipped (path : Path)
  /-- A file is about to be read. -/
  | scanning (path : Path) (category : Category)
  /-- A rule fired. -/
  | matched (rule : Rule)
  /-- A run ended well. -/
  | finished (target : Path) (summary : Summary)
deriving DecidableEq, Repr

namespace Event

/-- The level of an event. -/
def level : Event → Level
  | collected .. | scanning .. | matched .. => .debug
  | skipped .. => .trace
  | finished .. => .info

/-- The part of the program that speaks. -/
def source : Event → String
  | collected .. => "kindlefy::walk"
  | skipped .. | scanning .. => "kindlefy::dispatch"
  | matched .. => "kindlefy::rules"
  | finished .. => "kindlefy"

/-- What is said. -/
def message : Event → String
  | collected .. => "collected files"
  | skipped .. => "skipping unsupported file"
  | scanning .. => "scanning file"
  | matched .. => "rule matched"
  | finished .. => "scan finished"

/-- The particulars, in order. -/
def fields : Event → List (String × Value)
  | collected root count => [("root", .text root.display), ("count", .count count)]
  | skipped path => [("path", .text path.display)]
  | scanning path category => [("path", .text path.display), ("category", .text category.label)]
  | matched rule => [("rule", .text rule.id)]
  | finished target s =>
    [("target", .text target.display), ("seen", .count s.seen), ("scanned", .count s.scanned),
     ("flagged", .count s.flagged)]

/-- The name of the level, set to the right in five columns. -/
def levelColumn (e : Event) : String :=
  String.ofList (List.replicate (5 - e.level.name.length) ' ') ++ e.level.name

/-- The event on one line, after a time stamp. -/
def line (stamp : String) (e : Event) : String :=
  stamp ++ " " ++ e.levelColumn ++ " " ++ e.source ++ ": " ++ e.message ++
    String.join (e.fields.map fun field => " " ++ field.1 ++ "=" ++ field.2.written) ++ "\n"

end Event

end InkLint
