import InkLint.Output.Paint
import InkLint.Output.Reporter

/-!
# Console reports

A console report has a banner at its start and one at its end, and between them a block for each
file with advice. Files without advice leave no trace.
-/

namespace InkLint

namespace Console

/-- The line at the start. -/
def startBanner : String :=
  "Kindlefy - scanning for Kindle WebBrowser quirks..."

/-- The line at the end. -/
def doneBanner : String :=
  "Scan complete."

/-- A text in a colour if the report is coloured. -/
def tint (colored : Bool) (color : Color) (text : List Char) : List Char :=
  if colored then color.paint text else text

/-- The line for one piece of advice. -/
def adviceLine (colored : Bool) (advice : String) : List Char :=
  tint colored .yellow ('•' :: ' ' :: advice.toList) ++ ['\n']

/-- The block for a file, empty if there is no advice. -/
def block (colored : Bool) (r : FileReport) : List Char :=
  if r.isFlagged then
    '\n' :: tint colored .blue ("File: ".toList ++ r.path.display.toList) ++
      '\n' :: r.advisories.flatMap (adviceLine colored)
  else []

/-- What is written for a call. -/
def text (colored : Bool) : Call → List Char
  | .begin _ => tint colored .magenta startBanner.toList ++ ['\n']
  | .file report => block colored report
  | .finish _ => '\n' :: tint colored .green doneBanner.toList ++ ['\n']

/-- The line above the advice for a file. -/
def header (colored : Bool) (r : FileReport) : List Char :=
  '\n' :: tint colored .blue ("File: ".toList ++ r.path.display.toList) ++ ['\n']

/-- The lines that are written for a call, one after another. -/
def lines (colored : Bool) : Call → List (List Char)
  | .file report =>
    if report.isFlagged then
      header colored report :: report.advisories.map (adviceLine colored)
    else []
  | call => [text colored call]

/-- Whether the output is flushed after a call. -/
def flushes : Call → Bool
  | .finish _ => true
  | _ => false

/-- The reporter that writes to a sink. -/
def reporter (colored : Bool) : Reporter Sink where
  handle call sink :=
    match sink.writeAll ((lines colored call).map Utf8.encode) with
    | (.error fault, sink) => (.error (.output fault), sink)
    | (.ok (), sink) =>
      if flushes call then
        match sink.flush with
        | .error fault => (.error (.output fault), sink)
        | .ok () => (.ok (), sink)
      else (.ok (), sink)

end Console

end InkLint
