import InkLint.CommandLine.Similarity
import InkLint.Output.Plain
import InkLint.Path

/-!
# Arguments

The command line takes one target and two options. Arguments are read from left to right, and the
first that settles the matter is the last that is looked at. After `--` everything is a target.
-/

namespace InkLint

namespace CommandLine

/-- Why a command line is refused. -/
inductive Refusal where
  /-- A long option that does not exist, perhaps with one that looks like it. Whether a target stood
  before it matters to what is shown as the usage. -/
  | unknownOption (name : Bytes) (similar : Option String) (targetGiven : Bool)
  /-- A short option that does not exist. -/
  | unknownLetter (letter : Bytes)
  /-- A second target. -/
  | surplus (argument : Bytes)
  /-- A value for an option that takes none. -/
  | unexpectedValue (value : Bytes) (option : String)
deriving DecidableEq, Repr

/-- What a command line asks for. -/
inductive Request where
  | scan (target : Option Path)
  | help
  | version
  | refused (why : Refusal)
deriving DecidableEq, Repr

/-- The name of the program. -/
def program : String := "kindlefy"

/-- The long options. -/
def longOptions : List String := ["help", "version"]

/-- What an argument that starts with two dashes asks for; `text` follows them. -/
def readLong (targetGiven : Bool) (text : Bytes) : Request :=
  let name := text.takeWhile (· != 0x3d)
  match text.dropWhile (· != 0x3d), longOptions.find? (Bytes.ofString · == name) with
  | [], some "help" => .help
  | [], some _ => .version
  | _ :: value, some option => .refused (.unexpectedValue value option)
  | _, none =>
    let similar := Similarity.best? (Utf8.decodeLossy name) longOptions
    .refused (.unknownOption name similar targetGiven)

/-- What an argument that starts with one dash asks for; `text` follows it. The first letter
decides. -/
def readShort (text : Bytes) : Request :=
  match Utf8.segments text with
  | some 'h' :: _ => .help
  | some 'V' :: _ => .version
  | some c :: _ => .refused (.unknownLetter (Utf8.encode [c]))
  | _ => .refused (.unknownLetter text)

/-- Reads the arguments after a target may have been found and after `--` may have been met. -/
def readFrom (target : Option Path) (onlyTargets : Bool) : List Bytes → Request
  | [] => .scan target
  | arg :: rest =>
    match onlyTargets, arg with
    | false, [0x2d, 0x2d] => readFrom target true rest
    | false, 0x2d :: 0x2d :: text => readLong target.isSome text
    | false, 0x2d :: b :: text => readShort (b :: text)
    | _, _ =>
      match target with
      | none => readFrom (some arg) onlyTargets rest
      | some _ => .refused (.surplus arg)

/-- What the arguments ask for. -/
def readArguments (args : List Bytes) : Request :=
  readFrom none false args

/-! ## Texts -/

/-- How a target is named in the usage: in angle brackets once one was given. -/
def targetName (given : Bool) : String :=
  if given then "<TARGET>" else "[TARGET]"

/-- The line that shows how to call the program, with an option in it or without. -/
def usage (option : Option String) (targetGiven : Bool) : String :=
  "Usage: " ++ program ++ " " ++
    (match option with
     | some o => "--" ++ o ++ " "
     | none => "") ++ targetName targetGiven

/-- What is offered instead of an option that does not exist. -/
def asTarget (argument : String) : String :=
  "  tip: to pass '" ++ argument ++ "' as a value, use '-- " ++ argument ++ "'\n\n"

/-- What is said of an argument that is not understood. -/
def unexpected (argument : String) : String :=
  "error: unexpected argument '" ++ argument ++ "' found\n\n"

/-- What is written when a command line is refused. -/
def Refusal.message (r : Refusal) : String :=
  body r ++ "\n\nFor more information, try '--help'.\n"
where
  /-- All but the last line. -/
  body : Refusal → String
    | .unknownOption name none given =>
      let argument := "--" ++ Plain.display name
      unexpected argument ++ asTarget argument ++ usage none given
    | .unknownOption name (some option) given =>
      unexpected ("--" ++ Plain.display name) ++
        "  tip: a similar argument exists: '--" ++ option ++ "'\n\n" ++ usage (some option) given
    | .unknownLetter letter =>
      let argument := "-" ++ Plain.display letter
      unexpected argument ++ asTarget argument ++ usage none false
    | .surplus argument => unexpected (Plain.display argument) ++ usage none false
    | .unexpectedValue value option =>
      "error: unexpected value '" ++ Plain.display value ++ "' for '--" ++ option ++
        "' found; no more were expected\n\n" ++ usage (some option) false

/-- The text for `--help`. -/
def helpText : String :=
  "Scan web sources for constructs the Kindle WebBrowser mishandles\n\n" ++ usage none false ++
    "\n\nArguments:\n  [TARGET]  File or directory to scan\n\n" ++
    "Options:\n  -h, --help     Print help\n  -V, --version  Print version\n"

/-- The text for `--version`. -/
def versionText : String :=
  program ++ " 0.1.0\n"

end CommandLine

end InkLint
