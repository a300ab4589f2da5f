import InkLint.Path

/-!
# What can go wrong

A `Fault` is the answer of the system below: of the volume to a lookup or a read, of the output to
a write. A `WalkFault` is where a walk met one. A `LintError` is what a run ends with. Each is a
cause with its data; the words are in one `message` function each.
-/

namespace InkLint

/-! ## Answers of the system -/

/-- The failures of the operating system that can be told apart. -/
inductive OsError where
  | notPermitted
  | noSuchFile
  | inputOutput
  | badDescriptor
  | outOfMemory
  | accessDenied
  | notADirectory
  | isADirectory
  | invalidArgument
  | noSpace
  | brokenPipe
  | nameTooLong
  | linkCircle
deriving DecidableEq, Repr

namespace OsError

/-- Every failure. -/
def all : List OsError :=
  [notPermitted, noSuchFile, inputOutput, badDescriptor, outOfMemory, accessDenied, notADirectory,
   isADirectory, invalidArgument, noSpace, brokenPipe, nameTooLong, linkCircle]

/-- The number of a failure. -/
def code : OsError → Nat
  | notPermitted => 1
  | noSuchFile => 2
  | inputOutput => 5
  | badDescriptor => 9
  | outOfMemory => 12
  | accessDenied => 13
  | notADirectory => 20
  | isADirectory => 21
  | invalidArgument => 22
  | noSpace => 28
  | brokenPipe => 32
  | nameTooLong => 36
  | linkCircle => 40

/-- The words for a failure. -/
def text : OsError → String
  | notPermitted => "Operation not permitted"
  | noSuchFile => "No such file or directory"
  | inputOutput => "Input/output error"
  | badDescriptor => "Bad file descriptor"
  | outOfMemory => "Cannot allocate memory"
  | accessDenied => "Permission denied"
  | notADirectory => "Not a directory"
  | isADirectory => "Is a directory"
  | invalidArgument => "Invalid argument"
  | noSpace => "No space left on device"
  | brokenPipe => "Broken pipe"
  | nameTooLong => "File name too long"
  | linkCircle => "Too many levels of symbolic links"

/-- The failure with a number. -/
def ofCode? (n : Nat) : Option OsError :=
  all.find? (·.code == n)

theorem ofCode?_code (e : OsError) : ofCode? e.code = some e := by
  cases e <;> decide

end OsError

/-- Why an access or a write failed. -/
inductive Fault where
  /-- The operating system refused. -/
  | os (error : OsError)
  /-- A path with a NUL byte never reaches the operating system. -/
  | nulByte
  /-- The output takes no further bytes. -/
  | outputFull
  /-- The output did not flush. -/
  | flushFailed
  /-- Any other cause, in words. -/
  | other (text : String)
deriving DecidableEq, Repr

/-- The words for a fault. -/
def Fault.message : Fault → String
  | .os e => e.text ++ " (os error " ++ toString e.code ++ ")"
  | .nulByte => "file name contained an unexpected NUL byte"
  | .outputFull => "sink is full"
  | .flushFailed => "flush failed"
  | .other text => text

/-! ## Faults of a walk -/

/-- Why a walk ended early. -/
inductive WalkFault where
  /-- The path could not be looked up. -/
  | access (path : Path) (cause : Fault)
  /-- The link at `child` leads back to a directory that is being walked, as `ancestor`. -/
  | loop (child ancestor : Path)
deriving DecidableEq, Repr

/-- The words for a fault of a walk. -/
def WalkFault.message : WalkFault → String
  | .access path cause =>
    "IO error for operation on " ++ path.display ++ ": " ++ cause.message
  | .loop child ancestor =>
    "File system loop found: " ++ child.display ++ " points to an ancestor " ++ ancestor.display

/-! ## Errors of a run -/

/-- Why a document could not be written. -/
inductive DocumentFault where
  /-- The output failed. -/
  | write (cause : Fault)
  /-- A path is not UTF-8. -/
  | pathNotText
deriving DecidableEq, Repr

/-- The words for a fault of a document. -/
def DocumentFault.message : DocumentFault → String
  | .write cause => cause.message
  | .pathNotText => "path contains invalid UTF-8 characters"

/-- What a run can end with. -/
inductive LintError where
  /-- The command line asks for nothing that can be done. -/
  | usage (text : String)
  /-- The target cannot be accessed. -/
  | target (path : Path) (cause : Fault)
  /-- A file cannot be read. -/
  | read (path : Path) (cause : Fault)
  /-- The walk failed. -/
  | walk (fault : WalkFault)
  /-- The report cannot be written. -/
  | output (cause : Fault)
  /-- The document cannot be written. -/
  | document (cause : DocumentFault)
deriving DecidableEq, Repr

namespace LintError

/-- The words for an error. -/
def message : LintError → String
  | usage text => text
  | target path cause => "Cannot access " ++ path.display ++ ": " ++ cause.message
  | read path cause => "IO error reading " ++ path.display ++ ": " ++ cause.message
  | walk fault => "Walk error: " ++ fault.message
  | output cause => "Output error: " ++ cause.message
  | document cause => "JSON error: " ++ cause.message

/-- The exit status for an error: a request that makes no sense is 1, all else is 2. -/
def exitCode : LintError → Nat
  | usage _ => 1
  | _ => 2

end LintError

end InkLint
