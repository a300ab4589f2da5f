import InkLint.CommandLine.Run
import InkLint.CommandLine.Stamp
import InkLint.Volume.Edit
import Std.Time.DateTime.Timestamp

/-!
# The program

The program takes a picture of what its target leads to, as a volume, and runs on that. A link is
kept with the real path of what it leads to. A file whose name is of no supported category is kept
without its content unless a link leads to it. A file that cannot be read is kept with the reason; a
folder that cannot be listed has no place in a volume and ends the program as a failed walk does.
-/

namespace InkLint

namespace Snapshot

/-- The volume so far, the real paths of the folders that are in it, and how many characters stand
in front of the paths as the target names them. -/
structure Picture where
  volume : Volume
  folders : List String := []
  skipped : Nat := 0

/-- What the system's answer means for a file or a folder that is there. -/
def causeOf : IO.Error → OsError
  | .permissionDenied _ code _ => (OsError.ofCode? code.toNat).getD .accessDenied
  | .resourceExhausted _ code _ => (OsError.ofCode? code.toNat).getD .outOfMemory
  | _ => .inputOutput

/-- The text of a link that leads nowhere, for the reason the system gave. -/
def brokenLink (name : String) : IO.Error → Path
  | .noFileOrDirectory .. => Bytes.ofString "/\x00"
  | _ => Bytes.ofString name

/-- A file with its content, or with the reason why there is none. -/
def addContent (v : Volume) (path : String) : IO Volume := do
  match ← (IO.FS.readBinFile path).toBaseIO with
  | .ok content => return v.addFile (Bytes.ofString path) content.toList
  | .error e => return v.setFile (Bytes.ofString path) (.error (causeOf e))

/-- A file as an entry of a folder: read only if its name asks for it. -/
def addEntryFile (v : Volume) (path : String) : IO Volume := do
  let bytes := Bytes.ofString path
  if (Category.ofPath bytes).isSupported then addContent v path
  else
    match v.locate bytes with
    | .ok _ => return v
    | .error _ => return v.addFile bytes []

/-- The entries of a folder. -/
def entries (picture : Picture) (path : String) : IO (Array IO.FS.DirEntry) := do
  match ← (do (← IO.FS.realPath path).readDir : IO _).toBaseIO with
  | .ok found => return found
  | .error e =>
    let shown := Bytes.ofString (path.drop picture.skipped).toString
    throw (.userError (LintError.walk (.access shown (.os (causeOf e)))).message)

mutual

/-- Adds a folder with everything below it, unless it is there already. -/
partial def addFolder (picture : Picture) (path : String) : IO Picture := do
  let real := (← IO.FS.realPath path).toString
  if picture.folders.contains real then return picture
  let mut picture :=
    { picture with
      volume := picture.volume.addFolder (Bytes.ofString path)
      folders := real :: picture.folders }
  for entry in ← entries picture path do
    picture ← addEntry picture ⟨path, entry.fileName⟩
  return picture

/-- Adds an entry of a folder, and what it leads to. -/
partial def addEntry (picture : Picture) (entry : IO.FS.DirEntry) : IO Picture := do
  let path := entry.path.toString
  match (← entry.path.symlinkMetadata).type with
  | .dir => addFolder picture path
  | .file => return { picture with volume := ← addEntryFile picture.volume path }
  | .symlink => addLink picture entry
  | .other => return picture

/-- Adds a link, and what it leads to. -/
partial def addLink (picture : Picture) (entry : IO.FS.DirEntry) : IO Picture := do
  let path := Bytes.ofString entry.path.toString
  match ← entry.path.metadata.toBaseIO with
  | .error e =>
    return { picture with volume := picture.volume.addLink path (brokenLink entry.fileName e) }
  | .ok there =>
    let real := (← IO.FS.realPath entry.path).toString
    let picture :=
      { picture with volume := picture.volume.addLink path (Bytes.ofString real) : Picture }
    if there.type == .dir then addFolder picture real
    else return { picture with volume := ← addContent picture.volume real }

end

/-- Adds what stands on the way to the last piece of a path, and then what the path leads to. -/
partial def addTarget (picture : Picture) (done : String) : List String → IO Picture
  | [] => return picture
  | [name] => addLast picture ⟨done, name⟩
  | name :: rest => do
    let entry : IO.FS.DirEntry := ⟨done, name⟩
    match ← entry.path.symlinkMetadata.toBaseIO with
    | .error _ => return picture
    | .ok there =>
      let picture ←
        if there.type == .symlink then addShallow picture entry
        else if there.type == .dir then
          let path := Bytes.ofString entry.path.toString
          pure { picture with volume := picture.volume.addFolder path }
        else addEntry picture entry
      addTarget picture entry.path.toString rest
where
  /-- A link on the way, without what is in the folder it leads to. -/
  addShallow (picture : Picture) (entry : IO.FS.DirEntry) : IO Picture := do
    match ← (IO.FS.realPath entry.path).toBaseIO with
    | .error _ => addLink picture entry
    | .ok real =>
      let text := Bytes.ofString real.toString
      let v := picture.volume.addLink (Bytes.ofString entry.path.toString) text
      return { picture with volume := if ← real.isDir then v.addFolder text else v }
  /-- The last piece. -/
  addLast (picture : Picture) (entry : IO.FS.DirEntry) : IO Picture := do
    match ← entry.path.symlinkMetadata.toBaseIO with
    | .error _ => return picture
    | .ok _ => addEntry picture entry

/-- The volume that holds what a path leads to. -/
def take (target : String) : IO Volume := do
  let home := (← IO.currentDir).toString
  let root : Volume := { root := .folder [], limits := .linux }
  let homePath := Bytes.ofString home
  let volume := { root.addFolder homePath with home := Volume.moves homePath }
  let (start, skipped) := if target.startsWith "/" then ("/", 0) else (home, home.length + 1)
  let picture : Picture := { volume := volume, skipped := skipped }
  return (← addTarget picture start (target.splitOn "/")).volume

end Snapshot

/-- The environment variables that matter. -/
def readEnvironment : IO CommandLine.Environment := do
  let mut found : List (String × Bytes) := []
  for name in ["KINDLEFY_LOG", "RUST_LOG", "CLICOLOR_FORCE"] do
    if let some value ← IO.getEnv name then
      found := (name, Bytes.ofString value) :: found
  return fun name => found.lookup name

/-- The volume a request is about. -/
def volumeFor (args : List Bytes) : IO Volume :=
  match CommandLine.readArguments args with
  | .scan (some target) => Snapshot.take target.display
  | _ => pure .empty

end InkLint

open InkLint in
/-- Runs the program on its arguments. -/
def main (args : List String) : IO UInt32 := do
  let args := args.map Bytes.ofString
  let now ← Std.Time.Timestamp.now
  let stamp := timeStamp (now.toNanosecondsSinceUnixEpoch.toInt.toNat / 1000)
  match ← (volumeFor args).toBaseIO with
  | .error e =>
    (← IO.getStderr).putStrLn ("Error: " ++ toString e)
    return 2
  | .ok volume =>
    let ending := CommandLine.run stamp volume (← readEnvironment) args
    (← IO.getStdout).write ⟨ending.stdout.toArray⟩
    (← IO.getStderr).write ⟨ending.stderr.toArray⟩
    return ending.status.toUInt32
