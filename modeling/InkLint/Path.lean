import InkLint.Text.Utf8

/-!
# Paths

A path is any string of bytes, and only `/` separates its pieces. A piece may be empty (two
slashes in a row, a slash at the end); an empty piece and `.` both stay where they are.

`Path.fileName?` and `Path.extension?` look at the text alone; where a path leads is the business
of `InkLint.Volume.Lookup`.
-/

namespace InkLint

/-- A name of an entry in a folder. -/
abbrev Name := Bytes

/-- A path, as it was given or found. -/
abbrev Path := Bytes

namespace Path

/-- The byte that separates pieces. -/
def slash : UInt8 := 0x2f

/-- The byte in front of an extension. -/
def dot : UInt8 := 0x2e

/-- The piece that stays in a folder. -/
def here : Name := [dot]

/-- The piece that goes to the folder above. -/
def up : Name := [dot, dot]

/-- The pieces between the slashes, empty ones included. -/
def pieces (p : Path) : List Name :=
  p.splitOn slash

/-- Whether the path starts at the root of the volume. -/
def isAbsolute (p : Path) : Bool :=
  p.head? == some slash

/-- Whether a piece stays where it is. -/
def staysPut (piece : Name) : Bool :=
  piece.isEmpty || piece == here

/-- The path of an entry of the folder at `p`: a slash stands between unless `p` ends in one. -/
def join (p : Path) (name : Name) : Path :=
  if p.isEmpty || p.getLast? == some slash then p ++ name else p ++ slash :: name

/-- The text shown for a path. -/
def display (p : Path) : String :=
  String.ofList (Utf8.decodeLossy p)

/-- The last piece that does not stay where it is, unless it is `..`. -/
def fileName? (p : Path) : Option Name :=
  match p.pieces.reverse.dropWhile staysPut with
  | [] => none
  | name :: _ => if name == up then none else some name

/-- What follows the last dot of a name, unless that dot stands first. -/
def nameExtension? (name : Name) : Option Bytes :=
  let tail := name.reverse.takeWhile (· != dot)
  match name.reverse.dropWhile (· != dot) with
  | _ :: _ :: _ => some tail.reverse
  | _ => none

/-- The extension of the file name. -/
def extension? (p : Path) : Option Bytes :=
  p.fileName?.bind nameExtension?

/-- A name without slashes that is neither `.` nor `..` is its own file name. -/
theorem fileName?_of_name {name : Name} (hslash : slash ∉ name) (hstay : staysPut name = false)
    (hup : name ≠ up) : fileName? name = some name := by
  have hpieces : pieces name = [name] := List.splitOn_eq_singleton hslash
  simp [fileName?, hpieces, hstay, hup]

end Path

end InkLint
