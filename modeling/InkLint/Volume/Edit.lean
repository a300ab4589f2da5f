import InkLint.Volume.Lookup

/-!
# Building volumes

Files, folders and links are added and removed by path. Folders missing on the way to a new entry
are made, and links on the way are followed. A link itself is replaced or removed, never what it
leads to, except that writing to a link writes the file it leads to, or makes it if it is missing.
-/

namespace InkLint

namespace Node

/-- The entries with `name` standing for `node`: in its place if it is there, at the end if not. -/
def setEntry (name : Name) (node : Node) (entries : List (Name × Node)) : List (Name × Node) :=
  if entries.any (·.1 == name) then
    entries.map fun entry => if entry.1 == name then (name, node) else entry
  else entries ++ [(name, node)]

/-- The tree with `new` at a location below this node. -/
def put : Node → Loc → Node → Node
  | _, [], new => new
  | folder entries, name :: rest, new =>
    folder (setEntry name (((entries.lookup name).getD (folder [])).put rest new) entries)
  | node, _ :: _, _ => node

/-- The tree without what stands at a location below this node. -/
def erase : Node → Loc → Node
  | folder entries, [name] => folder (entries.filter (·.1 != name))
  | folder entries, name :: rest =>
    match entries.lookup name with
    | some child => folder (setEntry name (child.erase rest) entries)
    | none => folder entries
  | node, _ => node

end Node

namespace Volume

/-- A volume with an empty folder as home. Outside it stands one file of the system, which can be
found and cannot be read. -/
def empty : Volume :=
  { root := .folder [("home", .folder []),
      ("proc", .folder [("self", .folder [("mem", .file (.error .inputOutput))])])]
    home := ["home"]
    limits := .linux }

/-- The volume with `node` at a location. -/
def put (v : Volume) (loc : Loc) (node : Node) : Volume :=
  { v with root := v.root.put loc node }

/-- Makes the folders that the pieces name from a location, and tells where they lead. -/
def makeFolders (v : Volume) (loc : Loc) : List Name → Volume × Loc
  | [] => (v, loc)
  | piece :: rest =>
    match v.follow [] ⟨loc, 0⟩ [piece] with
    | .ok next => v.makeFolders next.loc rest
    | .error _ => (v.put (loc ++ [piece]) (.folder [])).makeFolders (loc ++ [piece]) rest

/-- The pieces of a path that lead somewhere. -/
def moves (p : Path) : List Name :=
  p.pieces.filter (!Path.staysPut ·)

/-- Makes the folder at a path, and those on the way. -/
def addFolder (v : Volume) (p : Path) : Volume :=
  (v.makeFolders (origin v.home p) (moves p)).1

/-- Where a file is written when the pieces name it from a location: links are followed to the
end, and what the last one names need not exist. -/
def destination (v : Volume) (busy : List Loc) (loc : Loc) (pieces : List Name) : Option Loc :=
  match pieces.getLast?, v.follow [] ⟨loc, 0⟩ pieces.dropLast with
  | some name, .ok parent =>
    match _h : v.node? (parent.loc ++ [name]) with
    | some (.link text) =>
      if _hbusy : parent.loc ++ [name] ∈ busy then none
      else v.destination ((parent.loc ++ [name]) :: busy) (origin parent.loc text) text.pieces
    | _ => some (parent.loc ++ [name])
  | _, _ => none
termination_by unused v.links busy
decreasing_by
  refine unused_cons_lt (mem_links ?_) _hbusy
  simp [hasLink, _h, Node.isLink]

/-- Puts a file at a path, with a content or with the reason why it cannot be read. -/
def setFile (v : Volume) (p : Path) (content : Content) : Volume :=
  match (moves p).getLast? with
  | none => v
  | some name =>
    let (v, parent) := v.makeFolders (origin v.home p) (moves p).dropLast
    match v.destination [] parent [name] with
    | some loc => v.put loc (.file content)
    | none => v

/-- Writes a file at a path. -/
def addFile (v : Volume) (p : Path) (content : Bytes) : Volume :=
  v.setFile p (.ok content)

/-- Makes a link at a path. -/
def addLink (v : Volume) (p : Path) (text : Path) : Volume :=
  match (moves p).getLast? with
  | none => v
  | some name =>
    let (v, parent) := v.makeFolders (origin v.home p) (moves p).dropLast
    v.put (parent ++ [name]) (.link text)

/-- Removes the entry at a path: a file, a link, or a folder with everything in it. -/
def remove (v : Volume) (p : Path) : Volume :=
  match (moves p).getLast? with
  | none => v
  | some name =>
    match v.follow [] ⟨origin v.home p, 0⟩ (moves p).dropLast with
    | .ok parent => { v with root := v.root.erase (parent.loc ++ [name]) }
    | .error _ => v

end Volume

end InkLint
