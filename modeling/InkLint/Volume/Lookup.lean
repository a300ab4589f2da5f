import InkLint.Volume.Basic

/-!
# Looking up a path

A lookup goes through the pieces of a path one by one. A piece can only be taken inside a folder;
`..` goes to the folder that holds this one, whichever way the lookup came; a link is replaced by
the location its text leads to from the folder it stands in. `Volume.peek` stops short of that for
a link at the very end of a path.

A lookup through links fails to end exactly when some link is met again while its own text is still
being followed. `Volume.follow` therefore carries the links it is busy with and refuses a link it
is already busy with; the recursion ends because the links it is not busy with get fewer. It also
counts the links it has followed, for the sake of volumes that limit their number, and without such
a limit the count decides nothing.

`follow_append` says that pieces can be followed in two goes.
-/

namespace InkLint

namespace Volume

/-- The longest name a folder can hold. -/
def maxName : Nat := 255

/-- Where one piece leads from a location, a link left as it is. -/
def step (v : Volume) (loc : Loc) (piece : Name) : Except Fault Loc :=
  match v.node? loc with
  | some (.folder entries) =>
    if Path.staysPut piece then .ok loc
    else if piece = Path.up then .ok loc.dropLast
    else if maxName < piece.length then .error (.os .nameTooLong)
    else if (entries.lookup piece).isSome then .ok (loc ++ [piece])
    else .error (.os .noSuchFile)
  | _ => .error (.os .notADirectory)

/-- Where the text of a path starts when it is followed from `loc`. -/
def origin (loc : Loc) (p : Path) : Loc :=
  if p.isAbsolute then [] else loc

/-- Where a lookup has come to, and how many links it has followed. -/
structure Arrival where
  loc : Loc
  links : Nat := 0
deriving DecidableEq, Repr

/-- Where a list of pieces leads from an arrival, all links followed. The links in `busy` are
those whose text is being followed. -/
def follow (v : Volume) (busy : List Loc) (here : Arrival) : List Name → Except Fault Arrival
  | [] => .ok here
  | piece :: rest =>
    match v.step here.loc piece with
    | .error fault => .error fault
    | .ok next =>
      match _h : v.node? next with
      | some (.link text) =>
        if _hbusy : next ∈ busy ∨ v.limits.spent here.links then .error (.os .linkCircle)
        else
          match v.follow (next :: busy) ⟨origin here.loc text, here.links + 1⟩ text.pieces with
          | .error fault => .error fault
          | .ok reached => v.follow busy reached rest
      | _ => v.follow busy ⟨next, here.links⟩ rest
termination_by pieces => (unused v.links busy, pieces.length)
decreasing_by
  · refine Prod.Lex.left _ _ (unused_cons_lt (mem_links ?_) fun h => _hbusy (.inl h))
    simp [hasLink, _h, Node.isLink]
  · exact Prod.Lex.right _ (Nat.lt_succ_self _)
  · exact Prod.Lex.right _ (Nat.lt_succ_self _)

@[simp] theorem follow_nil (v : Volume) (busy : List Loc) (here : Arrival) :
    v.follow busy here [] = .ok here := by
  rw [follow]

/-- Pieces can be followed in two goes: the first ones, and from where they lead the others. -/
theorem follow_append (v : Volume) (busy : List Loc) (here : Arrival) (first rest : List Name) :
    v.follow busy here (first ++ rest) =
      match v.follow busy here first with
      | .error fault => .error fault
      | .ok reached => v.follow busy reached rest := by
  induction first generalizing here with
  | nil => simp
  | cons piece first ih =>
    rw [List.cons_append, follow, follow]
    cases v.step here.loc piece with
    | error fault => rfl
    | ok next =>
      simp only
      split
      · split
        · rfl
        · split
          · rfl
          · exact ih _
      · exact ih _

/-- Why a path is refused before any piece of it is looked up. -/
def refusal? (v : Volume) (p : Path) : Option Fault :=
  if 0 ∈ p then some .nulByte
  else if v.limits.refuses p then some (.os .nameTooLong)
  else if p = [] then some (.os .noSuchFile)
  else none

/-- Where a path leads, with the number of links on the way. -/
def arrive (v : Volume) (p : Path) : Except Fault Arrival :=
  match v.refusal? p with
  | some fault => .error fault
  | none => v.follow [] ⟨origin v.home p, 0⟩ p.pieces

/-- Where a path leads if a link that its last piece names is left as it is. An empty last piece
names no link: the one in front of it has been followed. -/
def peek (v : Volume) (p : Path) : Except Fault Arrival :=
  match v.refusal? p with
  | some fault => .error fault
  | none =>
    match v.follow [] ⟨origin v.home p, 0⟩ p.pieces.dropLast with
    | .error fault => .error fault
    | .ok there =>
      match v.step there.loc (p.pieces.getLastD []) with
      | .error fault => .error fault
      | .ok last => .ok ⟨last, there.links⟩

/-- The location a path leads to. -/
def locate (v : Volume) (p : Path) : Except Fault Loc :=
  (v.arrive p).map (·.loc)

/-- The content of the file a path leads to, unless the system refuses to read it. -/
def read (v : Volume) (p : Path) : Except Fault Bytes :=
  match v.locate p with
  | .error fault => .error fault
  | .ok loc =>
    match v.node? loc with
    | some (.file content) => content.mapError .os
    | _ => .error (.os .isADirectory)

end Volume

end InkLint
