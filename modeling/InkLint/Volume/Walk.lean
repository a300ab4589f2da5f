import InkLint.Volume.Lookup

/-!
# Walking a folder

A walk lists every file below a folder, depth first, the entries of each folder in the order of
their names' bytes. Links are followed. A link that leads to a folder which is being walked would
go round for ever, so it ends the walk with a fault; so does a link that leads nowhere. A folder
that is not reached through a link is never refused. The root of a walk is looked at as it stands
before it is followed.

The recursion ends without any limit of its own: a descent through a link opens a folder that is
not open yet, and a descent into a folder proper goes one name deeper.
-/

namespace InkLint

/-- A folder being walked: the path it was reached by and where that led. -/
structure OpenFolder extends Volume.Arrival where
  path : Path
deriving DecidableEq, Repr

/-- The path by which the innermost open folder at a location was reached. -/
def OpenFolder.pathOf (opened : List OpenFolder) (loc : Loc) : Path :=
  match opened.find? (·.loc == loc) with
  | some dir => dir.path
  | none => []

namespace Volume

/-- The names in the folder at a location, in the order of their bytes. -/
def names (v : Volume) (loc : Loc) : List Name :=
  match v.node? loc with
  | some (.folder entries) => (entries.map (·.1)).mergeSort (fun a b => decide (a ≤ b))
  | _ => []

/-- Where an entry of an open folder leads. A file that stands in the folder itself is listed
without being looked up, so its path may have any length. -/
def enter (v : Volume) (dir : OpenFolder) (name : Name) : Except Fault Arrival :=
  if v.limits.refuses (dir.path.join name) && !v.hasFile (dir.loc ++ [name]) then
    .error (.os .nameTooLong)
  else v.follow [] dir.toArrival [name]

/-- The files below the entries `names` of the folder `dir`, which is open inside `outer`. An entry
that leads elsewhere than to its own location is a link; only such an entry is compared with the
open folders. -/
def walk (v : Volume) (outer : List OpenFolder) (dir : OpenFolder) :
    List Name → Except WalkFault (List Path)
  | [] => .ok []
  | name :: rest =>
    match v.enter dir name with
    | .error fault => .error (.access (dir.path.join name) fault)
    | .ok there =>
      if v.hasFolder there.loc then
        if there.loc ≠ dir.loc ++ [name] ∧ there.loc ∈ (dir :: outer).map (·.loc) then
          .error (.loop (dir.path.join name) (OpenFolder.pathOf (dir :: outer) there.loc))
        else
          match v.walk (dir :: outer) ⟨there, dir.path.join name⟩ (v.names there.loc) with
          | .error fault => .error fault
          | .ok inner => (v.walk outer dir rest).map (inner ++ ·)
      else (v.walk outer dir rest).map (dir.path.join name :: ·)
termination_by names =>
  (unused v.folders ((dir :: outer).map (·.loc)), v.folderHeight - dir.loc.length, names.length)
decreasing_by
  · rename_i hfolder hopen
    have hle := unused_cons_le v.folders ((dir :: outer).map (·.loc)) there.loc
    by_cases hnew : there.loc ∈ (dir :: outer).map (·.loc)
    · have hdeeper : there.loc = dir.loc ++ [name] :=
        Decidable.not_not.1 fun hne => hopen ⟨hne, hnew⟩
      rcases Nat.lt_or_eq_of_le hle with hlt | heq
      · exact Prod.Lex.left _ _ hlt
      · simp only [List.map_cons] at heq ⊢
        rw [heq]
        refine Prod.Lex.right _ (Prod.Lex.left _ _ ?_)
        have hheight := length_le_folderHeight hfolder
        rw [hdeeper] at hheight ⊢
        simp only [List.length_append, List.length_singleton] at hheight ⊢
        omega
    · exact Prod.Lex.left _ _ (unused_cons_lt (mem_folders hfolder) hnew)
  · exact Prod.Lex.right _ (Prod.Lex.right _ (Nat.lt_succ_self _))
  · exact Prod.Lex.right _ (Prod.Lex.right _ (Nat.lt_succ_self _))

/-- Where the root of a walk leads. The root is looked at as it stands, and followed only if it is
a link. Nothing is open yet, so it is not compared with anything. -/
def enterRoot (v : Volume) (root : Path) : Except Fault Arrival :=
  match v.peek root with
  | .error fault => .error fault
  | .ok there => if v.hasLink there.loc then v.arrive root else .ok there

/-- Every file below a path, or the path itself if it leads to a file. -/
def collect (v : Volume) (root : Path) : Except WalkFault (List Path) :=
  match v.enterRoot root with
  | .error fault => .error (.access root fault)
  | .ok there =>
    if v.hasFolder there.loc then v.walk [] ⟨there, root⟩ (v.names there.loc)
    else .ok [root]

end Volume

end InkLint
