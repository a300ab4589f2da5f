import InkLint.Proofs.Walk.Chain

/-!
# How deep a walk goes

Links can lead round in circles, and a folder proper is opened without a look at the folders that
are open already, so one folder can be open twice on one way down. A walk ends all the same. Each
descent through a link opens a folder that was not open, so there are fewer of them than folders
(`Descends.count_links`); between two of them each descent goes one name deeper into the tree, so
they are no more than the tree is high (`Descends.run_le`).

`Volume.collectWithin` is the walk with a limit to the folders that are open inside one another. It
gives no other answer than the walk without a limit, and from a limit on that depends on the
volume alone it always gives one.
-/

namespace InkLint

namespace Volume

/-- A walk of the path opens the folders along the names. -/
def Walked (v : Volume) (root : Path) (names : List Name) : Prop :=
  ∃ there outer dir, v.arrive root = .ok there ∧ v.hasFolder there.loc = true ∧
    v.Descends [] ⟨there, root⟩ names outer dir

/-- Whether an entry of the folder that a path leads to is a link. -/
def isLinkIn (v : Volume) (p : Path) (name : Name) : Bool :=
  match v.locate p with
  | .ok loc => v.hasLink (loc ++ [name])
  | .error _ => false

/-- For each name on the way down from a path, whether it is a link. -/
def descents (v : Volume) (p : Path) : List Name → List Bool
  | [] => []
  | name :: rest => v.isLinkIn p name :: v.descents (p.join name) rest

variable {v : Volume} {outer outer₁ : List OpenFolder} {dir dir₁ sub root : OpenFolder}
variable {name : Name} {ns ms : List Name}

/-! ## Descents -/

theorem descents_concat (p : Path) :
    v.descents p (ns ++ [name]) = v.descents p ns ++ [v.isLinkIn (p.joinAll ns) name] := by
  induction ns generalizing p with
  | nil => rfl
  | cons n ns ih => simp [descents, ih]

/-- A folder proper is opened one name deeper in the tree, a link only where no folder is open. -/
theorem opens_cases (hv : v.WellFormed) (hmem : name ∈ v.names dir.loc)
    (hlook : v.look outer dir name = .ok (some sub)) :
    v.hasLink (dir.loc ++ [name]) = false ∧ sub.loc = dir.loc ++ [name] ∨
      v.hasLink (dir.loc ++ [name]) = true ∧ sub.loc ∉ (dir :: outer).map (·.loc) := by
  obtain ⟨there, henter, -, hnew, rfl⟩ := look_eq_some_iff.1 hlook
  have hlink := hasLink_iff_ne (hv.plain hmem) hmem henter
  cases h : v.hasLink (dir.loc ++ [name]) with
  | false => exact .inl ⟨rfl, Decidable.not_not.1 fun hne => by simp [hlink.2 hne] at h⟩
  | true => exact .inr ⟨rfl, hnew.resolve_left (hlink.1 h)⟩

theorem Descends.isLinkIn_eq (hv : v.WellFormed) (hroot : v.Anchored root)
    (h : v.Descends outer root ns outer₁ dir₁) :
    v.isLinkIn (root.path.joinAll ns) name = v.hasLink (dir₁.loc ++ [name]) := by
  obtain ⟨ha, hpath⟩ := h.anchored hv hroot
  simp [isLinkIn, ← hpath, ha.locate]

/-- One open folder is one folder less. -/
theorem unused_singleton_lt {loc : Loc} (h : v.hasFolder loc = true) :
    unused v.folders [loc] < v.folders.length := by
  have hall : unused v.folders [] = v.folders.length := by simp [unused]
  rw [← hall]
  exact unused_cons_lt (mem_folders h) List.not_mem_nil

/-- Every descent through a link takes up a folder that was not open. -/
theorem Descends.count_links (hv : v.WellFormed) (hroot : v.Anchored root)
    (h : v.Descends outer root ns outer₁ dir₁) :
    (v.descents root.path ns).count true + unused v.folders ((dir₁ :: outer₁).map (·.loc)) ≤
      unused v.folders ((root :: outer).map (·.loc)) := by
  induction h with
  | start => simp [descents]
  | @down names outer' dir sub name h hmem hlook ih =>
    rw [descents_concat, h.isLinkIn_eq hv hroot, List.count_append, List.map_cons]
    rcases opens_cases hv hmem hlook with ⟨hlink, -⟩ | ⟨hlink, hnew⟩
    · have hle := unused_cons_le v.folders ((dir :: outer').map (·.loc)) sub.loc
      simp only [hlink, List.count_singleton, beq_true, Bool.false_eq_true, if_false]
      omega
    · have hlt := unused_cons_lt (mem_folders (hasFolder_of_look hlook)) hnew
      simp only [hlink, List.count_singleton, beq_self_eq_true, if_true]
      omega

/-- Descents into folders proper, at the end of the way, have led that deep into the tree. -/
theorem Descends.run_le (hv : v.WellFormed) (hroot : v.Anchored root)
    (h : v.Descends outer root ns outer₁ dir₁) {run : Nat}
    (hrun : List.replicate run false <:+ v.descents root.path ns) : run ≤ dir₁.loc.length := by
  induction h generalizing run with
  | start =>
    have hlength := hrun.length_le
    simp [descents] at hlength
    omega
  | @down names outer' dir sub name h hmem hlook ih =>
    cases run with
    | zero => exact Nat.zero_le _
    | succ run =>
      rw [descents_concat, h.isLinkIn_eq hv hroot, List.replicate_succ', List.suffix_concat_iff]
        at hrun
      obtain hnil | ⟨before, heq, hsuffix⟩ := hrun
      · simp at hnil
      · obtain ⟨rfl, hlast⟩ := List.append_inj' heq rfl
        have hrun := ih hsuffix
        rcases opens_cases hv hmem hlook with ⟨-, hloc⟩ | ⟨hlink, -⟩
        · rw [hloc, List.length_append, List.length_singleton]
          omega
        · simp [hlink] at hlast

theorem Descends.run_le_folderHeight (hv : v.WellFormed) (hroot : v.Anchored root)
    (h : v.Descends outer root ns outer₁ dir₁) {run : Nat}
    (hrun : List.replicate run false <:+: v.descents root.path ns) : run ≤ v.folderHeight := by
  induction h with
  | start =>
    have hlength := hrun.length_le
    simp [descents] at hlength
    omega
  | @down names outer' dir sub name h hmem hlook ih =>
    have hdown := h.down hmem hlook
    rw [descents_concat, List.infix_concat_iff, ← descents_concat] at hrun
    rcases hrun with hrun | hrun
    · exact Nat.le_trans (hdown.run_le hv hroot hrun)
        (length_le_folderHeight (hasFolder_of_look hlook))
    · exact ih hrun

/-- A descent through a link leads to a folder that no shorter way leads to. -/
theorem Descends.link_new (hv : v.WellFormed) (hroot : v.Anchored root)
    (h : v.Descends [] root ns outer₁ dir₁) (hpre : ms ++ [name] <+: ns)
    (hlink : v.isLinkIn (root.path.joinAll ms) name = true) {other : List Name}
    (hother : other <+: ms) :
    v.locate (root.path.joinAll other) ≠ v.locate (root.path.joinAll (ms ++ [name])) := by
  obtain ⟨outer', dir', sub, hdown, hmem, hlook⟩ := h.of_prefix hpre
  obtain ⟨hsub, hpath⟩ := (hdown.down hmem hlook).anchored hv hroot
  rw [← hpath, hsub.locate]
  intro hlocate
  rw [hdown.isLinkIn_eq hv hroot] at hlink
  rcases opens_cases hv hmem hlook with ⟨hreal, -⟩ | ⟨-, hnew⟩
  · rw [hlink] at hreal
    cases hreal
  · exact hnew (hdown.mem_opened hv hroot hother hlocate)

/-! ## A limit to the depth -/

/-- Lists one entry after the other, up to the first fault or to where there is no answer. -/
def inTurn (visit : Name → Option (Except WalkFault (List Path))) :
    List Name → Option (Except WalkFault (List Path))
  | [] => some (.ok [])
  | name :: rest =>
    match visit name with
    | none => none
    | some (.error fault) => some (.error fault)
    | some (.ok inner) => (inTurn visit rest).map (·.map (inner ++ ·))

/-- The walk of a folder with at most `depth` folders open inside one another. -/
def walkWithin (v : Volume) : Nat → List OpenFolder → OpenFolder →
    Option (Except WalkFault (List Path))
  | 0, _, _ => none
  | depth + 1, outer, dir =>
    inTurn (fun name =>
      match v.look outer dir name with
      | .error fault => some (.error fault)
      | .ok none => some (.ok [dir.path.join name])
      | .ok (some sub) => v.walkWithin depth (dir :: outer) sub) (v.names dir.loc)

/-- The walk of a path with at most `depth` folders open inside one another. -/
def collectWithin (v : Volume) (depth : Nat) (root : Path) :
    Option (Except WalkFault (List Path)) :=
  match v.arrive root with
  | .error fault => some (.error (.access root fault))
  | .ok there =>
    if v.hasFolder there.loc then v.walkWithin depth [] ⟨there, root⟩ else some (.ok [root])

section
variable {visit : Name → Option (Except WalkFault (List Path))}

/-- Where every entry has the walk's answer or none, so has the folder. -/
theorem inTurn_eq {names : List Name} {answer : Except WalkFault (List Path)}
    (hvisit : ∀ name ∈ names, ∀ result, visit name = some result →
      result = v.visit outer dir name)
    (h : inTurn visit names = some answer) : answer = v.walk outer dir names := by
  induction names generalizing answer with
  | nil => simpa [inTurn] using h.symm
  | cons name rest ih =>
    rw [walk_cons]
    unfold inTurn at h
    split at h
    · cases h
    · rename_i hname
      rw [← hvisit name (by simp) _ hname]
      cases h
      rfl
    · rename_i inner hname
      rw [← hvisit name (by simp) _ hname]
      obtain ⟨others, hothers, rfl⟩ := Option.map_eq_some_iff.1 h
      rw [← ih (fun n hn => hvisit n (List.mem_cons_of_mem _ hn)) hothers]
      rfl

theorem inTurn_ne_none {names : List Name} (hvisit : ∀ name ∈ names, visit name ≠ none) :
    inTurn visit names ≠ none := by
  induction names with
  | nil => simp [inTurn]
  | cons name rest ih =>
    have hrest := ih fun n hn => hvisit n (List.mem_cons_of_mem _ hn)
    unfold inTurn
    split
    · rename_i hname
      exact absurd hname (hvisit name (by simp))
    · simp
    · simpa using hrest

end

/-- A walk with a limit has the answer of the walk without one, or none. -/
theorem walkWithin_eq {depth : Nat} {answer : Except WalkFault (List Path)}
    (h : v.walkWithin depth outer dir = some answer) :
    answer = v.walk outer dir (v.names dir.loc) := by
  induction depth generalizing outer dir answer with
  | zero => cases h
  | succ depth ih =>
    refine inTurn_eq ?_ h
    intro name _ result hresult
    rw [visit]
    cases hlook : v.look outer dir name with
    | error fault =>
      rw [hlook] at hresult
      cases hresult
      rfl
    | ok opened =>
      rw [hlook] at hresult
      cases opened with
      | none => cases hresult; rfl
      | some sub => exact ih hresult

/-- It has an answer if the limit is above the rank. -/
theorem walkWithin_ne_none {depth : Nat} (h : v.rank outer dir < depth) :
    v.walkWithin depth outer dir ≠ none := by
  induction depth generalizing outer dir with
  | zero => omega
  | succ depth ih =>
    refine inTurn_ne_none ?_
    intro name _
    split
    · simp
    · simp
    · rename_i sub hlook
      have hlt := rank_lt hlook
      exact ih (by omega)

theorem rank_lt_mul (hfolder : v.hasFolder dir.loc = true) :
    v.rank [] dir < v.folders.length * (v.folderHeight + 1) := by
  have hlt := unused_singleton_lt hfolder
  have hmul := Nat.mul_le_mul_right (v.folderHeight + 1) (Nat.succ_le_of_lt hlt)
  rw [Nat.succ_mul] at hmul
  unfold rank
  rw [List.map_cons, List.map_nil]
  omega

theorem collectWithin_eq {depth : Nat} {p : Path} {answer : Except WalkFault (List Path)}
    (h : v.collectWithin depth p = some answer) : answer = v.collect p := by
  rw [collect_eq_arrive]
  cases harrive : v.arrive p with
  | error fault =>
    simp only [collectWithin, harrive, Option.some.injEq] at h
    exact h.symm
  | ok there =>
    cases hfolder : v.hasFolder there.loc with
    | false => simpa [collectWithin, harrive, hfolder] using h.symm
    | true =>
      simp only [collectWithin, harrive, hfolder, if_true] at h
      simpa [hfolder] using walkWithin_eq h

theorem collectWithin_ne_none {depth : Nat} (p : Path)
    (h : v.folders.length * (v.folderHeight + 1) ≤ depth) : v.collectWithin depth p ≠ none := by
  unfold collectWithin
  split
  · simp
  · rename_i there harrive
    split
    · rename_i hfolder
      have hlt : v.rank [] ⟨there, p⟩ < v.folders.length * (v.folderHeight + 1) :=
        rank_lt_mul hfolder
      exact walkWithin_ne_none (Nat.lt_of_lt_of_le hlt h)
    · simp

/-- **A walk ends, whatever the links.** Every folder of the volume counts once. On the way down a
descent through a link opens a folder that was not open, so there are fewer such descents than
folders, and no more descents in a row lead into folders proper than the tree of folders is high.
A limit to the depth can keep the walk from giving an answer but never changes the answer, and no
limit above a number that the volume alone decides does even that. -/
theorem collect_depth (v : Volume) (hv : v.WellFormed) (root : Path) :
    (v.folders.Nodup ∧ ∀ loc, loc ∈ v.folders ↔ v.hasFolder loc = true) ∧
    (∀ names, v.Walked root names →
      (∀ before name, before ++ [name] <+: names →
        v.isLinkIn (root.joinAll before) name = true → ∀ other, other <+: before →
          v.locate (root.joinAll other) ≠ v.locate (root.joinAll (before ++ [name]))) ∧
      (v.descents root names).count true < v.folders.length ∧
      ∀ run, List.replicate run false <:+: v.descents root names → run ≤ v.folderHeight) ∧
    (∀ depth answer, v.collectWithin depth root = some answer → answer = v.collect root) ∧
    ∀ depth, v.folders.length * (v.folderHeight + 1) ≤ depth →
      v.collectWithin depth root = some (v.collect root) := by
  refine ⟨⟨hv.nodup_folders, fun loc => hv.mem_folders_iff⟩, ?_, ?_, ?_⟩
  · rintro names ⟨there, outer, dir, harrive, hfolder, hdown⟩
    have hroot : v.Anchored ⟨there, root⟩ := ⟨harrive, hfolder⟩
    refine ⟨?_, ?_, ?_⟩
    · intro before name hpre hlink other hother
      exact hdown.link_new hv hroot hpre hlink hother
    · have hcount := hdown.count_links hv hroot
      have hlt := unused_singleton_lt hfolder
      simp only [List.map_cons, List.map_nil] at hcount
      omega
    · intro run hrun
      exact hdown.run_le_folderHeight hv hroot hrun
  · intro depth answer h
    exact collectWithin_eq h
  · intro depth hdepth
    obtain ⟨answer, h⟩ := Option.ne_none_iff_exists'.1 (collectWithin_ne_none root hdepth)
    rw [h, collectWithin_eq h]

/-- In the folder `d` the folder `a` has a link `x` to the folder `b`, and `b` a link `y` to `a`. -/
def crossed : Volume :=
  { root := .folder [("d", .folder [("a", .folder [("x", .link "../b")]),
      ("b", .folder [("y", .link "../a")])])]
    limits := .linux }

theorem collect_depth_crossed :
    crossed.WellFormed ∧ crossed.Walked "d" ["a", "x"] ∧
    (crossed.descents "d" ["a", "x"]).count true < crossed.folders.length ∧
    crossed.collectWithin 12 "d" = some (.error (.loop "d/a/x/y" "d/a")) := by
  have hv : crossed.WellFormed := by decide
  have hwalked : crossed.Walked "d" ["a", "x"] := by
    have harrive : crossed.arrive "d" = .ok ⟨["d"], 0⟩ := by cbv
    have hreal : crossed.look [] ⟨⟨["d"], 0⟩, "d"⟩ "a" =
        .ok (some ⟨⟨["d", "a"], 0⟩, "d/a"⟩) := by cbv
    have hlink : crossed.look [⟨⟨["d"], 0⟩, "d"⟩] ⟨⟨["d", "a"], 0⟩, "d/a"⟩ "x" =
        .ok (some ⟨⟨["d", "b"], 1⟩, "d/a/x"⟩) := by cbv
    have hdown := (Descends.start.down ((mem_names_iff rfl).2 rfl) hreal).down
      ((mem_names_iff rfl).2 rfl) hlink
    exact ⟨_, _, _, harrive, rfl, hdown⟩
  have h := collect_depth crossed hv "d"
  have hcollect : crossed.collect "d" = .error (.loop "d/a/x/y" "d/a") := by cbv
  exact ⟨hv, hwalked, (h.2.1 _ hwalked).2.1, hcollect ▸ h.2.2.2 12 (by decide)⟩

end Volume

end InkLint
