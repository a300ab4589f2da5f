import InkLint.Proofs.Lookup

/-!
# One entry of a walk

`Volume.look` is what a walk makes of one entry: a fault, a file, or a folder to open. A walk goes
on from there in one of three ways (`walk_cons`), and opening a folder brings `Volume.rank` down
(`rank_lt`), so what holds of a folder as soon as it holds of the folders opened from it holds of
every folder (`walk_induction`).

A folder is `Anchored` if looking up its path leads to it. The folders that a walk opens all are,
and then what the walk makes of an entry can be told from the entry's path alone
(`look_eq_error_iff_of_anchored` and the lemmas after it).
-/

namespace InkLint

namespace Volume

/-- What a walk makes of an entry: a fault, a file (`none`) or a folder to open. -/
def look (v : Volume) (outer : List OpenFolder) (dir : OpenFolder) (name : Name) :
    Except WalkFault (Option OpenFolder) :=
  match v.enter dir name with
  | .error fault => .error (.access (dir.path.join name) fault)
  | .ok there =>
    if v.hasFolder there.loc then
      if there.loc ≠ dir.loc ++ [name] ∧ ((dir :: outer).map (·.loc)).contains there.loc then
        .error (.loop (dir.path.join name) (OpenFolder.pathOf (dir :: outer) there.loc))
      else .ok (some ⟨there, dir.path.join name⟩)
    else .ok none

/-- What a walk lists for one entry. -/
def visit (v : Volume) (outer : List OpenFolder) (dir : OpenFolder) (name : Name) :
    Except WalkFault (List Path) :=
  match v.look outer dir name with
  | .error fault => .error fault
  | .ok none => .ok [dir.path.join name]
  | .ok (some sub) => v.walk (dir :: outer) sub (v.names sub.loc)

variable {v : Volume} {outer : List OpenFolder} {dir sub : OpenFolder} {name : Name}

@[simp] theorem walk_nil : v.walk outer dir [] = .ok [] := by
  rw [walk]

/-- A walk lists one entry after the other and ends at the first fault. -/
theorem walk_cons (rest : List Name) :
    v.walk outer dir (name :: rest) =
      (v.visit outer dir name).bind fun inner => (v.walk outer dir rest).map (inner ++ ·) := by
  rw [walk, visit, look]
  cases v.enter dir name with
  | error fault => rfl
  | ok there =>
    simp only [List.contains_iff_mem]
    split
    · split
      · rfl
      · dsimp only
        cases v.walk (dir :: outer) ⟨there, dir.path.join name⟩ (v.names there.loc) <;> rfl
    · rfl

/-! ## What an entry can be -/

theorem look_eq_error_iff {fault : WalkFault} :
    v.look outer dir name = .error fault ↔
      (∃ cause, v.enter dir name = .error cause ∧ fault = .access (dir.path.join name) cause) ∨
      ∃ there, v.enter dir name = .ok there ∧ v.hasFolder there.loc = true ∧
        there.loc ≠ dir.loc ++ [name] ∧ there.loc ∈ (dir :: outer).map (·.loc) ∧
        fault = .loop (dir.path.join name) (OpenFolder.pathOf (dir :: outer) there.loc) := by
  unfold look
  cases henter : v.enter dir name with
  | error cause =>
    constructor
    · intro h
      cases h
      exact .inl ⟨cause, rfl, rfl⟩
    · rintro (⟨cause', hcause, rfl⟩ | ⟨there, hthere, -⟩)
      · cases hcause
        rfl
      · cases hthere
  | ok there =>
    simp only [List.contains_iff_mem]
    split
    · rename_i hfolder
      split
      · rename_i hloop
        constructor
        · intro h
          cases h
          exact .inr ⟨there, rfl, hfolder, hloop.1, hloop.2, rfl⟩
        · rintro (⟨cause, hcause, -⟩ | ⟨there', hthere, -, -, -, rfl⟩)
          · cases hcause
          · cases hthere
            rfl
      · rename_i hloop
        simp only [reduceCtorEq, false_and, exists_false, false_or, Except.ok.injEq, false_iff]
        rintro ⟨there', rfl, -, hne, hmem, -⟩
        exact hloop ⟨hne, hmem⟩
    · rename_i hfolder
      simp only [reduceCtorEq, false_and, exists_false, false_or, Except.ok.injEq, false_iff]
      rintro ⟨there', rfl, hfolder', -⟩
      exact hfolder hfolder'

theorem look_eq_none_iff :
    v.look outer dir name = .ok none ↔
      ∃ there, v.enter dir name = .ok there ∧ v.hasFolder there.loc = false := by
  unfold look
  cases henter : v.enter dir name with
  | error cause => simp
  | ok there =>
    dsimp only
    split
    · rename_i hfolder
      split <;> simp [hfolder]
    · rename_i hfolder
      simpa using hfolder

theorem look_eq_some_iff :
    v.look outer dir name = .ok (some sub) ↔
      ∃ there, v.enter dir name = .ok there ∧ v.hasFolder there.loc = true ∧
        (there.loc = dir.loc ++ [name] ∨ there.loc ∉ (dir :: outer).map (·.loc)) ∧
        sub = ⟨there, dir.path.join name⟩ := by
  unfold look
  cases henter : v.enter dir name with
  | error cause => simp
  | ok there =>
    simp only [List.contains_iff_mem]
    split
    · rename_i hfolder
      split
      · rename_i hloop
        simp only [reduceCtorEq, Except.ok.injEq, false_iff]
        rintro ⟨there', rfl, -, hnew | hnew, -⟩
        · exact hloop.1 hnew
        · exact hnew hloop.2
      · rename_i hloop
        have hnew : there.loc = dir.loc ++ [name] ∨ there.loc ∉ (dir :: outer).map (·.loc) := by
          by_cases hreal : there.loc = dir.loc ++ [name]
          · exact .inl hreal
          · exact .inr fun hmem => hloop ⟨hreal, hmem⟩
        simp only [Except.ok.injEq, Option.some.injEq]
        constructor
        · rintro rfl
          exact ⟨there, rfl, hfolder, hnew, rfl⟩
        · rintro ⟨there', rfl, -, -, rfl⟩
          rfl
    · rename_i hfolder
      simp only [reduceCtorEq, Except.ok.injEq, false_iff]
      rintro ⟨there', rfl, hfolder', -⟩
      exact hfolder hfolder'

theorem hasFolder_of_look (h : v.look outer dir name = .ok (some sub)) :
    v.hasFolder sub.loc = true := by
  obtain ⟨there, -, hfolder, -, rfl⟩ := look_eq_some_iff.1 h
  exact hfolder

theorem path_of_look (h : v.look outer dir name = .ok (some sub)) :
    sub.path = dir.path.join name := by
  obtain ⟨there, -, -, -, rfl⟩ := look_eq_some_iff.1 h
  rfl

/-! ## Opening a folder cannot go on for ever -/

/-- How many folders can still be opened inside one another, at most: a folder not yet open takes
one round through the height of the tree, a folder proper one step of a round. -/
def rank (v : Volume) (outer : List OpenFolder) (dir : OpenFolder) : Nat :=
  unused v.folders ((dir :: outer).map (·.loc)) * (v.folderHeight + 1) +
    (v.folderHeight - dir.loc.length)

theorem rank_lt (h : v.look outer dir name = .ok (some sub)) :
    v.rank (dir :: outer) sub < v.rank outer dir := by
  obtain ⟨there, -, hfolder, hnew, rfl⟩ := look_eq_some_iff.1 h
  have hheight := length_le_folderHeight hfolder
  have hle := unused_cons_le v.folders ((dir :: outer).map (·.loc)) there.loc
  unfold rank
  rw [List.map_cons]
  by_cases hmem : there.loc ∈ (dir :: outer).map (·.loc)
  · -- a folder proper: no more folders are left than before, and the tree goes one name deeper
    have hreal : there.loc = dir.loc ++ [name] := hnew.resolve_right fun hnot => hnot hmem
    have hlen : there.loc.length = dir.loc.length + 1 := by rw [hreal]; simp
    have hmul := Nat.mul_le_mul_right (v.folderHeight + 1) hle
    dsimp only at hmul ⊢
    omega
  · -- a folder that was not open: one folder less is left
    have hlt := unused_cons_lt (mem_folders hfolder) hmem
    have hmul := Nat.mul_le_mul_right (v.folderHeight + 1) (Nat.succ_le_of_lt hlt)
    rw [Nat.succ_mul] at hmul
    dsimp only at hmul ⊢
    omega

/-- What holds of a folder if it holds of the folders opened from it, holds of every folder. -/
theorem walk_induction (v : Volume) {motive : List OpenFolder → OpenFolder → Prop}
    (step : ∀ outer dir, (∀ name sub, v.look outer dir name = .ok (some sub) →
      motive (dir :: outer) sub) → motive outer dir)
    (outer : List OpenFolder) (dir : OpenFolder) : motive outer dir := by
  induction hn : v.rank outer dir using Nat.strongRecOn generalizing outer dir with
  | ind n ih =>
    apply step
    intro name sub hlook
    exact ih _ (hn ▸ rank_lt hlook) _ _ rfl

/-! ## Entering an entry -/

/-- A file that stands in the folder is entered without a lookup. -/
theorem enter_file (hname : name.Plain) (hmem : name ∈ v.names dir.loc)
    (hfile : v.hasFile (dir.loc ++ [name]) = true) :
    v.enter dir name = .ok ⟨dir.loc ++ [name], dir.links⟩ := by
  simp [enter, hfile, follow_entry hname hmem (not_hasLink_of_hasFile hfile)]

/-- Wherever an entry leads, it leads there from its folder. -/
theorem leads_of_enter {there : Arrival} (h : v.enter dir name = .ok there) :
    v.Leads dir.loc [name] there.loc := by
  unfold enter at h
  split at h
  · cases h
  · exact leads_of_follow h

/-- An entry is a link exactly if it leads elsewhere than to its own location. -/
theorem hasLink_iff_ne {there : Arrival} (hname : name.Plain) (hmem : name ∈ v.names dir.loc)
    (h : v.enter dir name = .ok there) :
    v.hasLink (dir.loc ++ [name]) = true ↔ there.loc ≠ dir.loc ++ [name] := by
  have hleads := leads_of_enter h
  constructor
  · intro hlink heq
    rw [← heq] at hlink
    rcases hleads.node (by simp) with hnode | hnode
    · simp [not_hasLink_of_hasFolder hnode] at hlink
    · simp [not_hasLink_of_hasFile hnode] at hlink
  · intro hne
    cases hlink : v.hasLink (dir.loc ++ [name]) with
    | true => rfl
    | false => exact absurd (hleads.unique (.piece (step_name hname hmem) hlink (.done _))) hne

/-! ## Anchored folders -/

/-- Looking up the path of the folder leads to it. -/
structure Anchored (v : Volume) (dir : OpenFolder) : Prop where
  arrives : v.arrive dir.path = .ok dir.toArrival
  folder : v.hasFolder dir.loc = true

/-- An entry that is no file is entered by looking up its path. -/
theorem Anchored.enter_eq (ha : v.Anchored dir) (hname : name.Plain)
    (hfile : v.hasFile (dir.loc ++ [name]) = false) :
    v.enter dir name = v.arrive (dir.path.join name) := by
  rw [arrive_join ha.arrives hname]
  simp [enter, hfile]

section
variable (hv : v.WellFormed) (ha : v.Anchored dir) (hmem : name ∈ v.names dir.loc)
include hv ha hmem

theorem anchored_of_look (h : v.look outer dir name = .ok (some sub)) : v.Anchored sub := by
  have hname := hv.plain hmem
  obtain ⟨there, henter, hfolder, -, rfl⟩ := look_eq_some_iff.1 h
  cases hfile : v.hasFile (dir.loc ++ [name]) with
  | true =>
    rw [enter_file hname hmem hfile] at henter
    cases henter
    rw [not_hasFolder_of_hasFile hfile] at hfolder
    cases hfolder
  | false => exact ⟨by rw [← ha.enter_eq hname hfile, henter], hfolder⟩

/-- An entry is a fault if its path cannot be looked up, though not if it is a file, and if it is a
link to an open folder. -/
theorem look_eq_error_iff_of_anchored {fault : WalkFault} :
    v.look outer dir name = .error fault ↔
      (v.hasFile (dir.loc ++ [name]) = false ∧ ∃ cause,
        v.locate (dir.path.join name) = .error cause ∧
        fault = .access (dir.path.join name) cause) ∨
      (v.hasLink (dir.loc ++ [name]) = true ∧ ∃ loc,
        v.locate (dir.path.join name) = .ok loc ∧ v.hasFolder loc = true ∧
        loc ∈ (dir :: outer).map (·.loc) ∧
        fault = .loop (dir.path.join name) (OpenFolder.pathOf (dir :: outer) loc)) := by
  have hname := hv.plain hmem
  rw [look_eq_error_iff]
  cases hfile : v.hasFile (dir.loc ++ [name]) with
  | true =>
    rw [enter_file hname hmem hfile]
    simp [not_hasLink_of_hasFile hfile]
  | false =>
    have henter := ha.enter_eq hname hfile
    constructor
    · rintro (⟨cause, hcause, rfl⟩ | ⟨there, hthere, hfolder, hne, hopen, rfl⟩)
      · exact .inl ⟨rfl, cause, locate_eq_error_iff.2 (henter ▸ hcause), rfl⟩
      · exact .inr ⟨(hasLink_iff_ne hname hmem hthere).2 hne, there.loc,
          locate_eq_ok_iff.2 ⟨there.links, henter ▸ hthere⟩, hfolder, hopen, rfl⟩
    · rintro (⟨-, cause, hcause, rfl⟩ | ⟨hlink, loc, hloc, hfolder, hopen, rfl⟩)
      · exact .inl ⟨cause, henter ▸ locate_eq_error_iff.1 hcause, rfl⟩
      · obtain ⟨links, harrive⟩ := locate_eq_ok_iff.1 hloc
        have hthere : v.enter dir name = .ok ⟨loc, links⟩ := henter ▸ harrive
        exact .inr ⟨_, hthere, hfolder, (hasLink_iff_ne hname hmem hthere).1 hlink, hopen, rfl⟩

/-- An entry is listed if it is a file or a link that leads to one. -/
theorem look_eq_none_iff_of_anchored :
    v.look outer dir name = .ok none ↔
      v.hasFile (dir.loc ++ [name]) = true ∨
      (v.hasLink (dir.loc ++ [name]) = true ∧ ∃ loc,
        v.locate (dir.path.join name) = .ok loc ∧ v.hasFile loc = true) := by
  have hname := hv.plain hmem
  rw [look_eq_none_iff]
  cases hfile : v.hasFile (dir.loc ++ [name]) with
  | true =>
    rw [enter_file hname hmem hfile]
    simp [not_hasFolder_of_hasFile hfile]
  | false =>
    rw [ha.enter_eq hname hfile]
    simp only [Bool.false_eq_true, false_or]
    constructor
    · rintro ⟨there, hthere, hfolder⟩
      have hnode : v.hasFile there.loc = true := by
        rcases arrive_node hthere with h | h
        · rw [hfolder] at h
          cases h
        · exact h
      refine ⟨?_, there.loc, locate_eq_ok_iff.2 ⟨there.links, hthere⟩, hnode⟩
      rw [hasLink_iff_ne hname hmem (ha.enter_eq hname hfile ▸ hthere)]
      rintro heq
      rw [heq, hfile] at hnode
      cases hnode
    · rintro ⟨-, loc, hloc, hnode⟩
      obtain ⟨links, harrive⟩ := locate_eq_ok_iff.1 hloc
      exact ⟨_, harrive, not_hasFolder_of_hasFile hnode⟩

end

end Volume

end InkLint
