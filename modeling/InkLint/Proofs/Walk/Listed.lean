import InkLint.Proofs.Walk.Files
import InkLint.Scan

/-!
# Where a listed path leads

A walk lists a path without looking it up: it knows the folder it has open and the entry in it. Here
the two are brought together. `Volume.Meets` says which file resolving a target comes to under which
path, and looking that path up from its text leads to the same file (`Meets.locate`), unless the
path has become too long to be looked up at all. That, or that the system withholds the file, is why
a listed path cannot be read (`Meets.read_error_iff`).
-/

namespace InkLint

namespace Volume

/-- Resolving the target comes to the file at a location under a path: the target is that file, or
the walk below it enters the file as an entry of an open folder. -/
inductive Meets (v : Volume) (target : Path) : Path → Loc → Prop
  | itself {there : Arrival} :
      v.arrive target = .ok there → v.hasFile there.loc = true → Meets v target target there.loc
  | entry {top there : Arrival} {names : List Name} {outer : List OpenFolder} {dir : OpenFolder}
      {name : Name} :
      v.arrive target = .ok top → v.hasFolder top.loc = true →
      v.Descends [] ⟨top, target⟩ names outer dir → name ∈ v.names dir.loc →
      v.enter dir name = .ok there → v.hasFile there.loc = true →
      Meets v target (dir.path.join name) there.loc

/-- The path leads to a file that the system refuses to read. -/
def Withholds (v : Volume) (p : Path) (cause : OsError) : Prop :=
  ∃ loc, v.locate p = .ok loc ∧ v.node? loc = some (.file (.error cause))

/-- Why a file cannot be read by its path. -/
inductive Unreadable (v : Volume) (p : Path) : OsError → Prop
  /-- The path is too long to be looked up. -/
  | tooLong : v.limits.refuses p = true → Unreadable v p .nameTooLong
  | withheld {cause : OsError} : v.Withholds p cause → Unreadable v p cause

variable {v : Volume} {root dir : OpenFolder} {name : Name} {target p : Path} {loc : Loc}
variable {files : List Path}

/-! ## Looking a listed path up -/

theorem not_refuses_of_arrive {there : Arrival} (h : v.arrive p = .ok there) :
    v.limits.refuses p = false :=
  (arrive_eq_ok_iff.1 h).2.1

/-- Looking up the path of an entry leads where the walk enters it, unless the path is too long. -/
theorem Anchored.arrive_eq (ha : v.Anchored dir) (hname : name.Plain)
    (h : v.limits.refuses (dir.path.join name) = false) :
    v.arrive (dir.path.join name) = v.enter dir name := by
  rw [arrive_join ha.arrives hname]
  simp [enter, h]

/-- A listed path leads to the file that was met under it, unless it is too long. -/
theorem Meets.locate (hv : v.WellFormed) (h : v.Meets target p loc) :
    v.locate p = if v.limits.refuses p then .error (.os .nameTooLong) else .ok loc := by
  cases h with
  | @itself there harrive _ =>
    rw [not_refuses_of_arrive harrive]
    exact locate_eq_ok_iff.2 ⟨there.links, harrive⟩
  | @entry top there names outer dir name harrive hfolder hdown hmem henter _ =>
    have ha := (hdown.anchored hv ⟨harrive, hfolder⟩).1
    have hname := hv.plain hmem
    split
    · rename_i hrefuses
      rw [locate_eq_error_iff, arrive_join ha.arrives hname, if_pos hrefuses]
    · rename_i hrefuses
      have harrive := ha.arrive_eq hname (Bool.eq_false_iff.2 hrefuses)
      rw [henter] at harrive
      exact locate_eq_ok_iff.2 ⟨there.links, harrive⟩

theorem Meets.hasFile (h : v.Meets target p loc) : v.hasFile loc = true := by
  cases h with
  | itself _ hfile => exact hfile
  | entry _ _ _ _ _ hfile => exact hfile

/-- What is read at a listed path is the content of the file that was met under it. -/
theorem Meets.read (hv : v.WellFormed) (h : v.Meets target p loc) :
    ∃ content, v.node? loc = some (.file content) ∧
      v.read p = if v.limits.refuses p then .error (.os .nameTooLong)
        else content.mapError .os := by
  obtain ⟨content, hnode⟩ := hasFile_iff.1 h.hasFile
  refine ⟨content, hnode, ?_⟩
  rw [Volume.read, h.locate hv]
  cases v.limits.refuses p with
  | true => rfl
  | false => simp [hnode]

/-- Reading a listed path fails exactly where the file cannot be read. -/
theorem Meets.read_error_iff (hv : v.WellFormed) (h : v.Meets target p loc) {fault : Fault} :
    v.read p = .error fault ↔ ∃ cause, v.Unreadable p cause ∧ fault = .os cause := by
  obtain ⟨content, hnode, hread⟩ := h.read hv
  have hlocate := h.locate hv
  cases hrefuses : v.limits.refuses p with
  | true =>
    simp only [hrefuses, if_true] at hread hlocate
    rw [hread]
    constructor
    · intro hfault
      cases hfault
      exact ⟨_, .tooLong hrefuses, rfl⟩
    · rintro ⟨_, _ | ⟨_, hother, -⟩, rfl⟩
      · rfl
      · rw [hlocate] at hother
        cases hother
  | false =>
    simp only [hrefuses, Bool.false_eq_true, if_false] at hread hlocate
    rw [hread]
    constructor
    · intro hfault
      cases content with
      | ok bytes => cases hfault
      | error cause =>
        cases hfault
        exact ⟨cause, .withheld ⟨loc, hlocate, hnode⟩, rfl⟩
    · rintro ⟨_, hlong | ⟨_, hother, hrefused⟩, rfl⟩
      · rw [hrefuses] at hlong
        cases hlong
      · rw [hlocate] at hother
        cases hother
        rw [hnode] at hrefused
        cases hrefused
        rfl

/-! ## The listed paths -/

/-- A walk lists the paths of the positions where it sees a file, each once. -/
theorem walk_listed (hv : v.WellFormed) (hroot : v.Anchored root)
    (h : v.walk [] root (v.names root.loc) = .ok files) :
    files.Nodup ∧
      ∀ p, p ∈ files ↔ ∃ ns, v.Sees [] root ns (.ok none) ∧ p = root.path.joinAll ns := by
  obtain ⟨found, rfl, hsorted, hsees⟩ := walk_found hv h
  constructor
  · refine nodup_paths hv hsorted fun ns hns => ?_
    have hsees := (hsees ns).1 hns
    have hpos := ((sees_file_iff hv hroot (not_sees_error hv h)).1 hsees).1
    refine ⟨?_, hpos⟩
    rintro rfl
    exact not_sees_nil hsees
  · intro p
    rw [List.mem_map]
    constructor
    · rintro ⟨ns, hns, rfl⟩
      exact ⟨ns, (hsees ns).1 hns, rfl⟩
    · rintro ⟨ns, hns, rfl⟩
      exact ⟨ns, (hsees ns).2 hns, rfl⟩

/-- Under every path that a walk lists it has met a file. -/
theorem meets_of_sees (hv : v.WellFormed) {top : Arrival} {ns : List Name}
    (harrive : v.arrive target = .ok top) (hfolder : v.hasFolder top.loc = true)
    (h : v.Sees [] ⟨top, target⟩ ns (.ok none)) :
    ∃ loc, v.Meets target (Path.joinAll target ns) loc := by
  obtain ⟨names, name, outer, dir, rfl, hdown, hmem, hlook⟩ := h
  obtain ⟨there, henter, hnot⟩ := look_eq_none_iff.1 hlook
  have hpath := (hdown.anchored hv ⟨harrive, hfolder⟩).2
  have hfile : v.hasFile there.loc = true := by
    rcases (leads_of_enter henter).node (by simp) with h | h
    · rw [hnot] at h; cases h
    · exact h
  rw [Path.joinAll_concat, ← hpath]
  exact ⟨there.loc, .entry harrive hfolder hdown hmem henter hfile⟩

end Volume

/-! ## Resolving a target -/

variable {v : Volume} {target p : Path} {files : List Path}

theorem collectFiles_result (v : Volume) (root : Path) :
    (collectFiles v root).result = (v.collect root).mapError .walk := by
  unfold collectFiles
  cases v.collect root <;> rfl

/-- A target is resolved by walking the folder it leads to, or stands for itself. -/
theorem resolve_result (v : Volume) (target : Path) :
    (resolve v target).result =
      match v.locate target with
      | .error fault => .error (.target target fault)
      | .ok loc => if v.hasFolder loc then (v.collect target).mapError .walk else .ok [target] := by
  unfold resolve
  cases v.locate target with
  | error fault => rfl
  | ok loc =>
    dsimp only
    split
    · exact collectFiles_result v target
    · rfl

theorem resolve_anchored {dir : OpenFolder} (ha : v.Anchored dir) :
    (resolve v dir.path).result = (v.walk [] dir (v.names dir.loc)).mapError .walk := by
  simp [resolve_result, ha.locate, ha.folder, ha.collect_eq]

/-- Resolving fails only because the target cannot be accessed or because the walk fails. -/
theorem resolve_error {error : LintError} (h : (resolve v target).result = .error error) :
    (∃ cause, error = .target target cause) ∨ ∃ fault, error = .walk fault := by
  rw [resolve_result] at h
  cases hlocate : v.locate target with
  | error cause =>
    rw [hlocate] at h
    cases h
    exact .inl ⟨cause, rfl⟩
  | ok loc =>
    rw [hlocate] at h
    cases hfolder : v.hasFolder loc with
    | false => simp [hfolder] at h
    | true =>
      cases hcollect : v.collect target with
      | ok files => simp [hfolder, hcollect, Except.mapError] at h
      | error fault =>
        refine .inr ⟨fault, ?_⟩
        simpa [hfolder, hcollect, Except.mapError, eq_comm] using h

/-- Below a folder the resolved files are those that a walk lists. -/
theorem resolve_folder {loc : Loc} (hlocate : v.locate target = .ok loc)
    (hfolder : v.hasFolder loc = true) (h : (resolve v target).result = .ok files) :
    ∃ dir, v.Anchored dir ∧ dir.path = target ∧ dir.loc = loc ∧
      v.walk [] dir (v.names dir.loc) = .ok files := by
  obtain ⟨dir, ha, rfl, rfl, -⟩ := Volume.collect_folder hlocate hfolder
  refine ⟨dir, ha, rfl, rfl, ?_⟩
  rw [resolve_anchored ha] at h
  cases hwalk : v.walk [] dir (v.names dir.loc) with
  | ok found => simpa [hwalk, Except.mapError] using h
  | error fault => simp [hwalk, Except.mapError] at h

/-- A file has been met under every path that a target is resolved to. -/
theorem resolve_meets (hv : v.WellFormed) (h : (resolve v target).result = .ok files)
    (hp : p ∈ files) : ∃ loc, v.Meets target p loc := by
  have hresult := h
  rw [resolve_result] at hresult
  cases hlocate : v.locate target with
  | error fault => rw [hlocate] at hresult; cases hresult
  | ok loc =>
    obtain ⟨links, harrive⟩ := Volume.locate_eq_ok_iff.1 hlocate
    cases hfolder : v.hasFolder loc with
    | true =>
      obtain ⟨dir, ha, rfl, rfl, hwalk⟩ := resolve_folder hlocate hfolder h
      obtain ⟨ns, hsees, rfl⟩ := ((Volume.walk_listed hv ha hwalk).2 p).1 hp
      exact Volume.meets_of_sees hv ha.arrives ha.folder hsees
    | false =>
      simp only [hlocate, hfolder, Bool.false_eq_true, if_false, Except.ok.injEq] at hresult
      subst hresult
      obtain rfl := List.mem_singleton.1 hp
      have hfile := (Volume.arrive_node harrive).resolve_left (by simp [hfolder])
      exact ⟨loc, .itself harrive hfile⟩

end InkLint
