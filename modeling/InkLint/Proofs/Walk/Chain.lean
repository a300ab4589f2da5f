import InkLint.Proofs.Walk.Position
import Mathlib

/-!
# Walks and lookups

A walk carries the folders it has open; a lookup starts from the text of a path every time. Below a
folder that its own path leads to, the two agree: going down the names of a position opens the
folder that the position's path leads to (`Descends.anchored`), and the open folders are those that
the shorter positions' paths lead to, the innermost first (`Descends.innermost`).

`IsPosition` is the lookups' own account of which positions there are. Where the walk meets no
fault on the way, it descends along every one of them (`IsPosition.descends`).
-/

namespace InkLint

namespace Volume

/-- Each name is an entry of the folder that the names before it lead to. -/
def IsPosition (v : Volume) (root : Path) (position : List Name) : Prop :=
  ∀ names name, names ++ [name] <+: position →
    ∃ loc, v.locate (root.joinAll names) = .ok loc ∧ v.hasEntry loc name = true

/-- Of the folders on the way down the names, `top` is the innermost one at a location. -/
structure Innermost (v : Volume) (root : Path) (names : List Name) (loc : Loc)
    (top : List Name) : Prop where
  above : top <+: names
  leads : v.locate (root.joinAll top) = .ok loc
  last : ∀ other, other <+: names → v.locate (root.joinAll other) = .ok loc → other <+: top

variable {v : Volume} {outer outer₁ : List OpenFolder} {dir dir₁ root : OpenFolder}
variable {name : Name} {ns ms : List Name}

theorem Anchored.locate (ha : v.Anchored dir) : v.locate dir.path = .ok dir.loc :=
  locate_eq_ok_iff.2 ⟨dir.links, ha.arrives⟩

theorem Anchored.collect_eq (ha : v.Anchored dir) :
    v.collect dir.path = v.walk [] dir (v.names dir.loc) := by
  simp [collect_eq_arrive, ha.arrives, ha.folder]

/-- The walk of a path that leads to a folder starts from that folder. -/
theorem collect_folder {p : Path} {loc : Loc} (h : v.locate p = .ok loc)
    (hfolder : v.hasFolder loc = true) :
    ∃ dir, v.Anchored dir ∧ dir.path = p ∧ dir.loc = loc ∧
      v.collect p = v.walk [] dir (v.names dir.loc) := by
  obtain ⟨links, harrive⟩ := locate_eq_ok_iff.1 h
  have ha : v.Anchored ⟨⟨loc, links⟩, p⟩ := ⟨harrive, hfolder⟩
  exact ⟨_, ha, rfl, rfl, ha.collect_eq⟩

theorem IsPosition.of_prefix {p : Path} (h : v.IsPosition p ns) (hpre : ms <+: ns) :
    v.IsPosition p ms :=
  fun names name hname => h names name (hname.trans hpre)

theorem isPosition_nil (v : Volume) (p : Path) : v.IsPosition p [] := by
  intro names name hname
  simp at hname

theorem isPosition_concat_iff {p : Path} :
    v.IsPosition p (ns ++ [name]) ↔
      v.IsPosition p ns ∧ ∃ loc, v.locate (p.joinAll ns) = .ok loc ∧ name ∈ v.names loc := by
  simp only [← hasEntry_iff]
  constructor
  · intro h
    exact ⟨h.of_prefix (List.prefix_append _ _), h ns name (List.prefix_refl _)⟩
  · rintro ⟨h, hlast⟩ names n hpre
    rcases List.prefix_concat_iff.1 hpre with heq | hpre
    · obtain ⟨rfl, hn⟩ := List.append_inj' heq rfl
      cases hn
      exact hlast
    · exact h names n hpre

/-! ## Open folders -/

/-- The folder that a descent ends in is the one its path leads to. -/
theorem Descends.anchored (hv : v.WellFormed) (hroot : v.Anchored root)
    (h : v.Descends outer root ns outer₁ dir₁) :
    v.Anchored dir₁ ∧ dir₁.path = root.path.joinAll ns := by
  induction h with
  | start => exact ⟨hroot, rfl⟩
  | down _ hmem hlook ih =>
    refine ⟨anchored_of_look hv ih.1 hmem hlook, ?_⟩
    rw [path_of_look hlook, ih.2, Path.joinAll_concat]

theorem Descends.isPosition (hv : v.WellFormed) (hroot : v.Anchored root)
    (h : v.Descends outer root ns outer₁ dir₁) : v.IsPosition root.path ns := by
  induction h with
  | start => exact isPosition_nil v root.path
  | down h hmem _ ih =>
    obtain ⟨ha, hpath⟩ := h.anchored hv hroot
    exact isPosition_concat_iff.2 ⟨ih, _, hpath ▸ ha.locate, hmem⟩

/-- The innermost of the open folders at a location is the innermost on the way down. -/
theorem Descends.innermost (hv : v.WellFormed) (hroot : v.Anchored root)
    (h : v.Descends [] root ns outer₁ dir₁) {loc : Loc}
    (hloc : loc ∈ (dir₁ :: outer₁).map (·.loc)) :
    ∃ top, v.Innermost root.path ns loc top ∧
      OpenFolder.pathOf (dir₁ :: outer₁) loc = root.path.joinAll top := by
  induction h with
  | start =>
    obtain rfl : loc = root.loc := by simpa using hloc
    refine ⟨[], ⟨List.prefix_refl _, hroot.locate, fun other h _ => h⟩, ?_⟩
    simp [OpenFolder.pathOf]
  | @down names outer dir sub name h hmem hlook ih =>
    obtain ⟨ha, hpath⟩ := (h.down hmem hlook).anchored hv hroot
    by_cases hsub : sub.loc = loc
    · subst hsub
      refine ⟨names ++ [name], ⟨List.prefix_refl _, hpath ▸ ha.locate, fun other h _ => h⟩, ?_⟩
      simp [OpenFolder.pathOf, hpath]
    · have hrest : loc ∈ (dir :: outer).map (·.loc) := by
        rw [List.map_cons, List.mem_cons] at hloc
        exact hloc.resolve_left (Ne.symm hsub)
      obtain ⟨top, htop, hpathOf⟩ := ih hrest
      refine ⟨top, ⟨htop.above.trans (List.prefix_append _ _), htop.leads, ?_⟩, ?_⟩
      · intro other hother hleads
        rcases List.prefix_concat_iff.1 hother with rfl | hother
        · rw [← hpath, ha.locate] at hleads
          cases hleads
          exact absurd rfl hsub
        · exact htop.last other hother hleads
      · rw [← hpathOf]
        simp [OpenFolder.pathOf, List.find?_cons, hsub]

/-- The paths on the way down lead to open folders. -/
theorem Descends.mem_opened (hv : v.WellFormed) (hroot : v.Anchored root)
    (h : v.Descends [] root ns outer₁ dir₁) (hpre : ms <+: ns) {loc : Loc}
    (hloc : v.locate (root.path.joinAll ms) = .ok loc) : loc ∈ (dir₁ :: outer₁).map (·.loc) := by
  induction h with
  | start =>
    obtain rfl := List.prefix_nil.1 hpre
    rw [Path.joinAll_nil, hroot.locate] at hloc
    cases hloc
    simp
  | down h hmem hlook ih =>
    rcases List.prefix_concat_iff.1 hpre with rfl | hpre
    · obtain ⟨ha, hpath⟩ := (h.down hmem hlook).anchored hv hroot
      rw [← hpath, ha.locate] at hloc
      cases hloc
      simp
    · exact List.mem_cons_of_mem _ (ih hpre)

theorem Innermost.unique {p : Path} {loc : Loc} {top top' : List Name}
    (h : v.Innermost p ns loc top) (h' : v.Innermost p ns loc top') : top = top' :=
  (h'.last top h.above h.leads).eq_of_length_le (h.last top' h'.above h'.leads).length_le

/-! ## Positions -/

/-- An entry whose path leads to a folder is not listed. -/
theorem look_ne_none (hv : v.WellFormed) (ha : v.Anchored dir) (hmem : name ∈ v.names dir.loc)
    {loc : Loc} (hloc : v.locate (dir.path.join name) = .ok loc) (hfolder : v.hasFolder loc = true) :
    v.look outer dir name ≠ .ok none := by
  have hname := hv.plain hmem
  intro hlook
  rcases (look_eq_none_iff_of_anchored hv ha hmem).1 hlook with hfile | ⟨-, loc', hloc', hfile⟩
  · have henter := enter_file hname hmem hfile
    have hrefuses : v.limits.refuses (dir.path.join name) = false := by
      rw [Bool.eq_false_iff]
      intro hrefuses
      obtain ⟨links, harrive⟩ := locate_eq_ok_iff.1 hloc
      rw [arrive_join ha.arrives hname, if_pos hrefuses] at harrive
      cases harrive
    have harrive : v.arrive (dir.path.join name) = v.enter dir name := by
      rw [arrive_join ha.arrives hname]
      simp [enter, hrefuses]
    rw [henter] at harrive
    have hloc' := locate_eq_ok_iff.2 ⟨dir.links, harrive⟩
    rw [hloc] at hloc'
    cases hloc'
    rw [not_hasFile_of_hasFolder hfolder] at hfile
    cases hfile
  · rw [hloc] at hloc'
    cases hloc'
    rw [not_hasFile_of_hasFolder hfolder] at hfile
    cases hfile

/-- The walk goes down to every position, unless it meets a fault on the way. -/
theorem IsPosition.descends (hv : v.WellFormed) (hroot : v.Anchored root)
    (hpos : v.IsPosition root.path ns) {loc : Loc}
    (hloc : v.locate (root.path.joinAll ns) = .ok loc) (hfolder : v.hasFolder loc = true)
    (hclear : ∀ names n outer dir, names ++ [n] <+: ns → v.Descends [] root names outer dir →
      n ∈ v.names dir.loc → ∀ fault, v.look outer dir n ≠ .error fault) :
    ∃ outer dir, v.Descends [] root ns outer dir ∧ dir.loc = loc := by
  induction ns using List.reverseRecOn generalizing loc with
  | nil =>
    rw [Path.joinAll_nil, hroot.locate] at hloc
    cases hloc
    exact ⟨[], root, .start, rfl⟩
  | append_singleton names n ih =>
    obtain ⟨hpos', loc', hloc', hn⟩ := isPosition_concat_iff.1 hpos
    have hfolder' := hasFolder_of_mem_names hn
    obtain ⟨outer, dir, hdown, rfl⟩ := ih hpos' hloc' hfolder' fun names' n' outer dir hpre =>
      hclear names' n' outer dir (hpre.trans (List.prefix_append _ _))
    obtain ⟨ha, hpath⟩ := hdown.anchored hv hroot
    rw [Path.joinAll_concat, ← hpath] at hloc
    cases hlook : v.look outer dir n with
    | error fault =>
      exact absurd hlook (hclear names n outer dir (List.prefix_refl _) hdown hn fault)
    | ok opened =>
      cases opened with
      | none => exact absurd hlook (look_ne_none hv ha hn hloc hfolder)
      | some sub =>
        have hsub := anchored_of_look hv ha hn hlook
        have hsubloc := hsub.locate
        rw [path_of_look hlook, hloc] at hsubloc
        cases hsubloc
        exact ⟨dir :: outer, sub, hdown.down hn hlook, rfl⟩

end Volume

end InkLint
