import InkLint.Proofs.Walk.Chain

/-!
# The files a walk lists

A walk that ends well lists every file that can be reached through folders and links to folders,
in the order of the names, and nothing else.
-/

namespace InkLint

namespace Volume

/-- The last name is a file, or a link that leads to one. -/
def EndsInFile (v : Volume) (root : Path) (position : List Name) : Prop :=
  ∃ names name loc, position = names ++ [name] ∧ v.locate (root.joinAll names) = .ok loc ∧
    (v.hasFile (loc ++ [name]) = true ∨
      v.hasLink (loc ++ [name]) = true ∧
        ∃ target, v.locate (root.joinAll position) = .ok target ∧ v.hasFile target = true)

variable {v : Volume} {root : OpenFolder} {ns : List Name}

theorem IsPosition.plain (hv : v.WellFormed) {p : Path} (h : v.IsPosition p ns) :
    ∀ n ∈ ns, n.Plain := by
  intro n hn
  obtain ⟨before, after, rfl⟩ := List.append_of_mem hn
  obtain ⟨loc, -, hentry⟩ := h before n ⟨after, by simp⟩
  exact hv.plain (hasEntry_iff.1 hentry)

/-- Where a walk sees no fault at all, it sees a file at exactly the positions that end in one. -/
theorem sees_file_iff (hv : v.WellFormed) (hroot : v.Anchored root)
    (hclear : ∀ position fault, ¬v.Sees [] root position (.error fault)) :
    v.Sees [] root ns (.ok none) ↔ v.IsPosition root.path ns ∧ v.EndsInFile root.path ns := by
  constructor
  · rintro ⟨names, name, outer, dir, rfl, hdown, hmem, hlook⟩
    obtain ⟨ha, hpath⟩ := hdown.anchored hv hroot
    have hloc : v.locate (root.path.joinAll names) = .ok dir.loc := hpath ▸ ha.locate
    refine ⟨isPosition_concat_iff.2 ⟨hdown.isPosition hv hroot, _, hloc, hmem⟩,
      names, name, dir.loc, rfl, hloc, ?_⟩
    rw [Path.joinAll_concat, ← hpath]
    exact (look_eq_none_iff_of_anchored hv ha hmem).1 hlook
  · rintro ⟨hpos, names, name, loc, rfl, hloc, hfile⟩
    obtain ⟨hpos, loc', hloc', hmem⟩ := isPosition_concat_iff.1 hpos
    rw [hloc] at hloc'
    cases hloc'
    have hfolder := hasFolder_of_mem_names hmem
    obtain ⟨outer, dir, hdown, rfl⟩ := hpos.descends hv hroot hloc hfolder
      fun names' n outer dir _ hdown hn fault hlook =>
        hclear _ fault ⟨names', n, outer, dir, rfl, hdown, hn, hlook⟩
    obtain ⟨ha, hpath⟩ := hdown.anchored hv hroot
    refine ⟨names, name, outer, dir, rfl, hdown, hmem, ?_⟩
    rw [Path.joinAll_concat, ← hpath] at hfile
    exact (look_eq_none_iff_of_anchored hv ha hmem).2 hfile

/-- Different positions have different paths. -/
theorem nodup_paths (hv : v.WellFormed) {p : Path} {found : List (List Name)}
    (hsorted : found.Pairwise (· < ·))
    (hfound : ∀ position ∈ found, position ≠ [] ∧ v.IsPosition p position) :
    (found.map p.joinAll).Nodup := by
  refine List.pairwise_map.2 (hsorted.imp_of_mem ?_)
  intro a b ha hb hlt heq
  obtain ⟨hane, hapos⟩ := hfound a ha
  obtain ⟨hbne, hbpos⟩ := hfound b hb
  have hab : a = b := Path.joinAll_inj p hane hbne
    (fun n hn => ⟨(hapos.plain hv n hn).no_slash, (hapos.plain hv n hn).ne_nil⟩)
    (fun n hn => ⟨(hbpos.plain hv n hn).no_slash, (hbpos.plain hv n hn).ne_nil⟩) heq
  subst hab
  exact List.lt_irrefl a hlt

theorem collect_eq_ok {p : Path} {files : List Path} (h : v.collect p = .ok files) :
    ∃ there, v.arrive p = .ok there ∧
      (v.hasFolder there.loc = true ∧ v.walk [] ⟨there, p⟩ (v.names there.loc) = .ok files ∨
        v.hasFile there.loc = true ∧ files = [p]) := by
  rw [collect_eq_arrive] at h
  split at h
  · cases h
  · rename_i there hthere
    refine ⟨there, hthere, ?_⟩
    split at h
    · rename_i hfolder
      exact .inl ⟨hfolder, h⟩
    · rename_i hfolder
      cases h
      exact .inr ⟨(arrive_node hthere).resolve_left hfolder, rfl⟩

/-- The walk of a path that leads to no folder. -/
theorem collect_of_not_hasFolder {p : Path} {loc : Loc} (h : v.locate p = .ok loc)
    (hfolder : v.hasFolder loc = false) : v.collect p = .ok [p] := by
  obtain ⟨links, harrive⟩ := locate_eq_ok_iff.1 h
  simp [collect_eq_arrive, harrive, hfolder]

/-- A walk that ends well lists the positions that lead from entry to entry and end in a file. -/
theorem Anchored.walk_files (hv : v.WellFormed) (hroot : v.Anchored root) {files : List Path}
    (h : v.walk [] root (v.names root.loc) = .ok files) :
    files.Nodup ∧ ∃ found : List (List Name), files = found.map root.path.joinAll ∧
      found.Pairwise (· < ·) ∧
      ∀ position, position ∈ found ↔
        v.IsPosition root.path position ∧ v.EndsInFile root.path position := by
  have htells := walk_tells hv [] root
  rw [h] at htells
  obtain ⟨-, found, rfl, hsorted, hfound⟩ := htells
  have hfiles : ∀ position, position ∈ found ↔
      v.IsPosition root.path position ∧ v.EndsInFile root.path position := by
    intro position
    rw [hfound, ← sees_file_iff hv hroot (not_sees_error hv h)]
    constructor
    · rintro ⟨n, -, ns, -, hsees⟩
      exact hsees
    · intro hsees
      cases position with
      | nil => exact absurd hsees not_sees_nil
      | cons n ns => exact ⟨n, hsees.head_mem, ns, rfl, hsees⟩
  refine ⟨nodup_paths hv hsorted ?_, found, rfl, hsorted, hfiles⟩
  intro position hmem
  obtain ⟨hpos, names, name, loc, rfl, -⟩ := (hfiles position).1 hmem
  exact ⟨by simp, hpos⟩

/-- **A walk lists exactly the files below its root.** A walk that ends well has a root that leads
to a folder or a file. Below a folder it lists the positions that lead from entry to entry and end
in a file, each once and in the order of their names. A root that leads to a file is listed itself,
and that never fails. -/
theorem collect_exact (v : Volume) (hv : v.WellFormed) (root : Path) :
    (∀ files, v.collect root = .ok files →
      ∃ loc, v.locate root = .ok loc ∧
        (v.hasFolder loc = true ∧ files.Nodup ∧
            (∃ found : List (List Name), files = found.map root.joinAll ∧
              found.Pairwise (· < ·) ∧
              ∀ position, position ∈ found ↔
                v.IsPosition root position ∧ v.EndsInFile root position) ∨
          v.hasFile loc = true ∧ files = [root])) ∧
    ∀ loc, v.locate root = .ok loc → v.hasFile loc = true → v.collect root = .ok [root] := by
  constructor
  · intro files h
    obtain ⟨there, harrive, ⟨hfolder, hwalk⟩ | hfile⟩ := collect_eq_ok h
    · have hroot : v.Anchored ⟨there, root⟩ := ⟨harrive, hfolder⟩
      exact ⟨there.loc, hroot.locate, .inl ⟨hfolder, hroot.walk_files hv hwalk⟩⟩
    · exact ⟨there.loc, locate_eq_ok_iff.2 ⟨there.links, harrive⟩, .inr hfile⟩
  · intro loc hlocate hfile
    exact collect_of_not_hasFolder hlocate (not_hasFolder_of_hasFile hfile)

/-- The folder `d` holds the folder `a` with the file `b`, the file `a-b` and the link `l` to `a`.
Beside it stands the link `k` to that file. -/
def linked : Volume :=
  { root := .folder [("d", .folder [("l", .link "a"), ("a-b", .file (.ok [])),
      ("a", .folder [("b", .file (.ok []))])]), ("k", .link "d/a-b")]
    limits := .linux }

theorem collect_exact_linked :
    linked.WellFormed ∧
    linked.collect "d" = .ok ["d/a/b", "d/a-b", "d/l/b"] ∧
    (∃ found : List (List Name),
      (["d/a/b", "d/a-b", "d/l/b"] : List Path) = found.map (Path.joinAll "d") ∧
      found.Pairwise (· < ·) ∧
      ∀ position, position ∈ found ↔
        linked.IsPosition "d" position ∧ linked.EndsInFile "d" position) ∧
    linked.locate "k" = .ok ["d", "a-b"] ∧ linked.hasFile ["d", "a-b"] = true ∧
    linked.collect "k" = .ok ["k"] := by
  have hv : linked.WellFormed := by decide
  have h : linked.collect "d" = .ok ["d/a/b", "d/a-b", "d/l/b"] := by cbv
  have hlocate : linked.locate "k" = .ok ["d", "a-b"] := by cbv
  have hfile : linked.hasFile ["d", "a-b"] = true := by decide
  obtain ⟨loc, -, ⟨-, -, hfound⟩ | ⟨-, hitself⟩⟩ := (collect_exact linked hv "d").1 _ h
  · exact ⟨hv, h, hfound, hlocate, hfile, (collect_exact linked hv "k").2 _ hlocate hfile⟩
  · cases hitself

end Volume

end InkLint
