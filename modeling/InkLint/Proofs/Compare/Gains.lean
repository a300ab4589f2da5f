import InkLint.Proofs.Compare.Within
import InkLint.Proofs.Walk.Listed
import InkLint.Volume.Edit

/-!
# One file more

`v.Gains w loc name content` says that `w` is `v` with one file more, called `name` in the folder at
`loc`. Putting a file there is one way to come from `v` to `w` (`gains_put`).

A walk that goes well in `v` goes well in `w`. It descends along the same names
(`Gains.descends_iff`), because a new file is no folder and what was entered in `v` is entered in
`w`; and it sees what it saw before, and the new file in every folder that lies at `loc`
(`Gains.sees_iff`). The same folder can be reached through several links, so the new file may turn
up several times.
-/

namespace InkLint

namespace Node

theorem lookup_replace (name other : Name) (node : Node) (entries : List (Name × Node)) :
    (entries.map fun entry => if entry.1 == name then (name, node) else entry).lookup other =
      if other = name then (entries.lookup name).map fun _ => node else entries.lookup other := by
  induction entries with
  | nil => simp
  | cons entry entries ih =>
    obtain ⟨n, child⟩ := entry
    simp only [List.map_cons]
    by_cases hn : n = name
    · subst hn
      by_cases hother : other = n
      · simp [hother]
      · simp only [beq_self_eq_true, if_true, List.lookup_cons, beq_eq_false_iff_ne.2 hother, ih]
        simp [hother]
    · simp only [beq_eq_false_iff_ne.2 hn, Bool.false_eq_true, if_false, List.lookup_cons, ih,
        beq_eq_false_iff_ne.2 (Ne.symm hn)]
      by_cases hother : other = n
      · simp [hother, hn]
      · simp [beq_eq_false_iff_ne.2 hother]

theorem lookup_setEntry (name other : Name) (node : Node) (entries : List (Name × Node)) :
    (setEntry name node entries).lookup other =
      if other = name then some node else entries.lookup other := by
  have hany : entries.any (·.1 == name) = (entries.lookup name).isSome := by
    rw [Bool.eq_iff_iff, List.any_eq_true, List.lookup_isSome_iff]
    simp only [BEq.comm]
  unfold setEntry
  rw [hany]
  cases hname : entries.lookup name with
  | some child =>
    rw [Option.isSome_some, if_pos rfl, lookup_replace, hname]
    rfl
  | none =>
    by_cases hother : other = name
    · simp [List.lookup_append, hother, hname]
    · simp [List.lookup_append, hother, List.lookup_cons, beq_eq_false_iff_ne.2 hother]

/-- Putting a file into a folder that does not have its name changes nothing else. -/
theorem get?_put_file (content : Content) {name : Name} {loc : Loc} {n : Node}
    {entries : List (Name × Node)} (hfolder : n.get? loc = some (folder entries))
    (hmissing : entries.lookup name = none) :
    (n.put (loc ++ [name]) (file content)).get? (loc ++ [name]) = some (file content) ∧
      ∀ other, other ≠ loc ++ [name] →
        Option.Rel (Agrees (· = ·)) (n.get? other)
          ((n.put (loc ++ [name]) (file content)).get? other) := by
  have hsame (o : Option Node) : Option.Rel (Agrees (· = ·)) o o := by
    cases o with
    | none => exact .none
    | some node => exact .some (Agrees.refl node)
  induction loc generalizing n with
  | nil =>
    rw [get?_nil] at hfolder
    cases hfolder
    simp only [List.nil_append, put, get?_folder_cons, lookup_setEntry, if_true]
    refine ⟨rfl, fun other hne => ?_⟩
    cases other with
    | nil => exact .some trivial
    | cons m rest =>
      simp only [get?_folder_cons, lookup_setEntry]
      by_cases hm : m = name
      · subst hm
        rw [hmissing, if_pos rfl]
        cases rest with
        | nil => exact absurd rfl hne
        | cons k rest => exact .none
      · rw [if_neg hm]
        exact hsame _
  | cons a loc ih =>
    cases n with
    | file c => cases hfolder
    | link t => cases hfolder
    | folder es =>
      rw [get?_folder_cons] at hfolder
      obtain ⟨child, hchild, hget⟩ := Option.bind_eq_some_iff.1 hfolder
      obtain ⟨hadded, hothers⟩ := ih hget
      simp only [List.cons_append, put, get?_folder_cons, lookup_setEntry, if_true, hchild,
        Option.getD_some, Option.bind_some]
      refine ⟨hadded, fun other hne => ?_⟩
      cases other with
      | nil => exact .some trivial
      | cons m rest =>
        simp only [get?_folder_cons, lookup_setEntry]
        by_cases hm : m = a
        · subst hm
          rw [hchild, if_pos rfl]
          exact hothers rest fun heq => hne (congrArg _ heq)
        · rw [if_neg hm]
          exact hsame _

end Node

namespace Volume

/-- `w` is `v` with one file more, `name` in the folder at `loc`. -/
structure Gains (v w : Volume) (loc : Loc) (name : Name) (content : Bytes) : Prop where
  home : w.home = v.home
  limits : w.limits = v.limits
  folder : v.hasFolder loc = true
  missing : v.node? (loc ++ [name]) = none
  added : w.node? (loc ++ [name]) = some (.file (.ok content))
  others : ∀ other, other ≠ loc ++ [name] →
    Option.Rel (Node.Agrees (· = ·)) (v.node? other) (w.node? other)

/-- A file put into a folder is one file more. -/
theorem gains_put {v : Volume} (loc : Loc) (name : Name) (content : Bytes)
    (hfolder : v.hasFolder loc = true) (hmissing : v.node? (loc ++ [name]) = none) :
    v.Gains (v.put (loc ++ [name]) (.file (.ok content))) loc name content := by
  obtain ⟨entries, hnode⟩ := hasFolder_iff.1 hfolder
  obtain ⟨hadded, hothers⟩ :=
    Node.get?_put_file (.ok content) hnode ((node?_concat hnode name).symm.trans hmissing)
  exact ⟨rfl, rfl, hfolder, hmissing, hadded, hothers⟩

/-- The paths by which a walk of `root` comes to the folder at a location. -/
def waysTo (v : Volume) (root : Path) (loc : Loc) : Set Path :=
  {p | ∃ names, v.IsPosition root names ∧ p = root.joinAll names ∧ v.locate p = .ok loc}

variable {v w : Volume} {loc : Loc} {name : Name} {content : Bytes}
variable {outer : List OpenFolder} {dir root : OpenFolder} {ns : List Name}

/-- Where a walk meets no fault, the paths to a folder are those by which it opens the folder. -/
theorem mem_waysTo_iff (hv : v.WellFormed) (hroot : v.Anchored root)
    (hclear : ∀ position fault, ¬v.Sees [] root position (.error fault))
    (hfolder : v.hasFolder loc = true) {p : Path} :
    p ∈ v.waysTo root.path loc ↔
      ∃ names outer dir, v.Descends [] root names outer dir ∧ dir.loc = loc ∧
        p = root.path.joinAll names := by
  constructor
  · rintro ⟨names, hpos, rfl, hloc⟩
    obtain ⟨outer, dir, hdown, hdir⟩ := hpos.descends hv hroot hloc hfolder
      fun names' n outer dir _ hdown hn fault hlook =>
        hclear _ fault ⟨names', n, outer, dir, rfl, hdown, hn, hlook⟩
    exact ⟨names, outer, dir, hdown, hdir, rfl⟩
  · rintro ⟨names, outer, dir, hdown, rfl, rfl⟩
    obtain ⟨ha, hpath⟩ := hdown.anchored hv hroot
    exact ⟨names, hdown.isPosition hv hroot, rfl, hpath ▸ ha.locate⟩

namespace Gains

variable (h : v.Gains w loc name content)
include h

/-! ## Nodes and names -/

theorem within : v.Within w := by
  refine ⟨h.home, fun p hp => h.limits ▸ hp, fun n hn => h.limits ▸ hn, ?_⟩
  intro other node hnode
  have hne : other ≠ loc ++ [name] := by
    rintro rfl
    rw [h.missing] at hnode
    cases hnode
  have hothers := h.others other hne
  rw [hnode] at hothers
  cases hw : w.node? other with
  | none => rw [hw] at hothers; cases hothers
  | some node' =>
    rw [hw] at hothers
    cases hothers with
    | some hagrees => exact ⟨node', rfl, hagrees⟩

theorem isSome_of_ne {other : Loc} (hne : other ≠ loc ++ [name]) :
    (w.node? other).isSome = (v.node? other).isSome := by
  have hothers := h.others other hne
  cases hv : v.node? other <;> cases hw : w.node? other <;> rw [hv, hw] at hothers <;>
    first | rfl | cases hothers

/-- There are no new folders. -/
theorem hasFolder_of {other : Loc} (hw : w.hasFolder other = true) : v.hasFolder other = true := by
  have hne : other ≠ loc ++ [name] := by
    rintro rfl
    rw [not_hasFolder_of_hasFile (hasFile_iff.2 ⟨_, h.added⟩)] at hw
    cases hw
  have hsome : (v.node? other).isSome := by
    obtain ⟨entries, hentries⟩ := hasFolder_iff.1 hw
    rw [← h.isSome_of_ne hne, hentries]
    rfl
  rcases node_cases hsome with hnode | hnode | hnode
  · exact hnode
  · rw [not_hasFolder_of_hasFile (h.within.hasFile hnode)] at hw
    cases hw
  · obtain ⟨text, htext⟩ := hasLink_iff.1 hnode
    rw [hasFolder, h.within.node?_link htext] at hw
    cases hw

theorem mem_names_iff (other : Loc) (n : Name) :
    n ∈ w.names other ↔ n ∈ v.names other ∨ other = loc ∧ n = name := by
  by_cases hnew : other ++ [n] = loc ++ [name]
  · obtain ⟨rfl, hn⟩ := List.append_inj' hnew rfl
    cases hn
    simp [Volume.mem_names_iff (h.within.hasFolder h.folder), h.added]
  · have hne : ¬(other = loc ∧ n = name) := by
      rintro ⟨rfl, rfl⟩
      exact hnew rfl
    simp only [hne, or_false]
    constructor
    · intro hmem
      have hfolder := hasFolder_of_mem_names hmem
      rw [Volume.mem_names_iff hfolder, h.isSome_of_ne hnew] at hmem
      exact (Volume.mem_names_iff (h.hasFolder_of hfolder)).2 hmem
    · intro hmem
      have hfolder := hasFolder_of_mem_names hmem
      rw [Volume.mem_names_iff hfolder, ← h.isSome_of_ne hnew] at hmem
      exact (Volume.mem_names_iff (h.within.hasFolder hfolder)).2 hmem

theorem mem_names : name ∈ w.names loc :=
  (h.mem_names_iff loc name).2 (.inr ⟨rfl, rfl⟩)

/-- The new file is listed wherever its folder is open. -/
theorem look_added (hw : w.WellFormed) (hdir : dir.loc = loc) :
    w.look outer dir name = .ok none := by
  subst hdir
  have hfile : w.hasFile (dir.loc ++ [name]) = true := hasFile_iff.2 ⟨_, h.added⟩
  exact look_eq_none_iff.2
    ⟨_, enter_file (hw.plain h.mem_names) h.mem_names hfile, not_hasFolder_of_hasFile hfile⟩

/-! ## Walks that go well -/

variable (hclear : ∀ position fault, ¬v.Sees [] root position (.error fault))
include hclear

/-- What the walk saw before it sees again. -/
theorem look_eq_of_descends (hdown : v.Descends [] root ns outer dir) {n : Name}
    (hmem : n ∈ v.names dir.loc) : w.look outer dir n = v.look outer dir n := by
  cases hv : v.look outer dir n with
  | error fault => exact absurd ⟨ns, n, outer, dir, rfl, hdown, hmem, hv⟩ (hclear _ fault)
  | ok opened => exact h.within.look hv

variable (hw : w.WellFormed)
include hw

/-- The walk descends along the same names as before. -/
theorem descends_iff : w.Descends [] root ns outer dir ↔ v.Descends [] root ns outer dir := by
  constructor
  · intro hdown
    induction hdown with
    | start => exact .start
    | down _ hmem hlook ih =>
      rcases (h.mem_names_iff _ _).1 hmem with hmem | ⟨hdir, rfl⟩
      · rw [h.look_eq_of_descends hclear ih hmem] at hlook
        exact ih.down hmem hlook
      · rw [h.look_added hw hdir] at hlook
        cases hlook
  · intro hdown
    induction hdown with
    | start => exact .start
    | down _ hmem hlook ih =>
      exact ih.down ((h.mem_names_iff _ _).2 (.inl hmem)) (h.within.look hlook)

/-- The walk sees what it saw before, and the new file in each folder at its place. -/
theorem sees_iff {seen : Except WalkFault (Option OpenFolder)} :
    w.Sees [] root ns seen ↔ v.Sees [] root ns seen ∨
      seen = .ok none ∧ ∃ names outer dir, ns = names ++ [name] ∧
        v.Descends [] root names outer dir ∧ dir.loc = loc := by
  constructor
  · rintro ⟨names, n, outer, dir, rfl, hdown, hmem, hlook⟩
    rw [h.descends_iff hclear hw] at hdown
    rcases (h.mem_names_iff _ _).1 hmem with hmem | ⟨hdir, rfl⟩
    · rw [h.look_eq_of_descends hclear hdown hmem] at hlook
      exact .inl ⟨names, n, outer, dir, rfl, hdown, hmem, hlook⟩
    · rw [h.look_added hw hdir] at hlook
      exact .inr ⟨hlook.symm, names, outer, dir, rfl, hdown, hdir⟩
  · rintro (⟨names, n, outer, dir, rfl, hdown, hmem, hlook⟩ |
      ⟨rfl, names, outer, dir, rfl, hdown, hdir⟩)
    · rw [← h.look_eq_of_descends hclear hdown hmem] at hlook
      exact ⟨names, n, outer, dir, rfl, (h.descends_iff hclear hw).2 hdown,
        (h.mem_names_iff _ _).2 (.inl hmem), hlook⟩
    · exact ⟨names, name, outer, dir, rfl, (h.descends_iff hclear hw).2 hdown,
        (h.mem_names_iff _ _).2 (.inr ⟨hdir, rfl⟩), h.look_added hw hdir⟩

/-- A walk that went well goes well again. -/
theorem walk_ok : ∃ files, w.walk [] root (w.names root.loc) = .ok files := by
  cases hnew : w.walk [] root (w.names root.loc) with
  | ok files => exact ⟨files, rfl⟩
  | error fault =>
    obtain ⟨position, hsees⟩ := sees_of_walk_error hw hnew
    rcases (h.sees_iff hclear hw).1 hsees with hsees | ⟨hok, -⟩
    · exact absurd hsees (hclear _ _)
    · cases hok

omit hclear hw in
/-- Where the new file is, the walk saw nothing before. -/
theorem not_sees_added (hdown : v.Descends [] root ns outer dir) (hdir : dir.loc = loc)
    {seen : Except WalkFault (Option OpenFolder)} : ¬v.Sees [] root (ns ++ [name]) seen := by
  rintro ⟨names, n, outer', dir', heq, hdown', hmem, -⟩
  obtain ⟨rfl, hn⟩ := List.append_inj' heq rfl
  cases hn
  obtain ⟨rfl, rfl⟩ := hdown.unique hdown'
  rw [hdir, Volume.mem_names_iff h.folder, h.missing] at hmem
  cases hmem

/-- The positions of files that are new are those of the new file. -/
theorem sees_new_iff :
    w.Sees [] root ns (.ok none) ∧ ¬v.Sees [] root ns (.ok none) ↔
      ∃ names outer dir, ns = names ++ [name] ∧ v.Descends [] root names outer dir ∧
        dir.loc = loc := by
  rw [h.sees_iff hclear hw]
  constructor
  · rintro ⟨hsees | ⟨-, hnew⟩, hnot⟩
    · exact absurd hsees hnot
    · exact hnew
  · rintro ⟨names, outer, dir, rfl, hdown, hdir⟩
    exact ⟨.inr ⟨rfl, names, outer, dir, rfl, hdown, hdir⟩, h.not_sees_added hdown hdir⟩

end Gains

/-! ## The files a walk lists -/

/-- `new` lists what `old` lists, in the same order, and besides a file called `name` below each of
the paths `ways`, which makes as many different files. -/
structure Adds (name : Name) (ways old new : List Path) : Prop where
  nodup : new.Nodup
  distinct : (ways.map (·.join name)).Nodup
  mem : ∀ p ∈ ways, p.join name ∈ new
  old_eq : old = new.filter (· ∉ ways.map (·.join name))

theorem Adds.perm {ways old new : List Path} (h : Adds name ways old new) :
    new.Perm (old ++ ways.map (·.join name)) := by
  have hadded : (new.filter (· ∈ ways.map (·.join name))).Perm (ways.map (·.join name)) := by
    refine (List.perm_ext_iff_of_nodup (h.nodup.filter _) h.distinct).2 fun p => ?_
    rw [List.mem_filter, decide_eq_true_iff, and_iff_right_iff_imp]
    intro hp
    obtain ⟨q, hq, rfl⟩ := List.mem_map.1 hp
    exact h.mem q hq
  have hparts := List.filter_append_perm (fun p => decide (p ∉ ways.map (·.join name))) new
  simp only [decide_not, Bool.not_not] at hparts
  rw [h.old_eq]
  simp only [decide_not]
  exact hparts.symm.trans (hadded.append_left _)

/-- Positions that are added to others, and that all end in one name, add files of this name. -/
theorem adds_of_positions {root : Path} {found found' : List (List Name)}
    (hsorted : found.Pairwise (· < ·)) (hsorted' : found'.Pairwise (· < ·))
    (hnodup : (found'.map root.joinAll).Nodup) (hsub : ∀ position ∈ found, position ∈ found')
    (hname : ∀ position ∈ found', position ∉ found → ∃ names, position = names ++ [name]) :
    Adds name ((found'.filter (· ∉ found)).map fun position => root.joinAll position.dropLast)
      (found.map root.joinAll) (found'.map root.joinAll) := by
  have hjoin : ((found'.filter (· ∉ found)).map fun position =>
      root.joinAll position.dropLast).map (·.join name) =
      (found'.filter (· ∉ found)).map root.joinAll := by
    rw [List.map_map]
    refine List.map_congr_left fun position hmem => ?_
    obtain ⟨hmem, hnot⟩ := List.mem_filter.1 hmem
    obtain ⟨names, rfl⟩ := hname position hmem (of_decide_eq_true hnot)
    simp
  have hpaths : ((found'.filter (· ∉ found)).map root.joinAll).Sublist (found'.map root.joinAll) :=
    List.filter_sublist.map _
  refine ⟨hnodup, hjoin ▸ hnodup.sublist hpaths, fun p hp => ?_, ?_⟩
  · have hmem := List.mem_map_of_mem (f := fun q : Path => q.join name) hp
    rw [hjoin] at hmem
    exact hpaths.subset hmem
  · rw [hjoin, List.filter_map]
    refine congrArg _ (hsorted.eq_of_mem_iff (hsorted'.filter _) fun position => ?_)
    rw [List.mem_filter, Function.comp_apply, decide_eq_true_iff]
    constructor
    · intro hold
      refine ⟨hsub position hold, fun hpath => ?_⟩
      obtain ⟨other, hother, heq⟩ := List.mem_map.1 hpath
      obtain ⟨hother, hnot⟩ := List.mem_filter.1 hother
      rw [List.inj_on_of_nodup_map hnodup hother (hsub position hold) heq] at hnot
      exact of_decide_eq_true hnot hold
    · rintro ⟨hmem, hnot⟩
      by_contra hold
      exact hnot (List.mem_map_of_mem (List.mem_filter.2 ⟨hmem, decide_eq_true hold⟩))

/-- A walk that goes well lists what it listed before, and the new file once for each way to its
folder. -/
theorem Gains.walk (h : v.Gains w loc name content) (hv : v.WellFormed) (hw : w.WellFormed)
    (hroot : v.Anchored root) {files : List Path}
    (hwalk : v.walk [] root (v.names root.loc) = .ok files) :
    ∃ newFiles ways, w.walk [] root (w.names root.loc) = .ok newFiles ∧
      (∀ p, p ∈ ways ↔ p ∈ v.waysTo root.path loc) ∧ Adds name ways files newFiles := by
  have hclear := not_sees_error hv hwalk
  obtain ⟨newFiles, hnew⟩ := h.walk_ok hclear hw
  have hnodup := (walk_listed hw (h.within.anchored hroot) hnew).1
  obtain ⟨found, rfl, hsorted, hfound⟩ := walk_found hv hwalk
  obtain ⟨found', rfl, hsorted', hfound'⟩ := walk_found hw hnew
  have hadded (position : List Name) : position ∈ found' ∧ position ∉ found ↔
      ∃ names outer dir, position = names ++ [name] ∧ v.Descends [] root names outer dir ∧
        dir.loc = loc := by
    rw [hfound, hfound', h.sees_new_iff hclear hw]
  refine ⟨_, (found'.filter (· ∉ found)).map fun position => root.path.joinAll position.dropLast,
    hnew, fun p => ?_, adds_of_positions hsorted hsorted' hnodup ?_ ?_⟩
  · rw [mem_waysTo_iff hv hroot hclear h.folder, List.mem_map]
    simp only [List.mem_filter, decide_eq_true_iff, hadded]
    constructor
    · rintro ⟨_, ⟨names, outer, dir, rfl, hdown, hdir⟩, rfl⟩
      exact ⟨names, outer, dir, hdown, hdir, by rw [List.dropLast_concat]⟩
    · rintro ⟨names, outer, dir, hdown, hdir, rfl⟩
      exact ⟨_, ⟨names, outer, dir, rfl, hdown, hdir⟩, by rw [List.dropLast_concat]⟩
  · intro position hold
    exact (hfound' _).2 ((h.sees_iff hclear hw).2 (.inl ((hfound _).1 hold)))
  · intro position hmem hnot
    obtain ⟨names, -, -, heq, -⟩ := (hadded position).1 ⟨hmem, hnot⟩
    exact ⟨names, heq⟩

end Volume

end InkLint
