import InkLint.Proofs.Walk.Faults

/-!
# A walk in parts

The walk of a folder is the walks of its entries one after another. The walk of an entry on its own
does not have the folder open, so a link back to the folder is not refused there: it is followed
into the folder, from there down the same names once more, and at the latest when the link is met
again the folder is open and the walk fails (`not_reenter`). So the folder being open or not makes
no difference to a walk that ends well.
-/

namespace InkLint

namespace Volume

/-- The walk of an entry on its own. A file whose path is too long to be looked up is still listed
by the walk of its folder, so it stands for itself. -/
def part (v : Volume) (root : Path) (loc : Loc) (name : Name) : Except WalkFault (List Path) :=
  if v.limits.refuses (root.join name) && v.hasFile (loc ++ [name]) then .ok [root.join name]
  else v.collect (root.join name)

variable {v : Volume} {outer outer' outer₁ bottom : List OpenFolder}
variable {dir dir' dir₁ sub : OpenFolder} {name : Name} {names ns : List Name} {files : List Path}

/-! ## Fewer open folders -/

/-- An entry that is no fault is none with fewer folders open. -/
theorem look_drop_bottom {opened : Option OpenFolder}
    (h : v.look (outer ++ bottom) dir name = .ok opened) : v.look outer dir name = .ok opened := by
  cases opened with
  | none => rw [look_eq_none_iff] at h ⊢; exact h
  | some sub =>
    obtain ⟨there, henter, hfolder, hnew, rfl⟩ := look_eq_some_iff.1 h
    refine look_eq_some_iff.2 ⟨there, henter, hfolder, hnew.imp id fun hnot hmem => hnot ?_, rfl⟩
    rw [← List.cons_append, List.map_append]
    exact List.mem_append_left _ hmem

theorem Descends.drop_bottom (h : v.Descends (outer ++ bottom) dir ns outer₁ dir₁) :
    ∃ outer', outer₁ = outer' ++ bottom ∧ v.Descends outer dir ns outer' dir₁ := by
  induction h with
  | start => exact ⟨outer, rfl, .start⟩
  | down _ hmem hlook ih =>
    obtain ⟨outer', rfl, hdown⟩ := ih
    exact ⟨_ :: outer', rfl, hdown.down hmem (look_drop_bottom hlook)⟩

theorem walk_cons_eq_ok_iff :
    v.walk outer dir (name :: names) = .ok files ↔
      ∃ first rest, v.visit outer dir name = .ok first ∧ v.walk outer dir names = .ok rest ∧
        files = first ++ rest := by
  rw [walk_cons]
  cases v.visit outer dir name with
  | error fault => simp [Except.bind]
  | ok first =>
    cases v.walk outer dir names with
    | error fault => simp [Except.bind, Except.map]
    | ok rest => simp [Except.bind, Except.map, eq_comm]

/-- A walk that ends well ends the same with fewer folders open. -/
theorem walk_drop_bottom (h : v.walk (outer ++ bottom) dir (v.names dir.loc) = .ok files) :
    v.walk outer dir (v.names dir.loc) = .ok files := by
  induction outer, dir using walk_induction v generalizing files with
  | step outer dir ih =>
    generalize v.names dir.loc = names at h
    induction names generalizing files with
    | nil => rw [walk_nil] at h ⊢; exact h
    | cons name names ihnames =>
      obtain ⟨first, rest, hfirst, hrest, rfl⟩ := walk_cons_eq_ok_iff.1 h
      refine walk_cons_eq_ok_iff.2 ⟨first, rest, ?_, ihnames hrest, rfl⟩
      unfold visit at hfirst ⊢
      split at hfirst
      · cases hfirst
      · rename_i hlook; rw [look_drop_bottom hlook]; exact hfirst
      · rename_i sub hlook
        rw [look_drop_bottom hlook]
        exact ih name sub (look_drop_bottom hlook) hfirst

/-! ## Walking a folder once more -/

theorem Descends.sees {outer₁ : List OpenFolder} {dir₁ : OpenFolder}
    (h : v.Descends outer dir names outer₁ dir₁) {seen : Except WalkFault (Option OpenFolder)}
    (hsees : v.Sees outer₁ dir₁ ns seen) : v.Sees outer dir (names ++ ns) seen := by
  obtain ⟨ms, name, outer₂, dir₂, rfl, hdown, hmem, hlook⟩ := hsees
  exact ⟨names ++ ms, name, outer₂, dir₂, by simp, h.trans hdown, hmem, hlook⟩

/-- The folder a descent starts in stays open, and so do those around it. -/
theorem Descends.opened_subset (h : v.Descends outer dir ns outer₁ dir₁) :
    ∀ folder ∈ dir :: outer, folder ∈ dir₁ :: outer₁ := by
  induction h with
  | start => exact fun _ h => h
  | down _ _ _ ih => exact fun folder h => List.mem_cons_of_mem _ (ih folder h)

/-- From two folders at one location an entry that is no fault leads to one folder. -/
theorem look_eq_some_of_loc_eq {there : Arrival} (hloc : dir'.loc = dir.loc)
    (henter : v.enter dir name = .ok there) (hfolder : v.hasFolder there.loc = true)
    (hclear : ∀ fault, v.look outer' dir' name ≠ .error fault) :
    ∃ sub, v.look outer' dir' name = .ok (some sub) ∧ sub.loc = there.loc := by
  have hleads := leads_of_enter henter
  rw [← hloc] at hleads
  cases hlook : v.look outer' dir' name with
  | error fault => exact absurd hlook (hclear fault)
  | ok opened =>
    cases opened with
    | none =>
      obtain ⟨there', henter', hfolder'⟩ := look_eq_none_iff.1 hlook
      rw [hleads.unique (leads_of_enter henter'), hfolder'] at hfolder
      cases hfolder
    | some sub =>
      obtain ⟨there', henter', -, -, rfl⟩ := look_eq_some_iff.1 hlook
      exact ⟨_, rfl, ((leads_of_enter henter').unique hleads)⟩

/-- From another folder at the same location, where the walk sees no fault, the same names lead
down to the same location. -/
theorem Descends.replay (h : v.Descends outer dir ns outer₁ dir₁) (hloc : dir'.loc = dir.loc)
    (hclear : ∀ position fault, ¬v.Sees outer' dir' position (.error fault)) :
    ∃ outer₂ dir₂, v.Descends outer' dir' ns outer₂ dir₂ ∧ dir₂.loc = dir₁.loc := by
  induction h with
  | start => exact ⟨outer', dir', .start, hloc⟩
  | @down names outer₁ dir₁ sub name h hmem hlook ih =>
    obtain ⟨outer₂, dir₂, hdown, hloc₂⟩ := ih
    obtain ⟨there, henter, hfolder, -, rfl⟩ := look_eq_some_iff.1 hlook
    have hmem₂ : name ∈ v.names dir₂.loc := hloc₂ ▸ hmem
    obtain ⟨sub₂, hlook₂, hsub₂⟩ := look_eq_some_of_loc_eq hloc₂ henter hfolder
      fun fault hfault => hclear _ fault ⟨names, name, outer₂, dir₂, rfl, hdown, hmem₂, hfault⟩
    exact ⟨dir₂ :: outer₂, sub₂, hdown.down hmem₂ hlook₂, hsub₂⟩

/-- **A link back to a folder is fatal to the walk of its entries.** If the walk of the folder that
an entry of `dir` leads to sees no fault, it opens no folder at the location of `dir` through a
link. -/
theorem not_reenter {there : Arrival} (hname : name ∈ v.names dir.loc)
    (henter : v.enter dir name = .ok there) (hsub : sub.loc = there.loc)
    (hfolder : v.hasFolder there.loc = true)
    (hclear : ∀ position fault, ¬v.Sees [] sub position (.error fault))
    {link : Name} {back : Arrival} (hdown : v.Descends [] sub ns outer₁ dir₁)
    (hlink : link ∈ v.names dir₁.loc) (hback : v.enter dir₁ link = .ok back)
    (hbackloc : back.loc = dir.loc) (hne : back.loc ≠ dir₁.loc ++ [link]) : False := by
  have hdirfolder : v.hasFolder back.loc = true := by
    rw [hbackloc]
    exact hasFolder_of_mem_names hname
  -- through the link the walk opens the folder at `dir`, and in it the entry once more
  obtain ⟨again, hagain, hagainloc⟩ := look_eq_some_of_loc_eq rfl hback hdirfolder
    fun fault hfault => hclear _ fault ⟨ns, link, outer₁, dir₁, rfl, hdown, hlink, hfault⟩
  have hdown₁ := hdown.down hlink hagain
  have hloc : again.loc = dir.loc := hagainloc.trans hbackloc
  have hname₁ : name ∈ v.names again.loc := hloc ▸ hname
  obtain ⟨sub₁, hsub₁, hsubloc₁⟩ := look_eq_some_of_loc_eq hloc henter hfolder
    fun fault hfault => hclear _ fault ⟨_, name, _, again, rfl, hdown₁, hname₁, hfault⟩
  have hdown₂ := hdown₁.down hname₁ hsub₁
  -- down the same names it comes to the link again, with the folder open this time
  have hclear₂ : ∀ position fault, ¬v.Sees (again :: dir₁ :: outer₁) sub₁ position (.error fault) :=
    fun position fault hsees => hclear _ fault (hdown₂.sees hsees)
  obtain ⟨outer₂, dir₂, hdown₃, hloc₂⟩ := hdown.replay (hsubloc₁.trans hsub.symm) hclear₂
  have hlink₂ : link ∈ v.names dir₂.loc := hloc₂ ▸ hlink
  obtain ⟨sub₂, hsub₂, hsubloc₂⟩ := look_eq_some_of_loc_eq hloc₂ hback hdirfolder
    fun fault hfault => hclear₂ _ fault ⟨ns, link, outer₂, dir₂, rfl, hdown₃, hlink₂, hfault⟩
  obtain ⟨back₂, -, -, hnew, rfl⟩ := look_eq_some_iff.1 hsub₂
  rcases hnew with hreal | hnew
  · rw [hsubloc₂, hloc₂] at hreal
    exact hne hreal
  · refine hnew (List.mem_map.2 ⟨again, hdown₃.opened_subset again (by simp), ?_⟩)
    exact hagainloc.trans hsubloc₂.symm

/-- With the folder of the entry open as well, the walk of an entry's folder ends the same. -/
theorem walk_add_bottom (hv : v.WellFormed) {there : Arrival} (hname : name ∈ v.names dir.loc)
    (henter : v.enter dir name = .ok there) (hsub : sub.loc = there.loc)
    (hfolder : v.hasFolder there.loc = true)
    (h : v.walk [] sub (v.names sub.loc) = .ok files) :
    v.walk [dir] sub (v.names sub.loc) = .ok files := by
  have hclear := not_sees_error hv h
  cases hwalk : v.walk [dir] sub (v.names sub.loc) with
  | ok files' =>
    have hsame : v.walk [] sub (v.names sub.loc) = .ok files' := walk_drop_bottom hwalk
    rw [← hsame, h]
  | error fault =>
    exfalso
    obtain ⟨position, ns, link, outer₁, dir₁, rfl, hdown, hlink, hlook⟩ :=
      sees_of_walk_error hv hwalk
    rw [← List.nil_append [dir]] at hdown
    obtain ⟨outer', rfl, hdown'⟩ := hdown.drop_bottom
    rcases look_eq_error_iff.1 hlook with ⟨cause, hcause, -⟩ | ⟨back, hback, hbf, hne, hopen, -⟩
    · exact hclear _ _ ⟨ns, link, outer', dir₁, rfl, hdown', hlink,
        look_eq_error_iff.2 (.inl ⟨cause, hcause, rfl⟩)⟩
    · rw [← List.cons_append, List.map_append] at hopen
      rcases List.mem_append.1 hopen with hopen | hopen
      · exact hclear _ _ ⟨ns, link, outer', dir₁, rfl, hdown', hlink,
          look_eq_error_iff.2 (.inr ⟨back, hback, hbf, hne, hopen, rfl⟩)⟩
      · have hbackloc : back.loc = dir.loc := by simpa using hopen
        exact not_reenter hname henter hsub hfolder hclear hdown' hlink hback hbackloc hne

/-- An entry whose own walk ends well is no link to its folder. -/
theorem ne_of_walk (hv : v.WellFormed) {there : Arrival} (hname : name ∈ v.names dir.loc)
    (henter : v.enter dir name = .ok there) (hsub : sub.loc = there.loc)
    (hfolder : v.hasFolder there.loc = true)
    (h : v.walk [] sub (v.names sub.loc) = .ok files) : there.loc ≠ dir.loc := by
  intro heq
  have hclear := not_sees_error hv h
  have hloc : sub.loc = dir.loc := hsub.trans heq
  have hname' : name ∈ v.names sub.loc := hloc ▸ hname
  obtain ⟨sub', hlook, hsub'⟩ := look_eq_some_of_loc_eq hloc henter hfolder
    fun fault hfault => hclear _ fault ⟨[], name, [], sub, rfl, .start, hname', hfault⟩
  obtain ⟨back, hback, -, -, rfl⟩ := look_eq_some_iff.1 hlook
  refine not_reenter hname henter hsub hfolder hclear .start hname' hback (hsub'.trans heq) ?_
  intro hreal
  have hlength := congrArg List.length (hreal.symm.trans (hsub'.trans (heq.trans hloc.symm)))
  simp at hlength

/-! ## The parts -/

/-- The walk of a folder lists for an entry what the entry's own walk lists. -/
theorem visit_eq_ok_iff (hv : v.WellFormed) (ha : v.Anchored dir) (hname : name ∈ v.names dir.loc) :
    v.visit [] dir name = .ok files ↔ v.part dir.path dir.loc name = .ok files := by
  have hplain := hv.plain hname
  cases hfile : v.hasFile (dir.loc ++ [name]) with
  | true =>
    have hvisit : v.visit [] dir name = .ok [dir.path.join name] := by
      rw [visit, (look_eq_none_iff_of_anchored hv ha hname).2 (.inl hfile)]
    have hpart : v.part dir.path dir.loc name = .ok [dir.path.join name] := by
      unfold part
      cases hrefuses : v.limits.refuses (dir.path.join name) with
      | true => simp [hfile]
      | false =>
        have henter := enter_file hplain hname hfile
        simp only [enter, hrefuses, Bool.false_and, Bool.false_eq_true, if_false] at henter
        have harrive := arrive_join ha.arrives hplain
        rw [hrefuses, henter] at harrive
        simp only [Bool.false_eq_true, if_false] at harrive
        simp [collect_eq_arrive, harrive, not_hasFolder_of_hasFile hfile]
    rw [hvisit, hpart]
  | false =>
    have hpart : v.part dir.path dir.loc name = v.collect (dir.path.join name) := by
      simp [part, hfile]
    have henter := ha.enter_eq hplain hfile
    rw [hpart]
    cases harrive : v.arrive (dir.path.join name) with
    | error cause =>
      rw [harrive] at henter
      simp [visit, look, henter, collect_eq_arrive, harrive]
    | ok there =>
      rw [harrive] at henter
      cases hfolder : v.hasFolder there.loc with
      | false =>
        rw [visit, look_eq_none_iff.2 ⟨there, henter, hfolder⟩]
        simp [collect_eq_arrive, harrive, hfolder]
      | true =>
        have hcollect : v.collect (dir.path.join name) =
            v.walk [] ⟨there, dir.path.join name⟩ (v.names there.loc) := by
          simp [collect_eq_arrive, harrive, hfolder]
        rw [hcollect]
        constructor
        · intro hvisit
          unfold visit at hvisit
          split at hvisit
          · cases hvisit
          · rename_i hlook
            obtain ⟨there', henter', hfolder'⟩ := look_eq_none_iff.1 hlook
            rw [henter] at henter'
            cases henter'
            rw [hfolder] at hfolder'
            cases hfolder'
          · rename_i sub hlook
            obtain ⟨there', henter', -, -, rfl⟩ := look_eq_some_iff.1 hlook
            rw [henter] at henter'
            cases henter'
            exact walk_drop_bottom hvisit
        · intro hwalk
          have hne := ne_of_walk hv hname henter rfl hfolder hwalk
          have hlook : v.look [] dir name = .ok (some ⟨there, dir.path.join name⟩) :=
            look_eq_some_iff.2 ⟨there, henter, hfolder, .inr (by simpa using hne), rfl⟩
          rw [visit, hlook]
          exact walk_add_bottom hv hname henter rfl hfolder hwalk

theorem walk_eq_ok_iff :
    v.walk outer dir names = .ok files ↔
      ∃ parts : List (List Path), names.map (v.visit outer dir) = parts.map .ok ∧
        files = parts.flatten := by
  induction names generalizing files with
  | nil =>
    rw [walk_nil]
    constructor
    · rintro ⟨⟩
      exact ⟨[], rfl, rfl⟩
    · rintro ⟨parts, hparts, rfl⟩
      cases parts with
      | nil => rfl
      | cons part parts => simp at hparts
  | cons name names ih =>
    rw [walk_cons_eq_ok_iff]
    constructor
    · rintro ⟨first, rest, hfirst, hrest, rfl⟩
      obtain ⟨parts, hparts, rfl⟩ := ih.1 hrest
      exact ⟨first :: parts, by simp [hfirst, hparts], rfl⟩
    · rintro ⟨parts, hparts, rfl⟩
      cases parts with
      | nil => simp at hparts
      | cons first parts =>
        simp only [List.map_cons, List.cons.injEq] at hparts
        exact ⟨first, parts.flatten, hparts.1, ih.2 ⟨parts, hparts.2, rfl⟩, rfl⟩

section
variable {f g : Name → Except WalkFault (List Path)}

theorem map_eq_map_ok_congr (h : ∀ name ∈ names, ∀ files, f name = .ok files ↔ g name = .ok files)
    (parts : List (List Path)) : names.map f = parts.map .ok ↔ names.map g = parts.map .ok := by
  induction names generalizing parts with
  | nil => simp
  | cons name names ih =>
    cases parts with
    | nil => simp
    | cons part parts =>
      have hrest := ih (fun n hn => h n (List.mem_cons_of_mem _ hn)) parts
      simp only [List.map_cons, List.cons.injEq, h name (by simp), hrest]

theorem exists_map_ok_iff :
    (∃ parts : List (List Path), names.map f = parts.map .ok) ↔
      ∀ name ∈ names, ∃ files, f name = .ok files := by
  induction names with
  | nil => exact ⟨fun _ _ h => by simp at h, fun _ => ⟨[], rfl⟩⟩
  | cons name names ih =>
    rw [List.forall_mem_cons, ← ih]
    constructor
    · rintro ⟨parts, hparts⟩
      cases parts with
      | nil => simp at hparts
      | cons part parts =>
        simp only [List.map_cons, List.cons.injEq] at hparts
        exact ⟨⟨part, hparts.1⟩, parts, hparts.2⟩
    · rintro ⟨⟨part, hpart⟩, parts, hparts⟩
      exact ⟨part :: parts, by simp [hpart, hparts]⟩

end

/-- **The walk of a folder is the walks of its entries.** It ends well exactly if each of them
does, and then lists what they list, in the order of the names. -/
theorem collect_in_parts (v : Volume) (hv : v.WellFormed) (root : Path) (loc : Loc)
    (hroot : v.locate root = .ok loc) (hfolder : v.hasFolder loc = true) :
    ∃ names : List Name, names.Pairwise (· < ·) ∧
      (∀ name, name ∈ names ↔ v.hasEntry loc name = true) ∧
      ((∃ files, v.collect root = .ok files) ↔
        ∀ name, v.hasEntry loc name = true → ∃ files, v.part root loc name = .ok files) ∧
      ∀ files, v.collect root = .ok files ↔
        ∃ parts : List (List Path), names.map (v.part root loc) = parts.map .ok ∧
          files = parts.flatten := by
  obtain ⟨dir, ha, rfl, rfl, hcollect⟩ := collect_folder hroot hfolder
  have hparts (files : List Path) : v.collect dir.path = .ok files ↔
      ∃ parts : List (List Path),
        (v.names dir.loc).map (v.part dir.path dir.loc) = parts.map .ok ∧
          files = parts.flatten := by
    rw [hcollect, walk_eq_ok_iff]
    refine exists_congr fun parts => and_congr_left fun _ => map_eq_map_ok_congr ?_ parts
    intro name hname files
    exact visit_eq_ok_iff hv ha hname
  refine ⟨v.names dir.loc, hv.names_lt dir.loc, fun name => hasEntry_iff.symm, ?_, hparts⟩
  simp only [hasEntry_iff]
  rw [← exists_map_ok_iff]
  constructor
  · rintro ⟨files, hfiles⟩
    obtain ⟨parts, h, -⟩ := (hparts files).1 hfiles
    exact ⟨parts, h⟩
  · rintro ⟨parts, h⟩
    exact ⟨parts.flatten, (hparts _).2 ⟨parts, h, rfl⟩⟩

/-- The folder `d` holds the folder `a` with the file `b`, the link `k` to that file and the link
`l` to `a`. -/
def twofold : Volume :=
  { root := .folder [("d", .folder [("l", .link "a"), ("k", .link "a/b"),
      ("a", .folder [("b", .file (.ok []))])])]
    limits := .linux }

theorem collect_in_parts_twofold :
    twofold.WellFormed ∧ twofold.locate "d" = .ok ["d"] ∧ twofold.hasFolder ["d"] = true ∧
    ∃ (names : List Name) (parts : List (List Path)), names.Pairwise (· < ·) ∧
      (∀ name, name ∈ names ↔ twofold.hasEntry ["d"] name = true) ∧
      names.map (twofold.part "d" ["d"]) = parts.map .ok ∧
      (["d/a/b", "d/k", "d/l/b"] : List Path) = parts.flatten := by
  have hv : twofold.WellFormed := by decide
  have hroot : twofold.locate "d" = .ok ["d"] := by cbv
  have hfolder : twofold.hasFolder ["d"] = true := by decide
  have h : twofold.collect "d" = .ok ["d/a/b", "d/k", "d/l/b"] := by cbv
  obtain ⟨names, hsorted, hnames, -, hparts⟩ := collect_in_parts twofold hv "d" _ hroot hfolder
  obtain ⟨parts, hmap, hflatten⟩ := (hparts _).1 h
  exact ⟨hv, hroot, hfolder, names, parts, hsorted, hnames, hmap, hflatten⟩

/-- The walk of a folder can list a file whose own walk fails. -/
theorem collect_long_file :
    (holding (.file (.ok []))).WellFormed ∧
    (holding (.file (.ok []))).locate (slashed 4092) = .ok ["d"] ∧
    (holding (.file (.ok []))).hasEntry ["d"] "abc" = true ∧
    (holding (.file (.ok []))).collect (slashed 4092) = .ok [(slashed 4092).join "abc"] ∧
    (holding (.file (.ok []))).collect ((slashed 4092).join "abc") =
      .error (.access ((slashed 4092).join "abc") (.os .nameTooLong)) := by
  have hv : (holding (.file (.ok []))).WellFormed := by decide
  have harrive := arrive_slashed (.file (.ok [])) (show 4092 ≤ 4094 by decide)
  have hmem : ("abc" : Name) ∈ (holding (.file (.ok []))).names ["d"] := by simp [names_holding]
  refine ⟨hv, locate_eq_ok_iff.2 ⟨0, harrive⟩, hasEntry_iff.2 hmem, ?_, ?_⟩
  · have hroot : (holding (.file (.ok []))).Anchored ⟨⟨["d"], 0⟩, slashed 4092⟩ := ⟨harrive, rfl⟩
    rw [collect_holding _ (by decide), visit,
      (look_eq_none_iff_of_anchored hv hroot hmem).2 (.inl rfl)]
  · have hname : Name.Plain "abc" := by decide
    rw [collect_eq_arrive, arrive_join harrive hname, refuses_slashed _ (Nat.le_refl _)]
    rfl

end Volume

end InkLint
