import InkLint.Proofs.Walk.Chain

/-!
# The fault a walk ends with

A walk fails exactly if a faulty entry can be reached through entries that are not faulty, and it
ends with the first of them in the order of the walk. A link is faulty if it leads nowhere or to a
folder that is being walked. A folder proper is faulty only if its path is too long to be looked
up, which it never is on a volume that does not limit paths.
-/

namespace InkLint

namespace Volume

/-- The faults of links. -/
inductive LinkFault (v : Volume) (root : Path) : List Name → WalkFault → Prop
  /-- The link leads nowhere. -/
  | unresolved {names : List Name} {name : Name} {loc : Loc} {cause : Fault} :
      v.locate (root.joinAll names) = .ok loc → v.hasLink (loc ++ [name]) = true →
      v.locate (root.joinAll (names ++ [name])) = .error cause →
      LinkFault v root (names ++ [name]) (.access (root.joinAll (names ++ [name])) cause)
  /-- The link leads to a folder on the way to it. -/
  | loop {names top : List Name} {name : Name} {loc target : Loc} :
      v.locate (root.joinAll names) = .ok loc → v.hasLink (loc ++ [name]) = true →
      v.locate (root.joinAll (names ++ [name])) = .ok target → v.hasFolder target = true →
      v.Innermost root names target top →
      LinkFault v root (names ++ [name])
        (.loop (root.joinAll (names ++ [name])) (root.joinAll top))

/-- The faults of entries. -/
inductive Faulty (v : Volume) (root : Path) : List Name → WalkFault → Prop
  | link {position : List Name} {fault : WalkFault} :
      v.LinkFault root position fault → Faulty v root position fault
  /-- The path of a folder is too long. -/
  | tooLong {names : List Name} {name : Name} {loc : Loc} :
      v.locate (root.joinAll names) = .ok loc → v.hasFolder (loc ++ [name]) = true →
      v.limits.refuses (root.joinAll (names ++ [name])) = true →
      Faulty v root (names ++ [name])
        (.access (root.joinAll (names ++ [name])) (.os .nameTooLong))

/-- The position leads from entry to entry, and no entry before the last one is faulty. -/
def Reachable (v : Volume) (root : Path) (position : List Name) : Prop :=
  v.IsPosition root position ∧
    ∀ names, names <+: position → names ≠ position → ∀ fault, ¬v.Faulty root names fault

variable {v : Volume} {outer : List OpenFolder} {dir root : OpenFolder} {name : Name}
variable {ns : List Name} {fault : WalkFault}

/-- A folder's own entry is found at its place, unless its path is too long. -/
theorem locate_folder (hv : v.WellFormed) (ha : v.Anchored dir) (hmem : name ∈ v.names dir.loc)
    (hfolder : v.hasFolder (dir.loc ++ [name]) = true) :
    v.locate (dir.path.join name) =
      if v.limits.refuses (dir.path.join name) then .error (.os .nameTooLong)
      else .ok (dir.loc ++ [name]) := by
  have hname := hv.plain hmem
  rw [locate, arrive_join ha.arrives hname,
    follow_entry hname hmem (not_hasLink_of_hasFolder hfolder)]
  split <;> rfl

/-- What the walk calls a fault on its way down is a faulty entry. -/
theorem Descends.look_error_iff (hv : v.WellFormed) (hroot : v.Anchored root)
    (hdown : v.Descends [] root ns outer dir) (hmem : name ∈ v.names dir.loc) :
    v.look outer dir name = .error fault ↔ v.Faulty root.path (ns ++ [name]) fault := by
  obtain ⟨ha, hpath⟩ := hdown.anchored hv hroot
  have hloc : v.locate (root.path.joinAll ns) = .ok dir.loc := hpath ▸ ha.locate
  have hjoin : root.path.joinAll (ns ++ [name]) = dir.path.join name := by
    rw [Path.joinAll_concat, hpath]
  rw [look_eq_error_iff_of_anchored hv ha hmem]
  constructor
  · rintro (⟨hfile, cause, hcause, rfl⟩ | ⟨hlink, target, htarget, hfolder, hopen, rfl⟩)
    · rw [← hjoin] at hcause ⊢
      rcases entry_cases hmem with hfolder | hfile' | hlink
      · rw [hjoin, locate_folder hv ha hmem hfolder] at hcause
        split at hcause
        · rename_i hrefuses
          cases hcause
          exact .tooLong hloc hfolder (hjoin ▸ hrefuses)
        · cases hcause
      · rw [hfile] at hfile'
        cases hfile'
      · exact .link (.unresolved hloc hlink hcause)
    · obtain ⟨top, htop, hpathOf⟩ := hdown.innermost hv hroot hopen
      rw [hpathOf]
      rw [← hjoin] at htarget ⊢
      exact .link (.loop hloc hlink htarget hfolder htop)
  · intro hfaulty
    generalize hp : ns ++ [name] = position at hfaulty
    cases hfaulty with
    | link hlinkFault =>
      cases hlinkFault with
      | unresolved hloc' hlink hcause =>
        obtain ⟨rfl, hn⟩ := List.append_inj' hp rfl
        cases hn
        rw [hloc] at hloc'
        cases hloc'
        rw [hjoin] at hcause ⊢
        exact .inl ⟨not_hasFile_of_hasLink hlink, _, hcause, rfl⟩
      | loop hloc' hlink htarget hfolder htop =>
        obtain ⟨rfl, hn⟩ := List.append_inj' hp rfl
        cases hn
        rw [hloc] at hloc'
        cases hloc'
        have hopen := hdown.mem_opened hv hroot htop.above htop.leads
        obtain ⟨top', htop', hpathOf⟩ := hdown.innermost hv hroot hopen
        obtain rfl := htop.unique htop'
        rw [hjoin] at htarget ⊢
        exact .inr ⟨hlink, _, htarget, hfolder, hopen, by rw [hpathOf]⟩
    | tooLong hloc' hfolder hrefuses =>
      obtain ⟨rfl, hn⟩ := List.append_inj' hp rfl
      cases hn
      rw [hloc] at hloc'
      cases hloc'
      rw [hjoin] at hrefuses ⊢
      refine .inl ⟨not_hasFile_of_hasFolder hfolder, .os .nameTooLong, ?_, rfl⟩
      rw [locate_folder hv ha hmem hfolder, if_pos hrefuses]

theorem Faulty.ne_nil {p : Path} (h : v.Faulty p ns fault) : ns ≠ [] := by
  rcases h with ⟨⟨⟩ | ⟨⟩⟩ | ⟨⟩ <;> simp

/-- The walk sees a fault at exactly the reachable positions of faulty entries. -/
theorem sees_error_iff (hv : v.WellFormed) (hroot : v.Anchored root) :
    v.Sees [] root ns (.error fault) ↔ v.Reachable root.path ns ∧ v.Faulty root.path ns fault := by
  constructor
  · rintro ⟨names, name, outer, dir, rfl, hdown, hmem, hlook⟩
    obtain ⟨ha, hpath⟩ := hdown.anchored hv hroot
    have hpos := isPosition_concat_iff.2
      ⟨hdown.isPosition hv hroot, dir.loc, hpath ▸ ha.locate, hmem⟩
    refine ⟨⟨hpos, ?_⟩, (hdown.look_error_iff hv hroot hmem).1 hlook⟩
    intro before hpre hne other hfaulty
    obtain ⟨before, n, rfl⟩ := List.eq_nil_or_concat before |>.resolve_left hfaulty.ne_nil
    rw [List.concat_eq_append] at hpre hne hfaulty
    have hpre' := (List.prefix_concat_iff.1 hpre).resolve_left hne
    obtain ⟨outer', dir', sub, hdown', hmem', hlook'⟩ := hdown.of_prefix hpre'
    rw [← hdown'.look_error_iff hv hroot hmem', hlook'] at hfaulty
    cases hfaulty
  · rintro ⟨⟨hpos, hclear⟩, hfaulty⟩
    obtain ⟨names, name, rfl⟩ := List.eq_nil_or_concat ns |>.resolve_left hfaulty.ne_nil
    rw [List.concat_eq_append] at hpos hclear hfaulty ⊢
    obtain ⟨hpos, loc, hloc, hmem⟩ := isPosition_concat_iff.1 hpos
    have hfolder := hasFolder_of_mem_names hmem
    obtain ⟨outer, dir, hdown, rfl⟩ := hpos.descends hv hroot hloc hfolder <| by
      intro names' n outer dir hpre hdown hn other hlook
      have hlength := hpre.length_le
      refine hclear _ (hpre.trans (List.prefix_append _ _)) ?_ other
        ((hdown.look_error_iff hv hroot hn).1 hlook)
      intro heq
      rw [heq, List.length_append, List.length_singleton] at hlength
      omega
    exact ⟨names, name, outer, dir, rfl, hdown, hmem,
      (hdown.look_error_iff hv hroot hmem).2 hfaulty⟩

/-- At one position the walk sees one thing. -/
theorem Sees.unique {seen seen' : Except WalkFault (Option OpenFolder)}
    (h : v.Sees outer dir ns seen) (h' : v.Sees outer dir ns seen') : seen = seen' := by
  obtain ⟨names, name, outer₁, dir₁, rfl, hdown, -, rfl⟩ := h
  obtain ⟨names', name', outer₂, dir₂, heq, hdown', -, rfl⟩ := h'
  obtain ⟨rfl, hn⟩ := List.append_inj' heq rfl
  cases hn
  obtain ⟨rfl, rfl⟩ := hdown.unique hdown'
  rfl

/-- **A walk fails with its first fault.** The walk of a folder fails exactly if a faulty entry can
be reached through entries that are not faulty, and then with the fault of the first one. -/
theorem collect_first_fault (v : Volume) (hv : v.WellFormed) (root : Path) (loc : Loc)
    (hroot : v.locate root = .ok loc) (hfolder : v.hasFolder loc = true) :
    ((∃ fault, v.collect root = .error fault) ↔
      ∃ position fault, v.Reachable root position ∧ v.Faulty root position fault) ∧
    ∀ fault, v.collect root = .error fault ↔
      ∃ position, v.Reachable root position ∧ v.Faulty root position fault ∧
        ∀ other otherFault, v.Reachable root other → v.Faulty root other otherFault →
          position ≤ other := by
  obtain ⟨dir, ha, rfl, rfl, hcollect⟩ := collect_folder hroot hfolder
  have hsees (position : List Name) (fault : WalkFault) :
      v.Sees [] dir position (.error fault) ↔
        v.Reachable dir.path position ∧ v.Faulty dir.path position fault := sees_error_iff hv ha
  cases hresult : v.collect dir.path with
  | ok files =>
    have hnone : ∀ position fault,
        ¬(v.Reachable dir.path position ∧ v.Faulty dir.path position fault) := by
      intro position fault h
      exact not_sees_error hv (hcollect ▸ hresult) position fault ((hsees position fault).2 h)
    constructor
    · simp [hnone]
    · intro fault
      simp only [reduceCtorEq, false_iff]
      rintro ⟨position, hreach, hfaulty, -⟩
      exact hnone position fault ⟨hreach, hfaulty⟩
  | error first =>
    have htells := walk_tells hv [] dir
    rw [← hcollect, hresult] at htells
    obtain ⟨n, hn, ns, hfirst, hleast⟩ := htells
    have hmin : ∀ other fault, v.Reachable dir.path other → v.Faulty dir.path other fault →
        n :: ns ≤ other := by
      intro other fault hreach hfaulty
      have h := (hsees other fault).2 ⟨hreach, hfaulty⟩
      cases other with
      | nil => exact absurd h not_sees_nil
      | cons m ms => exact hleast m h.head_mem ms fault h
    obtain ⟨hreach, hfaulty⟩ := (hsees _ _).1 hfirst
    refine ⟨⟨fun _ => ⟨n :: ns, first, hreach, hfaulty⟩, fun _ => ⟨first, rfl⟩⟩, ?_⟩
    intro fault
    constructor
    · rintro ⟨⟩
      exact ⟨n :: ns, hreach, hfaulty, hmin⟩
    · rintro ⟨position, hreach', hfaulty', hmin'⟩
      obtain rfl : position = n :: ns :=
        List.le_antisymm (hmin' _ _ hreach hfaulty) (hmin _ _ hreach' hfaulty')
      cases hfirst.unique ((hsees _ _).2 ⟨hreach', hfaulty'⟩)
      rfl

/-- In the folder `d` the link `z` leads nowhere, and before it `a/u` leads back to `d`. -/
def tangled : Volume :=
  { root := .folder [("d", .folder [("z", .link "x"),
      ("a", .folder [("u", .link "..")])])]
    limits := .linux }

theorem collect_first_fault_tangled :
    tangled.WellFormed ∧ tangled.locate "d" = .ok ["d"] ∧ tangled.hasFolder ["d"] = true ∧
    ∃ position, tangled.Reachable "d" position ∧
      tangled.Faulty "d" position (.loop "d/a/u" "d") ∧
      ∀ other otherFault, tangled.Reachable "d" other → tangled.Faulty "d" other otherFault →
        position ≤ other := by
  have hv : tangled.WellFormed := by decide
  have hroot : tangled.locate "d" = .ok ["d"] := by cbv
  have hfolder : tangled.hasFolder ["d"] = true := by decide
  have h : tangled.collect "d" = .error (.loop "d/a/u" "d") := by cbv
  exact ⟨hv, hroot, hfolder, ((collect_first_fault tangled hv "d" _ hroot hfolder).2 _).1 h⟩

/-! ## Paths at the limit

Slashes at the end of a path are part of its length, so a folder can have a path that is just short
enough while the paths of its entries are too long. -/

/-- The folder `d` with one entry, `abc`. -/
def holding (node : Node) : Volume :=
  { root := .folder [("d", .folder [("abc", node)])]
    limits := .linux }

/-- The path `d` with slashes at its end. -/
def slashed (n : Nat) : Path :=
  Bytes.ofString "d" ++ List.replicate n Path.slash

@[simp] theorem length_slashed (n : Nat) : (slashed n).length = n + 1 := by
  rw [slashed, List.length_append, List.length_replicate, Nat.add_comm]
  rfl

theorem join_slashed (n : Nat) (name : Name) :
    (slashed (n + 1)).join name = slashed (n + 1) ++ name := by
  have hlast : (slashed (n + 1)).getLast? = some Path.slash := by
    rw [slashed, List.replicate_succ', ← List.append_assoc, List.getLast?_concat]
  simp [Path.join, hlast]

theorem arrive_slashed (node : Node) {n : Nat} (h : n ≤ 4094) :
    (holding node).arrive (slashed n) = .ok ⟨["d"], 0⟩ := by
  have harrive : (holding node).arrive "d" = .ok ⟨["d"], 0⟩ := by cbv
  refine arrive_slashes harrive rfl ?_
  change (holding node).limits.refuses (slashed n) = false
  simp [holding, Limits.refuses, Limits.linux]
  omega

theorem refuses_slashed (node : Node) {n : Nat} (h : 4092 ≤ n) :
    (holding node).limits.refuses ((slashed n).join "abc") = true := by
  obtain ⟨m, rfl⟩ : ∃ m, n = m + 1 := ⟨n - 1, by omega⟩
  have hlength : (Bytes.ofString "abc").length = 3 := rfl
  rw [join_slashed]
  simp [hlength, holding, Limits.refuses, Limits.linux]
  omega

theorem names_holding (node : Node) : (holding node).names ["d"] = [("abc" : Name)] := by
  cbv

theorem collect_holding (node : Node) {n : Nat} (h : n ≤ 4094) :
    (holding node).collect (slashed n) =
      (holding node).visit [] ⟨⟨["d"], 0⟩, slashed n⟩ "abc" := by
  have hfolder : (holding node).hasFolder ["d"] = true := rfl
  simp only [collect_eq_arrive, arrive_slashed node h, hfolder, if_true, names_holding, walk_cons,
    walk_nil]
  cases (holding node).visit [] ⟨⟨["d"], 0⟩, slashed n⟩ "abc" with
  | error fault => rfl
  | ok files => simp [Except.bind, Except.map]

/-- A walk can fail where there is no link at all. -/
theorem collect_long_folder :
    (holding (.folder [])).WellFormed ∧ (holding (.folder [])).locate (slashed 4092) = .ok ["d"] ∧
    (holding (.folder [])).hasFolder ["d"] = true ∧
    (∀ position fault, ¬(holding (.folder [])).LinkFault (slashed 4092) position fault) ∧
    (holding (.folder [])).collect (slashed 4092) =
      .error (.access ((slashed 4092).join "abc") (.os .nameTooLong)) := by
  have hnolink (loc : Loc) : (holding (.folder [])).hasLink loc = false := by
    rw [Bool.eq_false_iff]
    intro hlink
    cases mem_links hlink
  have harrive := arrive_slashed (.folder []) (show 4092 ≤ 4094 by decide)
  refine ⟨by decide, locate_eq_ok_iff.2 ⟨0, harrive⟩, rfl, ?_, ?_⟩
  · rintro position fault (⟨-, hlink, -⟩ | ⟨-, hlink, -⟩) <;> simp [hnolink] at hlink
  · have hlook : (holding (.folder [])).look [] ⟨⟨["d"], 0⟩, slashed 4092⟩ "abc" =
        .error (.access ((slashed 4092).join "abc") (.os .nameTooLong)) := by
      refine look_eq_error_iff.2 (.inl ⟨_, ?_, rfl⟩)
      rw [enter, refuses_slashed _ (Nat.le_refl _)]
      rfl
    rw [collect_holding _ (by decide), visit, hlook]

end Volume

end InkLint
