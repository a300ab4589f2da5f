import InkLint.Proofs.Compare.Within
import InkLint.Proofs.Walk.Listed

/-!
# Walks without limits

A limit can only make a lookup fail, so a walk differs from the walk without limits in one case
alone: it fails to access a path that could be accessed without limits, or would fail otherwise
(`Volume.CutShort`). Every other walk gives the same answer as if there were no limits
(`collect_unlimited`).

Without limits a lookup depends on where it starts and not on the number of links followed before
(`follow_links`), and the entries below a path are found the same way from every path that leads to
the same folder (`locate_joinAll`).
-/

namespace InkLint

namespace Volume

/-- The same volume without limits. -/
def unlimited (v : Volume) : Volume :=
  { v with limits := {} }

/-- The walk ends because of a limit: it fails to access a path, and without limits the path does
not have this fault. -/
def CutShort (v : Volume) (root : Path) : Prop :=
  ∃ p cause, v.collect root = .error (.access p cause) ∧ v.unlimited.locate p ≠ .error cause

variable {v : Volume} {outer : List OpenFolder} {dir : OpenFolder} {name : Name} {root p : Path}
variable {loc : Loc} {cause : Fault}

theorem within_unlimited (v : Volume) : v.Within v.unlimited :=
  ⟨rfl, by simp [unlimited], by simp [unlimited], fun _ node h => ⟨node, h, .refl node⟩⟩

/-! ## Walks that are not cut short -/

/-- An entry is seen alike without limits, unless a limit keeps it from being accessed. -/
theorem look_unlimited (hv : v.WellFormed) (ha : v.Anchored dir) (hmem : name ∈ v.names dir.loc)
    (hfault : ∀ p cause, v.look outer dir name = .error (.access p cause) →
      v.unlimited.locate p = .error cause) :
    v.unlimited.look outer dir name = v.look outer dir name := by
  have hwithin := within_unlimited v
  cases henter : v.enter dir name with
  | ok there => exact hwithin.look_eq henter
  | error cause =>
    have hlook : v.look outer dir name = .error (.access (dir.path.join name) cause) := by
      simp [look, henter]
    have harrive := (hwithin.anchored ha).arrive_eq (hv.plain hmem) rfl
    rw [locate_eq_error_iff.1 (hfault _ _ hlook)] at harrive
    rw [hlook]
    simp [look, ← harrive]

theorem walk_unlimited (hv : v.WellFormed) (ha : v.Anchored dir) {names : List Name}
    (hnames : ∀ n ∈ names, n ∈ v.names dir.loc)
    (hfault : ∀ p cause, v.walk outer dir names = .error (.access p cause) →
      v.unlimited.locate p = .error cause) :
    v.unlimited.walk outer dir names = v.walk outer dir names := by
  induction outer, dir using walk_induction v generalizing names with
  | step outer dir ih =>
    induction names with
    | nil => rw [walk_nil, walk_nil]
    | cons name names ihnames =>
      have hmem := hnames name (by simp)
      -- the fault of an entry is the fault of the walk
      have hfirst : ∀ p cause, v.visit outer dir name = .error (.access p cause) →
          v.unlimited.locate p = .error cause := by
        intro p cause hvisit
        exact hfault p cause (by rw [walk_cons, hvisit]; rfl)
      have hlook := look_unlimited hv ha hmem fun p cause hlook =>
        hfirst p cause (by rw [visit, hlook])
      have hvisit : v.unlimited.visit outer dir name = v.visit outer dir name := by
        unfold visit at hfirst ⊢
        rw [hlook]
        cases hseen : v.look outer dir name with
        | error fault => rfl
        | ok opened =>
          cases opened with
          | none => rfl
          | some sub =>
            rw [hseen] at hfirst
            exact ih name sub hseen (anchored_of_look hv ha hmem hseen) (fun _ hn => hn) hfirst
      rw [walk_cons, walk_cons, hvisit]
      cases hinner : v.visit outer dir name with
      | error fault => rfl
      | ok inner =>
        have hrest : v.unlimited.walk outer dir names = v.walk outer dir names := by
          refine ihnames (fun n hn => hnames n (by simp [hn])) fun p cause hwalk => ?_
          exact hfault p cause (by rw [walk_cons, hinner, hwalk]; rfl)
        rw [hrest]

/-- A walk that is not cut short goes as if there were no limits. -/
theorem collect_unlimited (hv : v.WellFormed) (hroot : v.locate root = .ok loc)
    (hfolder : v.hasFolder loc = true) (h : ¬v.CutShort root) :
    v.unlimited.collect root = v.collect root := by
  obtain ⟨dir, ha, rfl, rfl, hcollect⟩ := collect_folder hroot hfolder
  rw [hcollect, ((within_unlimited v).anchored ha).collect_eq]
  refine walk_unlimited hv ha (fun _ hn => hn) fun p cause hwalk => ?_
  by_contra hne
  exact h ⟨p, cause, hcollect.trans hwalk, hne⟩

/-- The path that a walk fails to access cannot be looked up, for the same cause. -/
theorem locate_of_collect_error (hv : v.WellFormed)
    (h : v.collect root = .error (.access p cause)) : v.locate p = .error cause := by
  cases harrive : v.arrive root with
  | error fault =>
    rw [collect_eq_arrive, harrive] at h
    cases h
    exact locate_eq_error_iff.2 harrive
  | ok there =>
    cases hfolder : v.hasFolder there.loc with
    | false => simp [collect_eq_arrive, harrive, hfolder] at h
    | true =>
      have ha : v.Anchored ⟨there, root⟩ := ⟨harrive, hfolder⟩
      obtain ⟨position, names, name, outer, dir, rfl, hdown, hmem, hlook⟩ :=
        sees_of_walk_error hv (ha.collect_eq.symm.trans h)
      have ha := (hdown.anchored hv ha).1
      rcases (look_eq_error_iff_of_anchored hv ha hmem).1 hlook with
        ⟨-, cause, hcause, heq⟩ | ⟨-, _, -, -, -, heq⟩
      · cases heq
        exact hcause
      · cases heq

/-- Where there are no limits, no walk is cut short. -/
theorem not_cutShort (hv : v.WellFormed) (hlimits : v.limits = {}) (root : Path) :
    ¬v.CutShort root := by
  rintro ⟨p, cause, hcollect, hne⟩
  have hv' : v.unlimited = v := by
    rw [unlimited, ← hlimits]
  rw [hv'] at hne
  exact hne (locate_of_collect_error hv hcollect)

/-! ## Lookups without limits -/

/-- Lookups that agree in their locations fail alike or lead to one place. -/
theorem map_loc_cases {a b : Except Fault Arrival} (h : b.map (·.loc) = a.map (·.loc)) :
    (∃ fault, a = .error fault ∧ b = .error fault) ∨
      ∃ here there, a = .ok here ∧ b = .ok there ∧ there.loc = here.loc := by
  cases a with
  | error fault =>
    cases b with
    | error fault' => cases h; exact .inl ⟨fault, rfl, rfl⟩
    | ok there => cases h
  | ok here =>
    cases b with
    | error fault => cases h
    | ok there => exact .inr ⟨here, there, rfl, rfl, Except.ok.inj h⟩

/-- Without a limit the number of links followed before decides nothing. -/
theorem follow_links (hlinks : v.limits.links = none) {busy : List Loc} {here there : Arrival}
    {pieces : List Name} (hloc : there.loc = here.loc) :
    (v.follow busy there pieces).map (·.loc) = (v.follow busy here pieces).map (·.loc) := by
  have hspent (n : Nat) : v.limits.spent n = false := by simp [Limits.spent, hlinks]
  induction busy, here, pieces using follow.induct v generalizing there with
  | case1 busy here => simp [Except.map, hloc]
  | case2 busy here piece rest fault hstep =>
    rw [follow_fault hstep, follow_fault (hloc ▸ hstep)]
  | case3 busy here piece rest next hstep text hlink hbusy =>
    have hnext : next ∈ busy := by simpa [hspent] using hbusy
    rw [follow_link hstep hlink, follow_link (hloc ▸ hstep) hlink, if_pos (.inl hnext),
      if_pos (.inl hnext)]
  | case4 busy here piece rest next hstep text hlink hbusy fault hfault ih =>
    have hnext : ¬(next ∈ busy ∨ v.limits.spent there.links = true) := by
      simpa [hspent] using hbusy
    rw [follow_link hstep hlink, follow_link (hloc ▸ hstep) hlink, if_neg hbusy, if_neg hnext]
    rcases map_loc_cases (@ih ⟨origin there.loc text, there.links + 1⟩ (by rw [hloc])) with
      ⟨_, h₁, h₂⟩ | ⟨_, _, h₁, -, -⟩
    · rw [h₁, h₂]
    · rw [hfault] at h₁
      cases h₁
  | case5 busy here piece rest next hstep text hlink hbusy mid hmid ihtext ihrest =>
    have hnext : ¬(next ∈ busy ∨ v.limits.spent there.links = true) := by
      simpa [hspent] using hbusy
    rw [follow_link hstep hlink, follow_link (hloc ▸ hstep) hlink, if_neg hbusy, if_neg hnext]
    rcases map_loc_cases (@ihtext ⟨origin there.loc text, there.links + 1⟩ (by rw [hloc])) with
      ⟨_, h₁, -⟩ | ⟨_, mid', h₁, h₂, hmid'⟩
    · rw [hmid] at h₁
      cases h₁
    · rw [hmid] at h₁
      cases h₁
      rw [hmid, h₂]
      exact ihrest hmid'
  | case6 busy here piece rest next hstep hlink ih =>
    have hnot : v.hasLink next = false := hasLink_eq_false_iff.2 hlink
    rw [follow_piece hstep hnot, follow_piece (hloc ▸ hstep) hnot]
    exact ih rfl

/-- Without limits a position is found alike below all paths that lead to one folder. -/
theorem locate_joinAll (hlimits : v.limits = {}) {root' : Path} (hroot : v.locate root = .ok loc)
    (hroot' : v.locate root' = .ok loc) {names : List Name} (hne : names ≠ [])
    (hnames : ∀ n ∈ names, n.Plain) :
    v.locate (root'.joinAll names) = v.locate (root.joinAll names) := by
  obtain ⟨links, harrive⟩ := locate_eq_ok_iff.1 hroot
  obtain ⟨links', harrive'⟩ := locate_eq_ok_iff.1 hroot'
  simp only [locate, arrive_joinAll harrive hne hnames, arrive_joinAll harrive' hne hnames, hlimits,
    Limits.refuses_unlimited, Bool.false_eq_true, if_false]
  exact follow_links (by rw [hlimits]) rfl

end Volume

end InkLint
