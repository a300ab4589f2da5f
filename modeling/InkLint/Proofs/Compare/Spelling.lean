import InkLint.Proofs.Compare.Unlimited
import InkLint.Proofs.Scan.Contract
import InkLint.Proofs.Scan.Reread
import InkLint.Proofs.Walk.Faults

/-!
# The spelling of a root

A folder has many paths: slashes and dots can be added, `..` can take back what came before it, and
a link can lead to it. What a walk comes to does not depend on the path it is given. Told by
positions below the root (`Findings`), two walks of one folder come to the same files in the same
order, or to the same fault.

The walks are followed side by side. They have the same folders open, under paths that belong to the
same positions (`OpenFolder.Alike`), they make the same of an entry (`look_alike`), and hence of all
entries (`walk_alike`). Texts enter nowhere but in the length of a path, which is limited: a walk
that this limit, or the one to the number of links, cuts short is not covered (`spelling`), and need
not agree with the others (`spelling_long`).
-/

namespace InkLint

/-! ## Findings -/

/-- A fault of a walk, told by positions. -/
inductive PositionFault where
  | access (position : List Name) (cause : Fault)
  | loop (child ancestor : List Name)
deriving DecidableEq, Repr

/-- The fault that it is below a root. -/
def PositionFault.under (root : Path) : PositionFault → WalkFault
  | .access position cause => .access (root.joinAll position) cause
  | .loop child ancestor => .loop (root.joinAll child) (root.joinAll ancestor)

/-- The positions of the files below a root, or a fault. -/
abbrev Findings := Except PositionFault (List (List Name))

/-- The position of an entry below a root: one name or more. -/
def IsEntry (position : List Name) : Prop :=
  position ≠ [] ∧ ∀ n ∈ position, n.Plain

namespace Findings

/-- What a walk answers that comes to these findings below a root. -/
def under (root : Path) : Findings → Except WalkFault (List Path)
  | .ok found => .ok (found.map root.joinAll)
  | .error fault => .error (fault.under root)

/-- The findings are about entries, and a loop goes back to a folder above its entry. -/
def Sound : Findings → Prop
  | .ok found => ∀ position ∈ found, IsEntry position
  | .error (.access position _) => IsEntry position
  | .error (.loop child ancestor) => IsEntry child ∧ ancestor <+: child ∧ ancestor ≠ child

/-- The findings of one entry and then of the others. -/
def followedBy (first rest : Findings) : Findings :=
  first.bind fun inner => rest.map (inner ++ ·)

variable {first rest : Findings}

theorem under_followedBy (root : Path) :
    (first.followedBy rest).under root =
      (first.under root).bind fun inner => (rest.under root).map (inner ++ ·) := by
  cases first <;> cases rest <;> simp [followedBy, under, Except.bind, Except.map]

theorem Sound.followedBy (hfirst : first.Sound) (hrest : rest.Sound) :
    (first.followedBy rest).Sound := by
  cases first with
  | error fault => exact hfirst
  | ok inner =>
    cases rest with
    | error fault => exact hrest
    | ok found =>
      intro position hmem
      rcases List.mem_append.1 hmem with hmem | hmem
      · exact hfirst position hmem
      · exact hrest position hmem

end Findings

/-! ## Side by side -/

namespace OpenFolder

/-- One folder, opened at a position below two roots. -/
structure Same (r₁ r₂ : Path) (position : List Name) (d₁ d₂ : OpenFolder) : Prop where
  loc : d₂.loc = d₁.loc
  path₁ : d₁.path = r₁.joinAll position
  path₂ : d₂.path = r₂.joinAll position

/-- The same folders are open below two roots, the innermost one at a position. -/
inductive Alike (r₁ r₂ : Path) : List Name → List OpenFolder → List OpenFolder → Prop
  | root {d₁ d₂ : OpenFolder} : Same r₁ r₂ [] d₁ d₂ → Alike r₁ r₂ [] [d₁] [d₂]
  | inside {position : List Name} {name : Name} {opened₁ opened₂ : List OpenFolder}
      {d₁ d₂ : OpenFolder} : Alike r₁ r₂ position opened₁ opened₂ →
      Same r₁ r₂ (position ++ [name]) d₁ d₂ →
      Alike r₁ r₂ (position ++ [name]) (d₁ :: opened₁) (d₂ :: opened₂)

variable {r₁ r₂ : Path} {position : List Name} {opened₁ opened₂ : List OpenFolder}

theorem Alike.innermost {d₁ d₂ : OpenFolder}
    (h : Alike r₁ r₂ position (d₁ :: opened₁) (d₂ :: opened₂)) : Same r₁ r₂ position d₁ d₂ := by
  cases h with
  | root h => exact h
  | inside _ h => exact h

theorem Alike.map_loc (h : Alike r₁ r₂ position opened₁ opened₂) :
    opened₂.map (·.loc) = opened₁.map (·.loc) := by
  induction h with
  | root h => simp [h.loc]
  | inside _ h ih => simp [h.loc, ih]

/-- The innermost of the open folders at a location is open at one position. -/
theorem Alike.pathOf (h : Alike r₁ r₂ position opened₁ opened₂) {loc : Loc}
    (hmem : loc ∈ opened₁.map (·.loc)) :
    ∃ top, top <+: position ∧ OpenFolder.pathOf opened₁ loc = r₁.joinAll top ∧
      OpenFolder.pathOf opened₂ loc = r₂.joinAll top := by
  induction h with
  | root h =>
    have hloc := List.mem_singleton.1 hmem
    exact ⟨[], List.nil_prefix, by simp [OpenFolder.pathOf, hloc, h.path₁],
      by simp [OpenFolder.pathOf, hloc, h.loc, h.path₂]⟩
  | @inside position name opened₁ opened₂ d₁ d₂ _ h ih =>
    by_cases hloc : d₁.loc = loc
    · exact ⟨_, List.prefix_refl _, by simp [OpenFolder.pathOf, hloc, h.path₁],
        by simp [OpenFolder.pathOf, hloc, h.loc, h.path₂]⟩
    · obtain ⟨top, htop, h₁, h₂⟩ := ih ((List.mem_cons.1 hmem).resolve_left (Ne.symm hloc))
      refine ⟨top, htop.trans (List.prefix_append _ _), ?_, ?_⟩
      · rw [← h₁]
        simp [OpenFolder.pathOf, hloc]
      · rw [← h₂]
        simp [OpenFolder.pathOf, h.loc, hloc]

end OpenFolder

namespace Volume

open OpenFolder

variable {v : Volume} {r₁ r₂ : Path} {position : List Name} {outer₁ outer₂ : List OpenFolder}
variable {dir₁ dir₂ : OpenFolder} {name : Name}

/-- Without limits an entry of a folder leads to one place, whatever the folder's path. -/
theorem enter_alike (hlimits : v.limits = {}) (hloc : dir₂.loc = dir₁.loc) (name : Name) :
    (v.enter dir₂ name).map (·.loc) = (v.enter dir₁ name).map (·.loc) := by
  simp only [enter, hlimits, Limits.refuses_unlimited, Bool.false_and, Bool.false_eq_true, if_false]
  exact follow_links (by rw [hlimits]) hloc

/-- Two walks that have the same folders open make the same of an entry: a fault, a file, or a
folder, which they open both. -/
theorem look_alike (hlimits : v.limits = {})
    (h : Alike r₁ r₂ position (dir₁ :: outer₁) (dir₂ :: outer₂))
    (hentry : IsEntry (position ++ [name])) :
    (∃ fault, Findings.Sound (.error fault) ∧ v.look outer₁ dir₁ name = .error (fault.under r₁) ∧
      v.look outer₂ dir₂ name = .error (fault.under r₂)) ∨
    (v.look outer₁ dir₁ name = .ok none ∧ v.look outer₂ dir₂ name = .ok none) ∨
    ∃ sub₁ sub₂, v.look outer₁ dir₁ name = .ok (some sub₁) ∧
      v.look outer₂ dir₂ name = .ok (some sub₂) ∧
      Alike r₁ r₂ (position ++ [name]) (sub₁ :: dir₁ :: outer₁) (sub₂ :: dir₂ :: outer₂) := by
  have hdir := h.innermost
  have hpath₁ : dir₁.path.join name = r₁.joinAll (position ++ [name]) := by
    rw [Path.joinAll_concat, hdir.path₁]
  have hpath₂ : dir₂.path.join name = r₂.joinAll (position ++ [name]) := by
    rw [Path.joinAll_concat, hdir.path₂]
  unfold look
  rw [hpath₁, hpath₂]
  rcases map_loc_cases (enter_alike hlimits hdir.loc name) with
    ⟨cause, h₁, h₂⟩ | ⟨there₁, there₂, h₁, h₂, hthere⟩
  · rw [h₁, h₂]
    exact .inl ⟨.access (position ++ [name]) cause, hentry, rfl, rfl⟩
  · rw [h₁, h₂]
    simp only [hthere, hdir.loc, h.map_loc, List.contains_iff_mem]
    cases hfolder : v.hasFolder there₁.loc with
    | false => exact .inr (.inl ⟨rfl, rfl⟩)
    | true =>
      by_cases hloop : there₁.loc ≠ dir₁.loc ++ [name] ∧ there₁.loc ∈ (dir₁ :: outer₁).map (·.loc)
      · obtain ⟨top, htop, htop₁, htop₂⟩ := h.pathOf hloop.2
        refine .inl ⟨.loop (position ++ [name]) top, ⟨hentry, ?_, ?_⟩, ?_, ?_⟩
        · exact htop.trans (List.prefix_append _ _)
        · rintro rfl
          simpa using htop.length_le
        · simp only [if_true, if_pos hloop, htop₁]
          rfl
        · simp only [if_true, if_pos hloop, htop₂]
          rfl
      · refine .inr (.inr ⟨⟨there₁, r₁.joinAll (position ++ [name])⟩,
          ⟨there₂, r₂.joinAll (position ++ [name])⟩, ?_, ?_, h.inside ⟨hthere, rfl, rfl⟩⟩)
        · simp only [if_true, if_neg hloop]
        · simp only [if_true, if_neg hloop]

/-- Two walks that have the same folders open come to the same findings. -/
theorem walk_alike (hv : v.WellFormed) (hlimits : v.limits = {})
    (h : Alike r₁ r₂ position (dir₁ :: outer₁) (dir₂ :: outer₂))
    (hposition : ∀ n ∈ position, n.Plain) {names : List Name}
    (hnames : ∀ n ∈ names, n ∈ v.names dir₁.loc) :
    ∃ findings : Findings, findings.Sound ∧ v.walk outer₁ dir₁ names = findings.under r₁ ∧
      v.walk outer₂ dir₂ names = findings.under r₂ := by
  induction outer₁, dir₁ using walk_induction v generalizing position outer₂ dir₂ names with
  | step outer₁ dir₁ ih =>
    induction names with
    | nil => exact ⟨.ok [], by simp [Findings.Sound], walk_nil, walk_nil⟩
    | cons name names ihnames =>
      have hplain : ∀ n ∈ position ++ [name], n.Plain := by
        intro n hn
        rcases List.mem_append.1 hn with hn | hn
        · exact hposition n hn
        · exact hv.plain (hnames n (by simp [List.mem_singleton.1 hn]))
      have hentry : IsEntry (position ++ [name]) := ⟨by simp, hplain⟩
      have hvisit : ∃ first : Findings, first.Sound ∧ v.visit outer₁ dir₁ name = first.under r₁ ∧
          v.visit outer₂ dir₂ name = first.under r₂ := by
        unfold visit
        rcases look_alike hlimits h hentry with
          ⟨fault, hsound, h₁, h₂⟩ | ⟨h₁, h₂⟩ | ⟨sub₁, sub₂, h₁, h₂, hsub⟩
        · rw [h₁, h₂]
          exact ⟨.error fault, hsound, rfl, rfl⟩
        · rw [h₁, h₂]
          refine ⟨.ok [position ++ [name]], by simpa [Findings.Sound] using hentry, ?_, ?_⟩
          · simp [Findings.under, h.innermost.path₁]
          · simp [Findings.under, h.innermost.path₂]
        · rw [h₁, h₂]
          dsimp only
          rw [hsub.innermost.loc]
          exact ih name sub₁ h₁ hsub hplain fun _ hn => hn
      obtain ⟨first, hfirst, hfirst₁, hfirst₂⟩ := hvisit
      obtain ⟨rest, hrest, hrest₁, hrest₂⟩ := ihnames fun n hn => hnames n (by simp [hn])
      refine ⟨first.followedBy rest, hfirst.followedBy hrest, ?_, ?_⟩
      · rw [walk_cons, hfirst₁, hrest₁, Findings.under_followedBy]
      · rw [walk_cons, hfirst₂, hrest₂, Findings.under_followedBy]

/-- Two walks of one folder come to the same findings, unless a limit cuts one of them short. -/
theorem collect_alike (hv : v.WellFormed) {loc : Loc} (h₁ : v.locate r₁ = .ok loc)
    (h₂ : v.locate r₂ = .ok loc) (hfolder : v.hasFolder loc = true) (hcut₁ : ¬v.CutShort r₁)
    (hcut₂ : ¬v.CutShort r₂) :
    ∃ findings : Findings, findings.Sound ∧ v.collect r₁ = findings.under r₁ ∧
      v.collect r₂ = findings.under r₂ := by
  have hwithin := within_unlimited v
  have hv' : v.unlimited.WellFormed := hv
  obtain ⟨dir₁, -, rfl, hloc₁, hcollect₁⟩ := collect_folder (hwithin.locate h₁) hfolder
  obtain ⟨dir₂, -, rfl, hloc₂, hcollect₂⟩ := collect_folder (hwithin.locate h₂) hfolder
  rw [← collect_unlimited hv h₁ hfolder hcut₁, ← collect_unlimited hv h₂ hfolder hcut₂, hcollect₁,
    hcollect₂, hloc₂, ← hloc₁]
  exact walk_alike hv' rfl (.root ⟨hloc₂.trans hloc₁.symm, rfl, rfl⟩) (by simp) fun _ hn => hn

end Volume

/-! ## Reports -/

/-- A report on a file, told by the file's position. -/
structure PositionReport where
  position : List Name
  category : Category
  advisories : List String
deriving DecidableEq, Repr

/-- The report that it is below a root. -/
def PositionReport.under (root : Path) (report : PositionReport) : FileReport :=
  ⟨root.joinAll report.position, report.category, report.advisories⟩

/-- What linting the files at some positions below a root comes to: the reports in order, up to the
first supported file that cannot be read, and that file's position with the reason. -/
def Volume.tell (v : Volume) (root : Path) :
    List (List Name) → List PositionReport × Except (List Name × Fault) Unit
  | [] => ([], .ok ())
  | position :: rest =>
    if (root.joinAll position).isSupported then
      match v.read (root.joinAll position) with
      | .error fault => ([], .error (position, fault))
      | .ok content =>
        let report := FileReport.ofContent (root.joinAll position) content
        (⟨position, report.category, report.advisories⟩ :: (v.tell root rest).1,
          (v.tell root rest).2)
    else v.tell root rest

/-- The counters do not depend on the root. -/
theorem ofReports_under (root root' : Path) (seen : Nat) (reports : List PositionReport) :
    Summary.ofReports seen (reports.map (·.under root')) =
      Summary.ofReports seen (reports.map (·.under root)) := by
  simp only [Summary.ofReports, List.length_map, List.countP_map, List.map_map]
  rfl

variable {v : Volume} {root root' : Path} {loc : Loc} {position : List Name}

/-- What a file below a root is linted as does not depend on the root. -/
theorem ofPath_joinAll (root root' : Path) (hentry : IsEntry position) :
    Category.ofPath (root'.joinAll position) = Category.ofPath (root.joinAll position) := by
  obtain ⟨hne, hplain⟩ := hentry
  obtain ⟨names, name, rfl⟩ := (List.eq_nil_or_concat position).resolve_left hne
  rw [List.concat_eq_append] at hplain ⊢
  have hname := hplain name (by simp)
  rw [Path.joinAll_concat, Path.joinAll_concat, ofPath_join _ hname, ofPath_join _ hname]

/-- What is read at a position does not depend on the root. -/
theorem read_joinAll (hroot : v.locate root = .ok loc) (hroot' : v.locate root' = .ok loc)
    (hentry : IsEntry position) {place place' : Loc}
    (h : v.locate (root.joinAll position) = .ok place)
    (h' : v.locate (root'.joinAll position) = .ok place') :
    v.read (root'.joinAll position) = v.read (root.joinAll position) := by
  have hwithin := Volume.within_unlimited v
  have hlocate := Volume.locate_joinAll (v := v.unlimited) rfl (hwithin.locate hroot)
    (hwithin.locate hroot') hentry.1 hentry.2
  rw [hwithin.locate h, hwithin.locate h'] at hlocate
  cases hlocate
  rw [Volume.read, Volume.read, h, h']

/-- Files at the same positions below two roots are linted alike, if the same is read there. -/
theorem lintAll_tell {found : List (List Name)} (hfound : ∀ position ∈ found, IsEntry position)
    (hread : ∀ position ∈ found, (root.joinAll position).isSupported = true →
      v.read (root'.joinAll position) = v.read (root.joinAll position)) :
    lintAll v (found.map root'.joinAll) =
      ((v.tell root found).1.map (·.under root'),
        (v.tell root found).2.mapError fun stop => .read (root'.joinAll stop.1) stop.2) := by
  induction found with
  | nil => rfl
  | cons position rest ih =>
    have hrest := ih (fun p hp => hfound p (by simp [hp])) fun p hp => hread p (by simp [hp])
    have hcategory := ofPath_joinAll root root' (hfound position (by simp))
    have hsame : (root'.joinAll position).isSupported = (root.joinAll position).isSupported := by
      rw [Path.isSupported, Path.isSupported, hcategory]
    rw [List.map_cons, Volume.tell]
    cases hsupported : (root.joinAll position).isSupported with
    | false =>
      rw [lintAll_skip (hsame.trans hsupported), hrest]
      rfl
    | true =>
      have hposition := hread position (by simp) hsupported
      cases hcontent : v.read (root.joinAll position) with
      | error fault =>
        rw [lintAll_stop (hsame.trans hsupported) (hposition.trans hcontent)]
        rfl
      | ok content =>
        rw [lintAll_report (hsame.trans hsupported) (hposition.trans hcontent), hrest]
        simp [PositionReport.under, FileReport.ofContent, hcategory]

/-- If all files could be read, there is a report on each supported one. -/
theorem tell_ok {found : List (List Name)} (h : (v.tell root found).2 = .ok ()) :
    (v.tell root found).1.map (·.position) =
      found.filter fun position => (root.joinAll position).isSupported := by
  induction found with
  | nil => rfl
  | cons position rest ih =>
    rw [Volume.tell] at h ⊢
    cases hsupported : (root.joinAll position).isSupported with
    | false =>
      simp only [hsupported, Bool.false_eq_true, if_false] at h ⊢
      rw [ih h, List.filter_cons_of_neg (by simp [hsupported])]
    | true =>
      simp only [hsupported, if_true] at h ⊢
      cases hcontent : v.read (root.joinAll position) with
      | error fault => simp [hcontent] at h
      | ok content =>
        simp only [hcontent] at h ⊢
        rw [List.filter_cons_of_pos (by exact hsupported), ← ih h]
        rfl

/-- If a file cannot be read, there is a report on each supported file before it. -/
theorem tell_error {found : List (List Name)} {fault : Fault}
    (h : (v.tell root found).2 = .error (position, fault)) :
    ∃ before after, found = before ++ position :: after ∧
      (v.tell root found).1.map (·.position) =
        before.filter (fun position => (root.joinAll position).isSupported) ∧
      (root.joinAll position).isSupported = true ∧
      v.read (root.joinAll position) = .error fault := by
  induction found with
  | nil => cases h
  | cons first rest ih =>
    rw [Volume.tell] at h ⊢
    cases hsupported : (root.joinAll first).isSupported with
    | false =>
      simp only [hsupported, Bool.false_eq_true, if_false] at h ⊢
      obtain ⟨before, after, rfl, hreports, hread⟩ := ih h
      refine ⟨first :: before, after, rfl, ?_, hread⟩
      rw [hreports, List.filter_cons_of_neg (by simp [hsupported])]
    | true =>
      simp only [hsupported, if_true] at h ⊢
      cases hcontent : v.read (root.joinAll first) with
      | error own =>
        simp only [hcontent, Except.error.injEq, Prod.mk.injEq] at h ⊢
        obtain ⟨rfl, rfl⟩ := h
        exact ⟨[], rest, rfl, rfl, hsupported, hcontent⟩
      | ok content =>
        simp only [hcontent] at h ⊢
        obtain ⟨before, after, rfl, hreports, hread⟩ := ih h
        refine ⟨first :: before, after, rfl, ?_, hread⟩
        rw [List.filter_cons_of_pos (by exact hsupported), ← hreports]
        rfl

/-- **The spelling of a root does not matter.** Two paths lead to one folder. Unless a limit cuts
one of the walks short, which does not happen where there are no limits, both come to the same
findings: the same files in the same order, or the same fault, at the same positions. A scan fails
with the fault; otherwise, if no supported file has too long a path, the scans hand over the same
reports, up to the root, and end with the same counters or at the same file, the first one that is
supported and withheld. -/
theorem spelling (v : Volume) (hv : v.WellFormed) (r₁ r₂ : Path) (loc : Loc)
    (h₁ : v.locate r₁ = .ok loc) (h₂ : v.locate r₂ = .ok loc) (hfolder : v.hasFolder loc = true) :
    (v.limits = {} → ∀ root, ¬v.CutShort root) ∧
    (¬v.CutShort r₁ → ¬v.CutShort r₂ →
      ∃ findings : Findings, findings.Sound ∧
        (∀ root ∈ [r₁, r₂], v.collect root = findings.under root) ∧
        (∀ root ∈ [r₁, r₂], ∀ position, IsEntry position →
          root.joinAll position =
            (if root.getLast? = some Path.slash then root else root ++ [Path.slash]) ++
              [Path.slash].intercalate position) ∧
        (∀ fault, findings = .error fault →
          ∀ root ∈ [r₁, r₂], ∀ (σ : Type) (r : Reporter σ) (state : σ),
            (scan v r root state).1.result = .error (.walk (fault.under root))) ∧
        (∀ found, findings = .ok found →
          (∀ root ∈ [r₁, r₂], ∀ position ∈ found, (root.joinAll position).isSupported = true →
            v.limits.refuses (root.joinAll position) = false) →
          ∃ (reports : List PositionReport) (ending : Except (List Name × OsError) Summary),
            (∀ summary, ending = .ok summary → reports.map (·.position) =
              found.filter (fun position => (r₁.joinAll position).isSupported)) ∧
            (∀ position cause, ending = .error (position, cause) →
              (∃ before after, found = before ++ position :: after ∧ reports.map (·.position) =
                before.filter (fun position => (r₁.joinAll position).isSupported)) ∧
              (r₁.joinAll position).isSupported = true ∧
              ∀ root ∈ [r₁, r₂], v.Withholds (root.joinAll position) cause) ∧
            ∀ root ∈ [r₁, r₂], ∀ (σ : Type) (r : Reporter σ) (state : σ), r.Unfailing →
              (scan v r root state).1.result =
                ending.mapError (fun stop => .read (root.joinAll stop.1) (.os stop.2)) ∧
              (scan v r.recorded root (state, [])).2.2 =
                .begin root :: (reports.map fun report => .file (report.under root)) ++
                  ending.toOption.toList.map .finish)) := by
  refine ⟨Volume.not_cutShort hv, fun hcut₁ hcut₂ => ?_⟩
  obtain ⟨findings, hsound, hcollect₁, hcollect₂⟩ :=
    Volume.collect_alike hv h₁ h₂ hfolder hcut₁ hcut₂
  have hlocate : ∀ root ∈ [r₁, r₂], v.locate root = .ok loc := by simp [h₁, h₂]
  have hcollect : ∀ root ∈ [r₁, r₂], v.collect root = findings.under root := by
    simp [hcollect₁, hcollect₂]
  have hresolve : ∀ root ∈ [r₁, r₂],
      (resolve v root).result = (findings.under root).mapError .walk := by
    intro root hroot
    rw [resolve_result, hlocate root hroot, hcollect root hroot]
    simp [hfolder]
  refine ⟨findings, hsound, hcollect, ?_, ?_, ?_⟩
  · intro root hroot position ⟨hne, hplain⟩
    obtain ⟨links, harrive⟩ := Volume.locate_eq_ok_iff.1 (hlocate root hroot)
    obtain ⟨-, -, hroot, -⟩ := Volume.arrive_eq_ok_iff.1 harrive
    exact Path.joinAll_eq hroot hne fun n hn => ⟨(hplain n hn).no_slash, (hplain n hn).ne_nil⟩
  · rintro fault rfl root hroot σ r state
    exact congrArg Prod.fst (scan_of_error r state (hresolve root hroot))
  · rintro found rfl hshort
    -- what has a supported extension below one root has it below the other, and its path is short
    have hshort : ∀ root ∈ [r₁, r₂], ∀ position ∈ found, (r₁.joinAll position).isSupported = true →
        v.limits.refuses (root.joinAll position) = false := by
      intro root hroot position hmem hpath
      refine hshort root hroot position hmem ?_
      rwa [Path.isSupported, ofPath_joinAll r₁ root (hsound position hmem)]
    have hplace : ∀ root ∈ [r₁, r₂], ∀ position ∈ found, (r₁.joinAll position).isSupported = true →
        ∃ place, v.locate (root.joinAll position) = .ok place := by
      intro root hroot position hmem hpath
      obtain ⟨place, hmeets⟩ := resolve_meets hv (hresolve root hroot) (List.mem_map_of_mem hmem)
      have hlocated := hmeets.locate hv
      rw [hshort root hroot position hmem hpath] at hlocated
      exact ⟨place, hlocated⟩
    have hread : ∀ root ∈ [r₁, r₂], ∀ position ∈ found, (r₁.joinAll position).isSupported = true →
        v.read (root.joinAll position) = v.read (r₁.joinAll position) := by
      intro root hroot position hmem hpath
      obtain ⟨place, h⟩ := hplace r₁ (by simp) position hmem hpath
      obtain ⟨place', h'⟩ := hplace root hroot position hmem hpath
      exact read_joinAll h₁ (hlocate root hroot) (hsound position hmem) h h'
    have hlint (root : Path) (hroot : root ∈ [r₁, r₂]) := lintAll_tell hsound (hread root hroot)
    have hscan (root : Path) (hroot : root ∈ [r₁, r₂]) {σ : Type} {r : Reporter σ} (state : σ)
        (hr : r.Unfailing) := And.intro (scan_unfailing hr state (hresolve root hroot))
      (congrArg Prod.snd (scan_recorded hr state (hresolve root hroot)))
    cases htell : (v.tell r₁ found).2 with
    | ok _ =>
      refine ⟨(v.tell r₁ found).1, .ok (.ofReports found.length
        ((v.tell r₁ found).1.map (·.under r₁))), fun _ _ => tell_ok htell, by simp, ?_⟩
      intro root hroot σ r state hr
      obtain ⟨hresult, hcalls⟩ := hscan root hroot state hr
      rw [hresult, hcalls, scanCalls, scanSummary, hlint root hroot, htell, List.length_map,
        ofReports_under r₁ root, List.map_map]
      exact ⟨rfl, rfl⟩
    | error stop =>
      obtain ⟨position, fault⟩ := stop
      obtain ⟨before, after, hsplit, hreports, hpath, hfault⟩ := tell_error htell
      have hmem : position ∈ found := by simp [hsplit]
      have hcause (root : Path) (hroot : root ∈ [r₁, r₂]) :
          ∃ cause, v.Unreadable (root.joinAll position) cause ∧ fault = .os cause :=
        (read_error_iff hv (hresolve root hroot) (List.mem_map_of_mem hmem)).1
          ((hread root hroot position hmem hpath).trans hfault)
      obtain ⟨cause, -, rfl⟩ := hcause r₁ (by simp)
      refine ⟨(v.tell r₁ found).1, .error (position, cause), by simp, ?_, ?_⟩
      · rintro _ _ ⟨⟩
        refine ⟨⟨before, after, hsplit, hreports⟩, hpath, fun root hroot => ?_⟩
        obtain ⟨own, hlong | hwithheld, heq⟩ := hcause root hroot
        · rw [hshort root hroot position hmem hpath] at hlong
          cases hlong
        · cases heq
          exact hwithheld
      · intro root hroot σ r state hr
        obtain ⟨hresult, hcalls⟩ := hscan root hroot state hr
        rw [hresult, hcalls, scanCalls, hlint root hroot, htell, List.map_map]
        exact ⟨rfl, rfl⟩

/-- The folder `d` with the script `a.js`, and beside it the link `l` to `d`. -/
def beside : Volume :=
  { root := .folder [("d", .folder [("a.js", .file (.ok "fetch("))]), ("l", .link "d")]
    limits := .linux }

theorem spelling_beside :
    beside.WellFormed ∧ beside.locate "d/" = .ok ["d"] ∧ beside.locate "l/../l" = .ok ["d"] ∧
    beside.collect "d/" = .ok ["d/a.js"] ∧ beside.collect "l/../l" = .ok ["l/../l/a.js"] ∧
    ∃ summary : Summary, (scan beside silent "d/" ()).1.result = .ok summary ∧
      (scan beside silent "l/../l" ()).1.result = .ok summary := by
  have hv : beside.WellFormed := by decide
  have h₁ : beside.locate "d/" = .ok ["d"] := by cbv
  have h₂ : beside.locate "l/../l" = .ok ["d"] := by cbv
  have hcollect₁ : beside.collect "d/" = .ok ["d/a.js"] := by cbv
  have hcollect₂ : beside.collect "l/../l" = .ok ["l/../l/a.js"] := by cbv
  have hwhole {root : Path} {files : List Path} (h : beside.collect root = .ok files) :
      ¬beside.CutShort root := by
    rintro ⟨p, cause, hcollect, -⟩
    rw [h] at hcollect
    cases hcollect
  obtain ⟨findings, -, hcollect, -, -, hscan⟩ :=
    (spelling beside hv _ _ _ h₁ h₂ rfl).2 (hwhole hcollect₁) (hwhole hcollect₂)
  have hfound₁ := hcollect₁.symm.trans (hcollect "d/" (by simp))
  have hfound₂ := hcollect₂.symm.trans (hcollect "l/../l" (by simp))
  cases findings with
  | error fault => cases hfound₁
  | ok found =>
    have hfound₁ := Except.ok.inj hfound₁
    have hfound₂ := Except.ok.inj hfound₂
    have hpath₁ {position : List Name} (hmem : position ∈ found) :
        Path.joinAll "d/" position = "d/a.js" := by
      have hpath := List.mem_map_of_mem (f := Path.joinAll "d/") hmem
      rw [← hfound₁] at hpath
      exact List.mem_singleton.1 hpath
    have hpath₂ {position : List Name} (hmem : position ∈ found) :
        Path.joinAll "l/../l" position = "l/../l/a.js" := by
      have hpath := List.mem_map_of_mem (f := Path.joinAll "l/../l") hmem
      rw [← hfound₂] at hpath
      exact List.mem_singleton.1 hpath
    obtain ⟨_, ending, -, hwithheld, hsame⟩ := hscan found rfl <| by
      intro root hroot position hmem _
      rcases List.mem_pair.1 hroot with rfl | rfl
      · rw [hpath₁ hmem]
        decide
      · rw [hpath₂ hmem]
        decide
    cases ending with
    | ok summary =>
      exact ⟨hv, h₁, h₂, hcollect₁, hcollect₂, summary,
        (hsame _ (by simp) Unit silent () fun _ _ => rfl).1,
        (hsame _ (by simp) Unit silent () fun _ _ => rfl).1⟩
    | error stop =>
      obtain ⟨⟨before, after, hsplit, -⟩, -, hroots⟩ := hwithheld _ _ rfl
      have hmem : stop.1 ∈ found := by simp [hsplit]
      obtain ⟨place, hplace, hnode⟩ := hroots "d/" (by simp)
      have hscript : beside.locate "d/a.js" = .ok ["d", "a.js"] := by cbv
      rw [hpath₁ hmem, hscript] at hplace
      cases hplace
      cases hnode

/-- Both paths lead to `d`. Below the shorter one the walk opens the folder `abc`, below the longer
one it cannot. -/
theorem spelling_long :
    (Volume.holding (.folder [])).WellFormed ∧
    (Volume.holding (.folder [])).locate "d" = .ok ["d"] ∧
    (Volume.holding (.folder [])).locate (Volume.slashed 4092) = .ok ["d"] ∧
    (Volume.holding (.folder [])).hasFolder ["d"] = true ∧
    (Volume.holding (.folder [])).collect "d" = .ok [] ∧
    (Volume.holding (.folder [])).collect (Volume.slashed 4092) =
      .error (.access ((Volume.slashed 4092).join "abc") (.os .nameTooLong)) := by
  have harrive := Volume.arrive_slashed (.folder []) (show 4092 ≤ 4094 by decide)
  refine ⟨by decide, by cbv, Volume.locate_eq_ok_iff.2 ⟨0, harrive⟩, rfl, by cbv, ?_⟩
  have henter : (Volume.holding (.folder [])).enter ⟨⟨["d"], 0⟩, Volume.slashed 4092⟩
      "abc" = .error (.os .nameTooLong) := by
    rw [Volume.enter, Volume.refuses_slashed _ (Nat.le_refl _)]
    rfl
  rw [Volume.collect_holding _ (by decide), Volume.visit,
    Volume.look_eq_error_iff.2 (.inl ⟨_, henter, rfl⟩)]

end InkLint
