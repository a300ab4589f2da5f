import InkLint.Proofs.Walk.Entry

/-!
# Positions of a walk

A position is the list of names that leads to an entry from the folder where a walk starts.
`Descends` goes down a position through the folders that the walk opens, and `Sees` says what the
walk makes of the entry at a position, wherever in the tree it is. What a whole walk does is then
told by the positions alone (`walk_tells`): without a fault it lists the files' positions in
increasing order and no others, and with faults it ends with the one whose position comes first.

Positions are compared name by name. That is the order of the walk, a folder before what it holds,
and not the order of the joined paths: `a/b` comes before `a-b`.
-/

namespace InkLint

namespace Volume

/-- Going down the names from the open folders `outer₀` and `dir₀`, the walk has `outer` and `dir`
open. -/
inductive Descends (v : Volume) (outer₀ : List OpenFolder) (dir₀ : OpenFolder) :
    List Name → List OpenFolder → OpenFolder → Prop
  | start : Descends v outer₀ dir₀ [] outer₀ dir₀
  | down {names : List Name} {outer : List OpenFolder} {dir sub : OpenFolder} {name : Name} :
      Descends v outer₀ dir₀ names outer dir → name ∈ v.names dir.loc →
      v.look outer dir name = .ok (some sub) →
      Descends v outer₀ dir₀ (names ++ [name]) (dir :: outer) sub

/-- What the walk makes of the entry at a position. -/
def Sees (v : Volume) (outer : List OpenFolder) (dir : OpenFolder) (position : List Name)
    (seen : Except WalkFault (Option OpenFolder)) : Prop :=
  ∃ names name outer' dir', position = names ++ [name] ∧ v.Descends outer dir names outer' dir' ∧
    name ∈ v.names dir'.loc ∧ v.look outer' dir' name = seen

variable {v : Volume} {outer outer₁ outer₂ : List OpenFolder} {dir dir₁ dir₂ sub : OpenFolder}
variable {name : Name} {ns ms : List Name}

/-! ## Going down -/

theorem Descends.trans (h₁ : v.Descends outer dir ns outer₁ dir₁)
    (h₂ : v.Descends outer₁ dir₁ ms outer₂ dir₂) :
    v.Descends outer dir (ns ++ ms) outer₂ dir₂ := by
  induction h₂ with
  | start => rw [List.append_nil]; exact h₁
  | down _ hmem hlook ih => rw [← List.append_assoc]; exact ih.down hmem hlook

theorem Descends.cons (hmem : name ∈ v.names dir.loc)
    (hlook : v.look outer dir name = .ok (some sub))
    (h : v.Descends (dir :: outer) sub ns outer₁ dir₁) :
    v.Descends outer dir (name :: ns) outer₁ dir₁ :=
  (Descends.start.down hmem hlook).trans h

theorem descends_nil_iff :
    v.Descends outer dir [] outer₁ dir₁ ↔ outer₁ = outer ∧ dir₁ = dir := by
  constructor
  · intro h
    generalize hl : ([] : List Name) = l at h
    cases h with
    | start => exact ⟨rfl, rfl⟩
    | down _ _ _ => simp at hl
  · rintro ⟨rfl, rfl⟩
    exact .start

/-- The first name of a descent opens a folder, and the descent goes on from there. -/
theorem Descends.of_cons (h : v.Descends outer dir (name :: ns) outer₁ dir₁) :
    name ∈ v.names dir.loc ∧ ∃ sub, v.look outer dir name = .ok (some sub) ∧
      v.Descends (dir :: outer) sub ns outer₁ dir₁ := by
  generalize hl : name :: ns = l at h
  induction h generalizing ns with
  | start => cases hl
  | @down names outer' dir' sub' last h hmem hlook ih =>
    cases names with
    | nil =>
      obtain ⟨rfl, rfl⟩ := descends_nil_iff.1 h
      cases hl
      exact ⟨hmem, sub', hlook, .start⟩
    | cons first names =>
      rw [List.cons_append] at hl
      cases hl
      obtain ⟨hfirst, sub, hsub, hdown⟩ := ih rfl
      exact ⟨hfirst, sub, hsub, hdown.down hmem hlook⟩

/-- The last name of a descent opens the folder it ends in. -/
theorem Descends.of_concat (h : v.Descends outer dir (ns ++ [name]) outer₁ dir₁) :
    ∃ outer' dir', v.Descends outer dir ns outer' dir' ∧ name ∈ v.names dir'.loc ∧
      v.look outer' dir' name = .ok (some dir₁) ∧ outer₁ = dir' :: outer' := by
  generalize hl : ns ++ [name] = l at h
  cases h with
  | start => simp at hl
  | down h hmem hlook =>
    obtain ⟨rfl, hlast⟩ := List.append_inj' hl rfl
    cases hlast
    exact ⟨_, _, h, hmem, hlook, rfl⟩

theorem Descends.unique (h₁ : v.Descends outer dir ns outer₁ dir₁)
    (h₂ : v.Descends outer dir ns outer₂ dir₂) : outer₁ = outer₂ ∧ dir₁ = dir₂ := by
  induction h₁ generalizing outer₂ dir₂ with
  | start =>
    obtain ⟨rfl, rfl⟩ := descends_nil_iff.1 h₂
    exact ⟨rfl, rfl⟩
  | down _ _ hlook ih =>
    obtain ⟨outer', dir', h, -, hlook', rfl⟩ := h₂.of_concat
    obtain ⟨rfl, rfl⟩ := ih h
    rw [hlook] at hlook'
    cases hlook'
    exact ⟨rfl, rfl⟩

/-- Every name of a descent opened a folder. -/
theorem Descends.of_prefix (h : v.Descends outer dir ns outer₁ dir₁)
    (hpre : ms ++ [name] <+: ns) :
    ∃ outer' dir' sub, v.Descends outer dir ms outer' dir' ∧ name ∈ v.names dir'.loc ∧
      v.look outer' dir' name = .ok (some sub) := by
  induction h with
  | start => simp at hpre
  | down h hmem hlook ih =>
    rcases List.prefix_concat_iff.1 hpre with heq | hpre
    · obtain ⟨rfl, hn⟩ := List.append_inj' heq rfl
      cases hn
      exact ⟨_, _, _, h, hmem, hlook⟩
    · exact ih hpre

/-! ## Seeing an entry -/

theorem not_sees_nil {seen : Except WalkFault (Option OpenFolder)} :
    ¬v.Sees outer dir [] seen := by
  rintro ⟨names, name, outer', dir', h, -⟩
  simp at h

theorem sees_cons_iff {seen : Except WalkFault (Option OpenFolder)} :
    v.Sees outer dir (name :: ns) seen ↔
      name ∈ v.names dir.loc ∧ (ns = [] ∧ v.look outer dir name = seen ∨
        ∃ sub, v.look outer dir name = .ok (some sub) ∧ v.Sees (dir :: outer) sub ns seen) := by
  constructor
  · rintro ⟨names, last, outer', dir', heq, hdown, hmem, hlook⟩
    cases names with
    | nil =>
      obtain ⟨rfl, rfl⟩ := descends_nil_iff.1 hdown
      cases heq
      exact ⟨hmem, .inl ⟨rfl, hlook⟩⟩
    | cons first names =>
      rw [List.cons_append] at heq
      cases heq
      obtain ⟨hfirst, sub, hsub, hdown⟩ := hdown.of_cons
      exact ⟨hfirst, .inr ⟨sub, hsub, names, last, outer', dir', rfl, hdown, hmem, hlook⟩⟩
  · rintro ⟨hmem, ⟨rfl, hlook⟩ | ⟨sub, hsub, names, last, outer', dir', rfl, hdown, hlast, hlook⟩⟩
    · exact ⟨[], name, outer, dir, rfl, .start, hmem, hlook⟩
    · exact ⟨name :: names, last, outer', dir', rfl, .cons hmem hsub hdown, hlast, hlook⟩

theorem Sees.head_mem {seen : Except WalkFault (Option OpenFolder)}
    (h : v.Sees outer dir (name :: ns) seen) : name ∈ v.names dir.loc :=
  (sees_cons_iff.1 h).1

/-! ## What a walk tells -/

/-- What a walk over some entries of a folder tells about the positions that start with them. -/
def Tells (v : Volume) (outer : List OpenFolder) (dir : OpenFolder) (names : List Name) :
    Except WalkFault (List Path) → Prop
  | .ok files =>
    (∀ n ∈ names, ∀ ns fault, ¬v.Sees outer dir (n :: ns) (.error fault)) ∧
    ∃ found : List (List Name), files = found.map dir.path.joinAll ∧ found.Pairwise (· < ·) ∧
      ∀ position, position ∈ found ↔
        ∃ n ∈ names, ∃ ns, position = n :: ns ∧ v.Sees outer dir position (.ok none)
  | .error fault =>
    ∃ n ∈ names, ∃ ns, v.Sees outer dir (n :: ns) (.error fault) ∧
      ∀ m ∈ names, ∀ ms other, v.Sees outer dir (m :: ms) (.error other) → n :: ns ≤ m :: ms

theorem tells_nil : v.Tells outer dir [] (.ok []) :=
  ⟨by simp, [], rfl, .nil, by simp⟩

/-- One entry more, before all the others. -/
theorem tells_cons {rest : List Name} {first others : Except WalkFault (List Path)}
    (hlt : ∀ m ∈ rest, name < m)
    (hfirst : v.Tells outer dir [name] first) (hrest : v.Tells outer dir rest others) :
    v.Tells outer dir (name :: rest) (first.bind fun inner => others.map (inner ++ ·)) := by
  cases first with
  | error fault =>
    obtain ⟨n, hn, ns, hsees, hleast⟩ := hfirst
    obtain rfl := List.mem_singleton.1 hn
    refine ⟨n, by simp, ns, hsees, ?_⟩
    intro m hm ms other hother
    rcases List.mem_cons.1 hm with rfl | hm
    · exact hleast m hn ms other hother
    · exact List.le_of_lt (List.cons_lt_cons_iff.2 (.inl (hlt m hm)))
  | ok inner =>
    obtain ⟨hclear, found, rfl, hsorted, hfound⟩ := hfirst
    cases others with
    | error fault =>
      obtain ⟨n, hn, ns, hsees, hleast⟩ := hrest
      refine ⟨n, List.mem_cons_of_mem _ hn, ns, hsees, ?_⟩
      intro m hm ms other hother
      rcases List.mem_cons.1 hm with rfl | hm
      · exact absurd hother (hclear m (by simp) ms other)
      · exact hleast m hm ms other hother
    | ok files =>
      obtain ⟨hclear', found', rfl, hsorted', hfound'⟩ := hrest
      refine ⟨?_, found ++ found', ?_, ?_, ?_⟩
      · intro n hn
        rcases List.mem_cons.1 hn with rfl | hn
        · exact hclear n (by simp)
        · exact hclear' n hn
      · exact List.map_append.symm
      · refine List.pairwise_append.2 ⟨hsorted, hsorted', ?_⟩
        intro a ha b hb
        obtain ⟨n, hn, ns, rfl, -⟩ := (hfound a).1 ha
        obtain ⟨m, hm, ms, rfl, -⟩ := (hfound' b).1 hb
        obtain rfl := List.mem_singleton.1 hn
        exact List.cons_lt_cons_iff.2 (.inl (hlt m hm))
      · intro position
        rw [List.mem_append, hfound, hfound']
        constructor
        · rintro (⟨n, hn, h⟩ | ⟨n, hn, h⟩)
          · exact ⟨n, by rw [List.mem_singleton.1 hn]; simp, h⟩
          · exact ⟨n, List.mem_cons_of_mem _ hn, h⟩
        · rintro ⟨n, hn, h⟩
          rcases List.mem_cons.1 hn with rfl | hn
          · exact .inl ⟨n, by simp, h⟩
          · exact .inr ⟨n, hn, h⟩

/-- Below an entry that opens a folder the walk sees what it sees in that folder. -/
theorem sees_inside (hmem : name ∈ v.names dir.loc)
    (hlook : v.look outer dir name = .ok (some sub)) {seen : Except WalkFault (Option OpenFolder)}
    (hseen : ∀ opened, seen ≠ .ok (some opened)) :
    v.Sees outer dir (name :: ns) seen ↔ v.Sees (dir :: outer) sub ns seen := by
  rw [sees_cons_iff, hlook]
  constructor
  · rintro ⟨-, ⟨-, rfl⟩ | ⟨sub', h, hsees⟩⟩
    · exact absurd rfl (hseen sub)
    · cases h
      exact hsees
  · intro hsees
    exact ⟨hmem, .inr ⟨sub, rfl, hsees⟩⟩

theorem tells_error {fault : WalkFault} (hmem : name ∈ v.names dir.loc)
    (hlook : v.look outer dir name = .error fault) :
    v.Tells outer dir [name] (.error fault) := by
  refine ⟨name, by simp, [], sees_cons_iff.2 ⟨hmem, .inl ⟨rfl, hlook⟩⟩, ?_⟩
  intro m hm ms other _
  obtain rfl := List.mem_singleton.1 hm
  exact List.cons_le_cons_iff.2 (.inr ⟨rfl, List.nil_le ms⟩)

theorem tells_file (hmem : name ∈ v.names dir.loc) (hlook : v.look outer dir name = .ok none) :
    v.Tells outer dir [name] (.ok [dir.path.join name]) := by
  refine ⟨?_, [[name]], rfl, List.pairwise_singleton _ _, ?_⟩
  · intro n hn ns fault hsees
    obtain rfl := List.mem_singleton.1 hn
    rcases (sees_cons_iff.1 hsees).2 with ⟨-, h⟩ | ⟨sub, h, -⟩ <;> rw [hlook] at h <;> cases h
  · intro position
    rw [List.mem_singleton]
    constructor
    · rintro rfl
      exact ⟨name, by simp, [], rfl, sees_cons_iff.2 ⟨hmem, .inl ⟨rfl, hlook⟩⟩⟩
    · rintro ⟨n, hn, ns, rfl, hsees⟩
      obtain rfl := List.mem_singleton.1 hn
      rcases (sees_cons_iff.1 hsees).2 with ⟨rfl, -⟩ | ⟨sub, h, -⟩
      · rfl
      · rw [hlook] at h
        cases h

/-- What is told about the folder that an entry opens is told about the entry. -/
theorem tells_folder (hmem : name ∈ v.names dir.loc)
    (hlook : v.look outer dir name = .ok (some sub)) {result : Except WalkFault (List Path)}
    (htells : v.Tells (dir :: outer) sub (v.names sub.loc) result) :
    v.Tells outer dir [name] result := by
  have hpath := path_of_look hlook
  cases result with
  | error fault =>
    obtain ⟨n, hn, ns, hsees, hleast⟩ := htells
    refine ⟨name, by simp, n :: ns, (sees_inside hmem hlook (by simp)).2 hsees, ?_⟩
    intro m hm ms other hother
    obtain rfl := List.mem_singleton.1 hm
    refine List.cons_le_cons_iff.2 (.inr ⟨rfl, ?_⟩)
    have hother' := (sees_inside hmem hlook (by simp)).1 hother
    cases ms with
    | nil => exact absurd hother' not_sees_nil
    | cons k ms => exact hleast k hother'.head_mem ms other hother'
  | ok files =>
    obtain ⟨hclear, found, rfl, hsorted, hfound⟩ := htells
    refine ⟨?_, found.map (name :: ·), ?_, ?_, ?_⟩
    · intro n hn ns fault hsees
      obtain rfl := List.mem_singleton.1 hn
      have hsees' := (sees_inside hmem hlook (by simp)).1 hsees
      cases ns with
      | nil => exact not_sees_nil hsees'
      | cons k ns => exact hclear k hsees'.head_mem ns fault hsees'
    · simp [hpath]
    · refine List.pairwise_map.2 (hsorted.imp ?_)
      intro a b hab
      exact List.cons_lt_cons_iff.2 (.inr ⟨rfl, hab⟩)
    · intro position
      rw [List.mem_map]
      constructor
      · rintro ⟨ns, hns, rfl⟩
        obtain ⟨n, hn, ms, rfl, hsees⟩ := (hfound ns).1 hns
        exact ⟨name, by simp, n :: ms, rfl, (sees_inside hmem hlook (by simp)).2 hsees⟩
      · rintro ⟨n, hn, ns, rfl, hsees⟩
        obtain rfl := List.mem_singleton.1 hn
        have hsees' := (sees_inside hmem hlook (by simp)).1 hsees
        cases ns with
        | nil => exact absurd hsees' not_sees_nil
        | cons k ns => exact ⟨k :: ns, (hfound _).2 ⟨k, hsees'.head_mem, ns, rfl, hsees'⟩, rfl⟩

theorem tells_visit (hmem : name ∈ v.names dir.loc)
    (hsub : ∀ sub, v.look outer dir name = .ok (some sub) →
      v.Tells (dir :: outer) sub (v.names sub.loc) (v.walk (dir :: outer) sub (v.names sub.loc))) :
    v.Tells outer dir [name] (v.visit outer dir name) := by
  unfold visit
  split
  · rename_i hlook; exact tells_error hmem hlook
  · rename_i hlook; exact tells_file hmem hlook
  · rename_i sub hlook; exact tells_folder hmem hlook (hsub sub hlook)

/-- **What a walk does**: it lists the files' positions in increasing order, or it ends with the
fault whose position comes first. -/
theorem walk_tells (hv : v.WellFormed) (outer : List OpenFolder) (dir : OpenFolder) :
    v.Tells outer dir (v.names dir.loc) (v.walk outer dir (v.names dir.loc)) := by
  induction outer, dir using walk_induction v with
  | step outer dir ih =>
    have hlists : ∀ names, (∀ n ∈ names, n ∈ v.names dir.loc) → names.Pairwise (· < ·) →
        v.Tells outer dir names (v.walk outer dir names) := by
      intro names
      induction names with
      | nil => intro _ _; rw [walk_nil]; exact tells_nil
      | cons n names ihnames =>
        intro hsub hsorted
        obtain ⟨hlt, hsorted⟩ := List.pairwise_cons.1 hsorted
        rw [walk_cons]
        exact tells_cons hlt (tells_visit (hsub n (by simp)) (ih n))
          (ihnames (fun m hm => hsub m (List.mem_cons_of_mem _ hm)) hsorted)
    exact hlists _ (fun _ h => h) (hv.names_lt dir.loc)

/-- A walk that ends well has seen no fault. -/
theorem not_sees_error (hv : v.WellFormed) {files : List Path}
    (h : v.walk outer dir (v.names dir.loc) = .ok files) (position : List Name)
    (fault : WalkFault) : ¬v.Sees outer dir position (.error fault) := by
  have htells := walk_tells hv outer dir
  rw [h] at htells
  intro hsees
  cases position with
  | nil => exact not_sees_nil hsees
  | cons n ns => exact htells.1 n hsees.head_mem ns fault hsees

/-- A walk that ends well lists the positions where it has seen a file, in increasing order. -/
theorem walk_found (hv : v.WellFormed) {files : List Path}
    (h : v.walk outer dir (v.names dir.loc) = .ok files) :
    ∃ found : List (List Name), files = found.map dir.path.joinAll ∧ found.Pairwise (· < ·) ∧
      ∀ position, position ∈ found ↔ v.Sees outer dir position (.ok none) := by
  have htells := walk_tells hv outer dir
  rw [h] at htells
  obtain ⟨-, found, hfiles, hsorted, hfound⟩ := htells
  refine ⟨found, hfiles, hsorted, fun position => ?_⟩
  rw [hfound]
  constructor
  · rintro ⟨n, -, ns, -, hsees⟩
    exact hsees
  · intro hsees
    cases position with
    | nil => exact absurd hsees not_sees_nil
    | cons n ns => exact ⟨n, hsees.head_mem, ns, rfl, hsees⟩

/-- A walk that fails has seen its fault. -/
theorem sees_of_walk_error (hv : v.WellFormed) {fault : WalkFault}
    (h : v.walk outer dir (v.names dir.loc) = .error fault) :
    ∃ position, v.Sees outer dir position (.error fault) := by
  have htells := walk_tells hv outer dir
  rw [h] at htells
  obtain ⟨n, -, ns, hsees, -⟩ := htells
  exact ⟨n :: ns, hsees⟩

end Volume

end InkLint
