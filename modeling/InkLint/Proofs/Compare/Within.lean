import InkLint.Proofs.Compare.SameTree

/-!
# A volume within a larger one

`v.Within w` says that whatever stands in `v` stands in `w` too, at the same location, and that `w`
limits a lookup no more than `v` does. A lookup that succeeds in `v` then succeeds in `w` and leads
to the same place (`Within.follow`), and an entry that a walk of `v` can enter is seen alike by a
walk of `w` (`Within.look_eq`). Nothing is said about lookups that fail in `v`: they may succeed in
`w`.
-/

namespace InkLint

theorem Node.Agrees.refl (node : Node) : node.Agrees (· = ·) node := by
  cases node <;> simp [Node.Agrees]

namespace Volume

/-- Whatever stands in `v` stands in `w`, and lookups in `w` are limited no more than in `v`. -/
structure Within (v w : Volume) : Prop where
  home : w.home = v.home
  refuses : ∀ p, w.limits.refuses p = true → v.limits.refuses p = true
  spent : ∀ n, w.limits.spent n = true → v.limits.spent n = true
  nodes : ∀ loc node, v.node? loc = some node →
    ∃ other, w.node? loc = some other ∧ node.Agrees (· = ·) other

variable {v w : Volume} {outer : List OpenFolder} {dir : OpenFolder} {name : Name}

namespace Within

variable (h : v.Within w)
include h

/-! ## What stands at a location -/

theorem node?_file {loc : Loc} {content : Content} (hv : v.node? loc = some (.file content)) :
    w.node? loc = some (.file content) := by
  obtain ⟨other, hw, hagrees⟩ := h.nodes loc _ hv
  cases other <;> simp_all [Node.Agrees]

theorem node?_link {loc : Loc} {text : Path} (hv : v.node? loc = some (.link text)) :
    w.node? loc = some (.link text) := by
  obtain ⟨other, hw, hagrees⟩ := h.nodes loc _ hv
  cases other <;> simp_all [Node.Agrees]

theorem hasFolder {loc : Loc} (hv : v.hasFolder loc = true) : w.hasFolder loc = true := by
  obtain ⟨entries, hnode⟩ := hasFolder_iff.1 hv
  obtain ⟨other, hw, hagrees⟩ := h.nodes loc _ hnode
  cases other <;> simp_all [Node.Agrees, hasFolder_iff]

theorem hasFile {loc : Loc} (hv : v.hasFile loc = true) : w.hasFile loc = true := by
  obtain ⟨content, hnode⟩ := hasFile_iff.1 hv
  exact hasFile_iff.2 ⟨content, h.node?_file hnode⟩

/-- What is no link in `v` is none in `w`. -/
theorem not_hasLink {loc : Loc} (hsome : (v.node? loc).isSome) (hv : v.hasLink loc = false) :
    w.hasLink loc = false := by
  rcases node_cases hsome with hnode | hnode | hnode
  · exact not_hasLink_of_hasFolder (h.hasFolder hnode)
  · exact not_hasLink_of_hasFile (h.hasFile hnode)
  · rw [hv] at hnode
    cases hnode

/-! ## Lookups that succeed -/

theorem step {loc next : Loc} {piece : Name} (hv : v.step loc piece = .ok next) :
    w.step loc piece = .ok next := by
  have hfolder := hasFolder_of_step hv
  obtain ⟨es, hes⟩ := hasFolder_iff.1 hfolder
  obtain ⟨fs, hfs⟩ := hasFolder_iff.1 (h.hasFolder hfolder)
  have hentry : (es.lookup piece).isSome → (fs.lookup piece).isSome := by
    rw [← node?_concat hes, ← node?_concat hfs]
    intro hsome
    obtain ⟨node, hnode⟩ := Option.isSome_iff_exists.1 hsome
    obtain ⟨other, hother, -⟩ := h.nodes _ _ hnode
    simp [hother]
  simp only [Volume.step, hes, hfs] at hv ⊢
  by_cases hstay : Path.staysPut piece = true
  · rw [if_pos hstay] at hv ⊢
    exact hv
  · by_cases hup : piece = Path.up
    · rw [if_neg hstay, if_pos hup] at hv ⊢
      exact hv
    · by_cases hlong : maxName < piece.length
      · rw [if_neg hstay, if_neg hup, if_pos hlong] at hv
        cases hv
      · rw [if_neg hstay, if_neg hup, if_neg hlong] at hv ⊢
        by_cases hsome : (es.lookup piece).isSome
        · rw [if_pos hsome] at hv
          rw [if_pos (hentry hsome), hv]
        · rw [if_neg hsome] at hv
          cases hv

theorem follow {busy : List Loc} {here reached : Arrival} {pieces : List Name}
    (hv : v.follow busy here pieces = .ok reached) : w.follow busy here pieces = .ok reached := by
  induction busy, here, pieces using follow.induct v generalizing reached with
  | case1 busy here => rw [follow_nil] at hv ⊢; exact hv
  | case2 busy here piece rest fault hstep => rw [follow_fault hstep] at hv; cases hv
  | case3 busy here piece rest next hstep text hlink hbusy =>
    rw [follow_link hstep hlink, if_pos hbusy] at hv
    cases hv
  | case4 busy here piece rest next hstep text hlink hbusy fault hfault ih =>
    rw [follow_link hstep hlink, if_neg hbusy, hfault] at hv
    cases hv
  | case5 busy here piece rest next hstep text hlink hbusy mid hmid ihtext ihrest =>
    rw [follow_link hstep hlink, if_neg hbusy, hmid] at hv
    have hbusy' : ¬(next ∈ busy ∨ w.limits.spent here.links = true) :=
      fun hor => hbusy (hor.imp id (h.spent _))
    rw [follow_link (h.step hstep) (h.node?_link hlink), if_neg hbusy', ihtext hmid]
    exact ihrest hv
  | case6 busy here piece rest next hstep hlink ih =>
    have hnot : v.hasLink next = false := hasLink_eq_false_iff.2 hlink
    rw [follow_piece hstep hnot] at hv
    rw [follow_piece (h.step hstep) (h.not_hasLink (step_isSome hstep) hnot)]
    exact ih hv

/-- A path that leads somewhere in `v` leads there in `w`. -/
theorem arrive {p : Path} {there : Arrival} (hv : v.arrive p = .ok there) :
    w.arrive p = .ok there := by
  obtain ⟨hnul, hrefuses, hne, hfollow⟩ := arrive_eq_ok_iff.1 hv
  refine arrive_eq_ok_iff.2 ⟨hnul, ?_, hne, ?_⟩
  · cases hw : w.limits.refuses p with
    | false => rfl
    | true =>
      rw [h.refuses p hw] at hrefuses
      cases hrefuses
  · rw [h.home]
    exact h.follow hfollow

theorem locate {p : Path} {loc : Loc} (hv : v.locate p = .ok loc) : w.locate p = .ok loc := by
  obtain ⟨links, harrive⟩ := locate_eq_ok_iff.1 hv
  exact locate_eq_ok_iff.2 ⟨links, h.arrive harrive⟩

theorem read {p : Path} {content : Bytes} (hv : v.read p = .ok content) :
    w.read p = .ok content := by
  unfold Volume.read at hv ⊢
  cases hloc : v.locate p with
  | error fault => simp [hloc] at hv
  | ok loc =>
    cases hnode : v.node? loc with
    | none => simp [hloc, hnode] at hv
    | some node =>
      cases node with
      | file content' => simpa [h.locate hloc, h.node?_file hnode, hloc, hnode] using hv
      | link text => simp [hloc, hnode] at hv
      | folder entries => simp [hloc, hnode] at hv

/-! ## Entries of a walk -/

theorem anchored (hv : v.Anchored dir) : w.Anchored dir :=
  ⟨h.arrive hv.arrives, h.hasFolder hv.folder⟩

theorem enter {there : Arrival} (hv : v.enter dir name = .ok there) :
    w.enter dir name = .ok there := by
  unfold Volume.enter at hv ⊢
  split at hv
  · cases hv
  · rename_i henter
    rw [if_neg, h.follow hv]
    intro hw
    rw [Bool.and_eq_true, Bool.not_eq_true'] at hw
    cases hfile : v.hasFile (dir.loc ++ [name]) with
    | true =>
      rw [h.hasFile hfile] at hw
      cases hw.2
    | false => simp [h.refuses _ hw.1, hfile] at henter

/-- An entry that can be entered in `v` is seen alike in `w`, be it a fault or not. -/
theorem look_eq {there : Arrival} (hv : v.enter dir name = .ok there) :
    w.look outer dir name = v.look outer dir name := by
  have hfolder : w.hasFolder there.loc = v.hasFolder there.loc := by
    rcases (leads_of_enter hv).node (by simp) with hnode | hnode
    · rw [hnode, h.hasFolder hnode]
    · rw [not_hasFolder_of_hasFile hnode, not_hasFolder_of_hasFile (h.hasFile hnode)]
  simp only [look, hv, h.enter hv, hfolder]

theorem look {opened : Option OpenFolder} (hv : v.look outer dir name = .ok opened) :
    w.look outer dir name = .ok opened := by
  cases henter : v.enter dir name with
  | ok there => rw [h.look_eq henter, hv]
  | error cause => simp [Volume.look, henter] at hv

end Within

end Volume

end InkLint
