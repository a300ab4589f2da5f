import InkLint.Proofs.Walk.Listed

/-!
# Two ways to a target

Resolving a target looks it up once, through all links, and walks it only if that led to a folder.
Walking a target looks at it as it stands, follows it if it is a link, and lists it if that led to
no folder. Both come to the same (`resolve_agrees`): to the same files, to the same fault somewhere
below the target, or, where the target itself cannot be accessed, to errors that name the same path
and the same cause.
-/

namespace InkLint

namespace Volume

variable {v : Volume} {p : Path} {cause : Fault}

/-! ## Causes -/

theorem step_error {loc : Loc} {piece : Name} (h : v.step loc piece = .error cause) :
    ∃ error, cause = .os error := by
  unfold step at h
  split at h
  · split at h
    · cases h
    · split at h
      · cases h
      · split at h
        · cases h
          exact ⟨_, rfl⟩
        · split at h
          · cases h
          · cases h
            exact ⟨_, rfl⟩
  · cases h
    exact ⟨_, rfl⟩

/-- Whatever keeps pieces from being followed is a failure of the operating system. -/
theorem follow_error {busy : List Loc} {here : Arrival} {pieces : List Name}
    (h : v.follow busy here pieces = .error cause) : ∃ error, cause = .os error := by
  induction busy, here, pieces using follow.induct v with
  | case1 busy here =>
    rw [follow_nil] at h
    cases h
  | case2 busy here piece rest fault hstep =>
    rw [follow_fault hstep] at h
    cases h
    exact step_error hstep
  | case3 busy here piece rest next hstep text hlink hbusy =>
    rw [follow_link hstep hlink, if_pos hbusy] at h
    cases h
    exact ⟨_, rfl⟩
  | case4 busy here piece rest next hstep text hlink hbusy fault hfault ih =>
    rw [follow_link hstep hlink, if_neg hbusy, hfault] at h
    cases h
    exact ih hfault
  | case5 busy here piece rest next hstep text hlink hbusy mid hmid _ ihrest =>
    rw [follow_link hstep hlink, if_neg hbusy, hmid] at h
    exact ihrest h
  | case6 busy here piece rest next hstep hlink ih =>
    rw [follow_piece hstep (hasLink_eq_false_iff.2 hlink)] at h
    exact ih h

theorem refusal?_cause (h : v.refusal? p = some cause) :
    cause = .nulByte ∧ 0 ∈ p ∨ (∃ error, cause = .os error) ∧ 0 ∉ p := by
  unfold refusal? at h
  split at h
  · rename_i hnul
    cases h
    exact .inl ⟨rfl, hnul⟩
  · rename_i hnul
    refine .inr ⟨?_, hnul⟩
    split at h
    · cases h
      exact ⟨_, rfl⟩
    · split at h
      · cases h
        exact ⟨_, rfl⟩
      · cases h

/-- A path that cannot be accessed has a NUL byte, or the operating system says why. -/
theorem locate_error (h : v.locate p = .error cause) :
    cause = .nulByte ∧ 0 ∈ p ∨ (∃ error, cause = .os error) ∧ 0 ∉ p := by
  rw [locate_eq_error_iff, arrive] at h
  cases hrefusal : v.refusal? p with
  | some fault =>
    simp only [hrefusal, Except.error.injEq] at h
    subst h
    exact refusal?_cause hrefusal
  | none =>
    simp only [hrefusal] at h
    exact .inr ⟨follow_error h, (refusal?_eq_none_iff.1 hrefusal).1⟩

/-! ## Walks of targets -/

/-- The walk of a path that cannot be accessed. -/
theorem collect_of_locate_error (h : v.locate p = .error cause) :
    v.collect p = .error (.access p cause) := by
  rw [collect_eq_arrive, locate_eq_error_iff.1 h]

end Volume

/-! ## Messages -/

theorem LintError.message_target (path : Path) (cause : Fault) :
    (target path cause).message = "Cannot access " ++ (path.display ++ ": " ++ cause.message) := by
  unfold message
  simp only [String.append_assoc]

theorem LintError.message_access (path : Path) (cause : Fault) :
    (walk (.access path cause)).message =
      "Walk error: IO error for operation on " ++ (path.display ++ ": " ++ cause.message) := by
  have hfront : "Walk error: IO error for operation on " =
      "Walk error: " ++ "IO error for operation on " := by simp
  unfold message WalkFault.message
  simp only [hfront, String.append_assoc]

/-! ## Agreement -/

/-- **Resolving a target and walking it agree.** If the target can be accessed, both give the same
files or the same fault of the walk. If it cannot, both fail with its own path and with the same
cause, one that the operating system gave unless a NUL byte kept the path from it; and of the two
messages only the words in front differ. -/
theorem resolve_agrees (v : Volume) (target : Path) :
    (∀ loc, v.locate target = .ok loc →
      (resolve v target).result = (collectFiles v target).result ∧
      ((∃ files, (collectFiles v target).result = .ok files) ∨
        ∃ fault, (collectFiles v target).result = .error (.walk fault))) ∧
    ∀ cause, v.locate target = .error cause →
      (resolve v target).result = .error (.target target cause) ∧
      (collectFiles v target).result = .error (.walk (.access target cause)) ∧
      (cause = .nulByte ∧ 0 ∈ target ∨ (∃ error, cause = .os error) ∧ 0 ∉ target) ∧
      ∃ words, words = target.display ++ ": " ++ cause.message ∧
        (LintError.target target cause).message = "Cannot access " ++ words ∧
        (LintError.walk (.access target cause)).message =
          "Walk error: IO error for operation on " ++ words := by
  refine ⟨fun loc hlocate => ⟨?_, ?_⟩, fun cause hlocate => ⟨?_, ?_, ?_, ?_⟩⟩
  · rw [resolve_result, hlocate, collectFiles_result]
    cases hfolder : v.hasFolder loc with
    | true => simp [hfolder]
    | false => simp [hfolder, Volume.collect_of_not_hasFolder hlocate hfolder, Except.mapError]
  · rw [collectFiles_result]
    cases v.collect target with
    | ok files => exact .inl ⟨files, rfl⟩
    | error fault => exact .inr ⟨fault, rfl⟩
  · rw [resolve_result, hlocate]
  · rw [collectFiles_result, Volume.collect_of_locate_error hlocate]
    rfl
  · exact Volume.locate_error hlocate
  · exact ⟨_, rfl, LintError.message_target _ _, LintError.message_access _ _⟩

/-- The folder `d` holds `a.js`. The link `l` leads to it, and the link `y` to itself. -/
def selfTied : Volume :=
  { root := .folder [("d", .folder [("a.js", .file (.ok []))]), ("l", .link "d"),
      ("y", .link "y")]
    limits := .linux }

/-- A link to a folder is walked either way. A link to itself can be looked at, but not followed. -/
theorem resolve_agrees_selfTied :
    (selfTied.locate "l" = .ok ["d"] ∧
      (collectFiles selfTied "l").result = .ok ["l/a.js"] ∧
      (resolve selfTied "l").result = .ok ["l/a.js"]) ∧
    selfTied.peek "y" = .ok ⟨["y"], 0⟩ ∧
    selfTied.locate "y" = .error (.os .linkCircle) ∧
    (resolve selfTied "y").result = .error (.target "y" (.os .linkCircle)) ∧
    (collectFiles selfTied "y").result = .error (.walk (.access "y" (.os .linkCircle))) := by
  have hfolder : selfTied.locate "l" = .ok ["d"] := by cbv
  have hcircle : selfTied.locate "y" = .error (.os .linkCircle) := by cbv
  have hfiles : (collectFiles selfTied "l").result = .ok ["l/a.js"] := by cbv
  obtain ⟨hsame, -⟩ := (resolve_agrees selfTied "l").1 _ hfolder
  obtain ⟨hresolve, hcollect, -⟩ := (resolve_agrees selfTied "y").2 _ hcircle
  exact ⟨⟨hfolder, hfiles, hsame.trans hfiles⟩, by cbv, hcircle, hresolve, hcollect⟩

end InkLint
