import InkLint.Output.Console
import InkLint.Output.Document
import InkLint.Proofs.Scan.Calls
import InkLint.Proofs.Walk.Listed

/-!
# Reading what was found

A scan resolves its target first and reads the files afterwards, each by its path. Between the two
lies only the text of the paths, so the reading could fail although the walk went well. It does so
for two causes and no other: the path is too long to be looked up, or the system withholds the file
(`read_error_iff`). A scan then ends at the first such file (`scan_error`).
-/

namespace InkLint

variable {v : Volume} {target p : Path} {files : List Path}

/-- Of the resolved files just those that are withheld or have too long a path cannot be read. -/
theorem read_error_iff (hv : v.WellFormed) (h : (resolve v target).result = .ok files)
    (hp : p ∈ files) {fault : Fault} :
    v.read p = .error fault ↔ ∃ cause, v.Unreadable p cause ∧ fault = .os cause := by
  obtain ⟨loc, hmeets⟩ := resolve_meets hv h hp
  exact hmeets.read_error_iff hv

theorem readable_iff (hv : v.WellFormed) (h : (resolve v target).result = .ok files)
    (hp : p ∈ files) : (∃ content, v.read p = .ok content) ↔ ∀ cause, ¬v.Unreadable p cause := by
  have herror {fault : Fault} : v.read p = .error fault ↔ _ := read_error_iff hv h hp
  cases hread : v.read p with
  | ok content =>
    refine iff_of_true ⟨content, rfl⟩ fun cause hcause => ?_
    rw [herror.2 ⟨cause, hcause, rfl⟩] at hread
    cases hread
  | error fault =>
    obtain ⟨cause, hcause, -⟩ := herror.1 hread
    refine iff_of_false ?_ fun hnone => hnone cause hcause
    rintro ⟨content, ⟨⟩⟩

/-- Without a limit to the length of paths, a file that cannot be read is withheld. -/
theorem Volume.unreadable_iff_withholds (hlimit : v.limits.pathBytes = none) {cause : OsError} :
    v.Unreadable p cause ↔ v.Withholds p cause := by
  constructor
  · rintro (hlong | hwithheld)
    · simp [Limits.refuses, hlimit] at hlong
    · exact hwithheld
  · exact .withheld

/-- Either every supported file can be read, or there is a first one that cannot. -/
theorem first_unreadable (v : Volume) (files : List Path) :
    (∀ p ∈ files, p.isSupported = true → ∃ content, v.read p = .ok content) ∨
      ∃ before p after fault, files = before ++ p :: after ∧ p.isSupported = true ∧
        v.read p = .error fault ∧
        ∀ q ∈ before, q.isSupported = true → ∃ content, v.read q = .ok content := by
  have hreadable {q : Path} (hsupported : q.isSupported = true)
      (h : (q.isSupported && !(v.read q).isOk) = false) : ∃ content, v.read q = .ok content := by
    cases hread : v.read q with
    | ok content => exact ⟨content, rfl⟩
    | error fault => simp [hsupported, hread, Except.isOk, Except.toBool] at h
  cases hfind : files.find? fun p => p.isSupported && !(v.read p).isOk with
  | none =>
    exact .inl fun p hp hsupported =>
      hreadable hsupported (Bool.eq_false_iff.2 (List.find?_eq_none.1 hfind p hp))
  | some p =>
    obtain ⟨hp, before, after, rfl, hbefore⟩ := List.find?_eq_some_iff_append.1 hfind
    rw [Bool.and_eq_true] at hp
    cases hread : v.read p with
    | ok content => simp [hread, Except.isOk, Except.toBool] at hp
    | error fault =>
      refine .inr ⟨before, p, after, fault, rfl, hp.1, hread, fun q hq hsupported => ?_⟩
      exact hreadable hsupported (by simpa only [Bool.not_eq_true'] using hbefore q hq)

/-! ## How a scan can fail -/

/-- Linting a resolved file fails exactly if it is supported and cannot be read. -/
theorem lintFile_unreadable_iff (hv : v.WellFormed) (h : (resolve v target).result = .ok files)
    (hp : p ∈ files) {error : LintError} :
    (lintFile v p).result = .error error ↔
      p.isSupported = true ∧ ∃ cause, v.Unreadable p cause ∧ error = .read p (.os cause) := by
  simp only [lintFile_error_iff, read_error_iff hv h hp]
  refine and_congr_right fun _ => ⟨?_, ?_⟩
  · rintro ⟨_, ⟨cause, hcause, rfl⟩, rfl⟩
    exact ⟨cause, hcause, rfl⟩
  · rintro ⟨cause, hcause, rfl⟩
    exact ⟨_, ⟨cause, hcause, rfl⟩, rfl⟩

/-- The reporter fails only where its output does. -/
def Reporter.FailsInOutput {σ : Type} (r : Reporter σ) : Prop :=
  ∀ call state error, (r.handle call state).1 = .error error →
    (∃ cause, error = .output cause) ∨ ∃ cause, error = .document cause

theorem Console.failsInOutput (colored : Bool) : (Console.reporter colored).FailsInOutput := by
  intro call sink error h
  refine .inl ?_
  simp only [Console.reporter] at h
  cases hwrite : sink.writeAll ((Console.lines colored call).map Utf8.encode) with
  | mk answer written =>
    rw [hwrite] at h
    cases answer with
    | error fault =>
      cases h
      exact ⟨fault, rfl⟩
    | ok _ =>
      cases hflush : written.flush with
      | error fault =>
        cases hcall : Console.flushes call with
        | false => simp [hcall] at h
        | true =>
          simp only [hcall, hflush, if_true] at h
          cases h
          exact ⟨fault, rfl⟩
      | ok _ => cases hcall : Console.flushes call <;> simp [hcall, hflush] at h

theorem Document.failsInOutput : Document.reporter.FailsInOutput := by
  intro call doc error h
  cases call with
  | begin target => cases h
  | file report => cases h
  | finish summary =>
    simp only [Document.reporter, Document.write] at h
    split at h
    · cases h
      exact .inr ⟨_, rfl⟩
    · split at h
      · split at h
        · cases h
          exact .inl ⟨_, rfl⟩
        · cases h
      · cases h
        exact .inr ⟨_, rfl⟩

/-- A scan fails as resolving does, as its reporter does, or at the first supported file that cannot
be read. -/
theorem scan_error {σ : Type} {r : Reporter σ} {state : σ} {error : LintError}
    (h : (scan v r target state).1.result = .error error) :
    (resolve v target).result = .error error ∨
      (∃ call s, (r.handle call s).1 = .error error) ∨
      ∃ before p after fault, (resolve v target).result = .ok (before ++ p :: after) ∧
        p.isSupported = true ∧ v.read p = .error fault ∧
        (∀ q ∈ before, q.isSupported = true → ∃ content, v.read q = .ok content) ∧
        error = .read p fault := by
  cases hresolve : (resolve v target).result with
  | error cause =>
    have hscan := congrArg Prod.fst (scan_of_error r state hresolve)
    simp only [outcome, h, Except.error.injEq] at hscan
    rw [hscan]
    exact .inl rfl
  | ok files =>
    refine .inr ?_
    have hscan := congrArg Prod.fst (scan_of_files r state hresolve)
    cases hplay : r.play (scanCalls v target files) state with
    | mk answer last =>
      rw [hplay] at hscan
      cases answer with
      | error own =>
        simp only [outcome, afterCalls, h, Except.error.injEq] at hscan
        rw [hscan]
        exact .inl (r.handle_of_play_error hplay)
      | ok _ =>
        refine .inr ?_
        rcases first_unreadable v files with
          hreadable | ⟨before, p, after, fault, rfl, hp, hread, hbefore⟩
        · rw [(lintAll_readable hreadable).1] at hscan
          simp [outcome, afterCalls, Except.map, h] at hscan
        · rw [(lintAll_unreadable after hbefore hp hread).1] at hscan
          simp only [outcome, afterCalls, Except.map, h, Except.error.injEq] at hscan
          exact ⟨before, p, after, fault, rfl, hp, hread, hbefore, hscan⟩

/-- **What was found can be read, unless it is withheld.** Where paths may have any length, looking
up a resolved path from its text leads to a file, the very one that was met under this path when the
target was resolved. So linting it fails only if it has a supported extension and the system
withholds the file, and then with the system's cause. A scan fails if its target cannot be accessed,
the walk or its reporter fails, and otherwise at the first supported file that is withheld. The
reporters there are fail only where the report cannot be written. -/
theorem resolved_reread (v : Volume) (hv : v.WellFormed) (hlimit : v.limits.pathBytes = none)
    (target : Path) :
    (∀ files, (resolve v target).result = .ok files → ∀ p ∈ files,
      (∃ loc, v.Meets target p loc) ∧
      (∀ loc, v.Meets target p loc → v.locate p = .ok loc ∧
        ∃ content, v.node? loc = some (.file content) ∧ v.read p = content.mapError .os) ∧
      ∀ error, (lintFile v p).result = .error error ↔
        p.isSupported = true ∧ ∃ cause, v.Withholds p cause ∧ error = .read p (.os cause)) ∧
    (∀ (σ : Type) (r : Reporter σ) state error, (scan v r target state).1.result = .error error →
      (∃ cause, error = .target target cause) ∨ (∃ fault, error = .walk fault) ∨
        ((∃ call s, (r.handle call s).1 = .error error) ∧
          (r.FailsInOutput → (∃ cause, error = .output cause) ∨ ∃ cause, error = .document cause)) ∨
        ∃ before p after cause, (resolve v target).result = .ok (before ++ p :: after) ∧
          p.isSupported = true ∧ v.Withholds p cause ∧
          (∀ q ∈ before, q.isSupported = true → ∀ cause, ¬v.Withholds q cause) ∧
          error = .read p (.os cause)) ∧
    (∀ colored, (Console.reporter colored).FailsInOutput) ∧ Document.reporter.FailsInOutput := by
  refine ⟨?_, ?_, Console.failsInOutput, Document.failsInOutput⟩
  · intro files hfiles p hp
    refine ⟨resolve_meets hv hfiles hp, ?_, ?_⟩
    · intro loc hmeets
      have hshort : v.limits.refuses p = false := by simp [Limits.refuses, hlimit]
      obtain ⟨content, hnode, hread⟩ := hmeets.read hv
      have hlocate := hmeets.locate hv
      rw [hshort] at hread hlocate
      exact ⟨hlocate, content, hnode, hread⟩
    · intro error
      simp only [← Volume.unreadable_iff_withholds hlimit]
      exact lintFile_unreadable_iff hv hfiles hp
  · intro σ r state error h
    rcases scan_error h with hresolve | hreporter | hread
    · rcases resolve_error hresolve with htarget | hwalk
      · exact .inl htarget
      · exact .inr (.inl hwalk)
    · obtain ⟨call, s, hcall⟩ := hreporter
      exact .inr (.inr (.inl ⟨⟨call, s, hcall⟩, fun hr => hr call s error hcall⟩))
    · obtain ⟨before, p, after, fault, hresolve, hp, hread, hbefore, rfl⟩ := hread
      obtain ⟨cause, hcause, rfl⟩ := (read_error_iff hv hresolve (by simp)).1 hread
      simp only [← Volume.unreadable_iff_withholds hlimit]
      refine .inr (.inr (.inr ⟨before, p, after, cause, hresolve, hp, hcause, ?_, rfl⟩))
      intro q hq hsupported
      exact (readable_iff hv hresolve (List.mem_append_left _ hq)).1 (hbefore q hq hsupported)

/-- The folder `d` holds the link `x` to the file `a` in the folder `b` beside it, which also holds
a link `y` back to `x`. -/
def crosswise : Volume :=
  { root := .folder [("d", .folder [("x", .link "../b/a")]),
      ("b", .folder [("a", .file (.ok "1")), ("y", .link "../d/x")])] }

theorem resolved_reread_crosswise :
    crosswise.WellFormed ∧ crosswise.limits.pathBytes = none ∧
    (resolve crosswise "d/../b/").result = .ok ["d/../b/a", "d/../b/y"] ∧
    (∃ loc, crosswise.Meets "d/../b/" "d/../b/y" loc ∧
      crosswise.locate "d/../b/y" = .ok loc) ∧
    (Console.reporter false).FailsInOutput := by
  have hv : crosswise.WellFormed := by decide
  have hresolve : (resolve crosswise "d/../b/").result = .ok ["d/../b/a", "d/../b/y"] := by
    cbv
  obtain ⟨hfiles, -, hconsole, -⟩ := resolved_reread crosswise hv rfl "d/../b/"
  obtain ⟨⟨loc, hmeets⟩, hlocate, -⟩ := hfiles _ hresolve "d/../b/y" (by simp)
  exact ⟨hv, rfl, hresolve, ⟨loc, hmeets, (hlocate loc hmeets).1⟩, hconsole false⟩

/-- The home holds the folder `d` with the link `a.js` to a file of the system that is withheld. -/
def withholding : Volume :=
  { root := .folder [("home", .folder [("d", .folder [("a.js", .link "/proc/self/mem")])]),
      ("proc", .folder [("self", .folder [("mem", .file (.error .inputOutput))])])]
    home := ["home"] }

/-- A file can be met and not be read, although no path is too long. -/
theorem scan_withheld :
    withholding.WellFormed ∧ withholding.limits.pathBytes = none ∧
    (resolve withholding "d").result = .ok ["d/a.js"] ∧
    (lintFile withholding "d/a.js").result = .error (.read "d/a.js" (.os .inputOutput)) ∧
    (scan withholding (Console.reporter false) "d" {}).1.result =
      .error (.read "d/a.js" (.os .inputOutput)) := by
  have hv : withholding.WellFormed := by decide
  exact ⟨hv, rfl, by cbv, by cbv, by cbv⟩

end InkLint
