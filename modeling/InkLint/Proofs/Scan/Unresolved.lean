import InkLint.Output.Document
import InkLint.Proofs.Scan.Log
import InkLint.Proofs.Walk.Faults

/-!
# Targets that cannot be resolved

A scan resolves its target completely before it says a word to its reporter. So if the target cannot
be accessed, or if there is a fault anywhere below it, be it behind any number of files that could
be scanned, the reporter is left as it was. Whatever is done with it before and afterwards, the
answers are those that it would have given without that scan (`unresolved_untouched`).
-/

namespace InkLint

/-! ## Sessions and their answers -/

/-- What comes back from a use of a reporter. -/
inductive Answer where
  | call (answer : Except LintError Unit)
  | scan (answer : Logged Summary)

namespace Reporter

variable {σ : Type} (r : Reporter σ)

/-- The answer to one use. -/
def answer : Use → σ → Answer
  | .call c, state => .call (r.handle c state).1
  | .scan v target, state => .scan (InkLint.scan v r target state).1

/-- The answers to uses one after another, whether they fail or not. -/
def answers : List Use → σ → List Answer
  | [], _ => []
  | u :: uses, state => r.answer u state :: answers uses (r.use u state)

theorem session_append (before later : List Use) (start : σ) :
    r.session (before ++ later) start = r.session later (r.session before start) :=
  List.foldl_append

theorem session_cons (u : Use) (later : List Use) (start : σ) :
    r.session (u :: later) start = r.session later (r.use u start) :=
  rfl

theorem answers_append (before later : List Use) (start : σ) :
    r.answers (before ++ later) start =
      r.answers before start ++ r.answers later (r.session before start) := by
  induction before generalizing start with
  | nil => rfl
  | cons u before ih =>
    rw [List.cons_append, answers, answers, ih, session_cons, List.cons_append]

end Reporter

/-! ## Failing to resolve -/

variable {v : Volume} {target : Path} {loc : Loc}

namespace Volume

/-- The walk of a folder fails if there is a fault anywhere below it. -/
theorem exists_collect_error_iff (hv : v.WellFormed) (hlocate : v.locate target = .ok loc)
    (hfolder : v.hasFolder loc = true) :
    (∃ fault, v.collect target = .error fault) ↔
      ∃ position fault, v.Reachable target position ∧ v.Faulty target position fault := by
  obtain ⟨dir, ha, rfl, rfl, hcollect⟩ := collect_folder hlocate hfolder
  rw [hcollect]
  constructor
  · rintro ⟨fault, hwalk⟩
    obtain ⟨position, hsees⟩ := sees_of_walk_error hv hwalk
    exact ⟨position, fault, (sees_error_iff hv ha).1 hsees⟩
  · rintro ⟨position, fault, hfaulty⟩
    have hsees := (sees_error_iff hv ha).2 hfaulty
    cases hwalk : v.walk [] dir (v.names dir.loc) with
    | error first => exact ⟨first, rfl⟩
    | ok files => exact absurd hsees (not_sees_error hv hwalk position fault)

end Volume

/-- A target cannot be resolved if it cannot be accessed, or if it is a folder with a fault anywhere
below it. -/
theorem exists_resolve_error_iff (hv : v.WellFormed) :
    (∃ error, (resolve v target).result = .error error) ↔
      (∃ fault, v.locate target = .error fault) ∨
        ∃ loc position fault, v.locate target = .ok loc ∧ v.hasFolder loc = true ∧
          v.Reachable target position ∧ v.Faulty target position fault := by
  rw [resolve_result]
  cases hlocate : v.locate target with
  | error fault => simp
  | ok loc =>
    cases hfolder : v.hasFolder loc with
    | false => simp [hfolder]
    | true =>
      have hcollect := Volume.exists_collect_error_iff hv hlocate hfolder
      have hmap : (∃ error, (v.collect target).mapError LintError.walk = .error error) ↔
          ∃ fault, v.collect target = .error fault := by
        cases v.collect target <;> simp [Except.mapError]
      simp [hfolder, hmap, hcollect]

theorem scan_unresolved {σ : Type} (r : Reporter σ) {error : LintError}
    (h : (resolve v target).result = .error error) (state : σ) :
    scan v r target state = ({ result := .error error }, state) := by
  simp only [scan, h, events_unresolved h]

/-- **A target that cannot be resolved leaves no trace.** Resolving fails if the target cannot be
accessed, or if there is a fault anywhere below it. Then a scan ends with the same error and logs
nothing, its reporter hears of nothing and stays as it was. In a session the scan might as well be
left out: the answers before and after it are the same without it, and so is the state at the
end. -/
theorem unresolved_untouched {σ : Type} (v : Volume) (r : Reporter σ) (target : Path) :
    (v.WellFormed →
      ((∃ error, (resolve v target).result = .error error) ↔
        (∃ fault, v.locate target = .error fault) ∨
          ∃ loc position fault, v.locate target = .ok loc ∧ v.hasFolder loc = true ∧
            v.Reachable target position ∧ v.Faulty target position fault)) ∧
    ∀ error, (resolve v target).result = .error error →
      (∀ state, scan v r target state = ({ result := .error error }, state)) ∧
      (∀ state heard, (scan v r.recorded target (state, heard)).2 = (state, heard)) ∧
      ∀ before later start,
        r.session (before ++ .scan v target :: later) start = r.session (before ++ later) start ∧
        ∃ earlier further,
          r.answers before start = earlier ∧
          r.answers (before ++ later) start = earlier ++ further ∧
          r.answers (before ++ .scan v target :: later) start =
            earlier ++ .scan { result := .error error } :: further := by
  refine ⟨exists_resolve_error_iff, fun error herror => ?_⟩
  have hscan := scan_unresolved r herror
  refine ⟨hscan, fun state heard => ?_, fun before later start => ?_⟩
  · rw [scan_unresolved r.recorded herror]
  · have huse (state : σ) : r.use (.scan v target) state = state :=
      congrArg Prod.snd (hscan state)
    refine ⟨?_, r.answers before start, r.answers later (r.session before start), rfl,
      r.answers_append before later start, ?_⟩
    · rw [r.session_append, r.session_append, r.session_cons, huse]
    · rw [r.answers_append, Reporter.answers, Reporter.answer, hscan, huse]

/-- The folder `d` holds the script `a.js` and, after it, the link `z` that leads nowhere. -/
def severed : Volume :=
  { root := .folder [("d", .folder [("a.js", .file (.ok "fetch(")), ("z", .link "x")])]
    limits := .linux }

/-- A JSON reporter that has been used before. -/
def usedBefore : Document :=
  { sink := { content := "1\n" }
    target := "b"
    files := [⟨"b.js", .script, ["first"]⟩] }

theorem unresolved_untouched_severed :
    severed.WellFormed ∧
    (resolve severed "d").result = .error (.walk (.access "d/z" (.os .noSuchFile))) ∧
    (∃ loc position fault, severed.locate "d" = .ok loc ∧ severed.hasFolder loc = true ∧
      severed.Reachable "d" position ∧ severed.Faulty "d" position fault) ∧
    scan severed Document.reporter "d" usedBefore =
      ({ result := .error (.walk (.access "d/z" (.os .noSuchFile))) }, usedBefore) ∧
    Document.reporter.session [.scan severed "d", .call (.finish {})] usedBefore =
      Document.reporter.session [.call (.finish {})] usedBefore := by
  have hv : severed.WellFormed := by decide
  have hlocate : severed.locate "d" = .ok ["d"] := by cbv
  have hresolve : (resolve severed "d").result =
      .error (.walk (.access "d/z" (.os .noSuchFile))) := by cbv
  obtain ⟨hiff, huntouched⟩ := unresolved_untouched severed Document.reporter "d"
  obtain ⟨hscan, -, hsession⟩ := huntouched _ hresolve
  have hfaulty := ((hiff hv).1 ⟨_, hresolve⟩).resolve_left (by simp [hlocate])
  exact ⟨hv, hresolve, hfaulty, hscan usedBefore, (hsession [] _ usedBefore).1⟩

end InkLint
