import InkLint.Proofs.Compare.SameTree
import InkLint.Proofs.Scan.Contract

/-!
# What a scan does not depend on

A scan depends neither on the order in which folders list their entries (`listing_order`), nor on
the content of a file that it does not read (`unread_contents`). Whether a file is read is decided
by the name under which it is found: a file that is found under two names, once with a supported
extension and once without, is read.
-/

namespace InkLint

variable {v w : Volume} {target p : Path} {files : List Path}

/-! ## The order of entries -/

/-- **The order of entries does not matter.** Two volumes that hold the same tree are walked to the
same files or to the same fault, and resolved and scanned alike, whatever the reporter: with the
same answer, the same output and the same log. -/
theorem listing_order (v w : Volume) (hv : v.WellFormed) (hw : w.WellFormed)
    (h : v.SameTree (· = ·) w) :
    (∀ root, w.collect root = v.collect root) ∧
    (∀ root, collectFiles w root = collectFiles v root) ∧
    (∀ target, resolve w target = resolve v target) ∧
    ∀ (σ : Type) (r : Reporter σ) (target : Path) (state : σ),
      scan w r target state = scan v r target state := by
  refine ⟨h.collect_eq hv hw, h.collectFiles_eq hv hw, h.resolve_eq hv hw, ?_⟩
  intro σ r target state
  refine scan_congr r (h.resolve_eq hv hw target)
    (fun files _ p _ => lintFile_congr fun _ => ?_) state
  exact h.read_eq fun loc a b _ ha hb => h.same_content ha hb

/-- In the folder `d` the links `z` and `a/b` lead nowhere, and `a/u` leads back to `d`. -/
def knotted : Volume :=
  { root := .folder [("d", .folder [("z", .link "x"),
      ("a", .folder [("u", .link ".."), ("b", .link "x")])])]
    limits := .linux }

/-- The same tree, listed in other orders. -/
def knottedAnew : Volume :=
  { root := .folder [("d", .folder [
      ("a", .folder [("b", .link "x"), ("u", .link "..")]), ("z", .link "x")])]
    limits := .linux }

/-- Of three faults the same one is found in either order. -/
theorem listing_order_knotted :
    knotted.WellFormed ∧ knottedAnew.WellFormed ∧ knotted.SameTree (· = ·) knottedAnew ∧
    knotted.names ["d", "a"] = knottedAnew.names ["d", "a"] ∧
    knottedAnew.collect "d" = .error (.access "d/a/b" (.os .noSuchFile)) ∧
    (scan knottedAnew silent "d" ()).1.result =
      .error (.walk (.access "d/a/b" (.os .noSuchFile))) := by
  have hv : knotted.WellFormed := by decide
  have hw : knottedAnew.WellFormed := by decide
  have h : knotted.SameTree (· = ·) knottedAnew :=
    Volume.sameTree_of_places rfl rfl (by decide) (by decide)
  have hcollect : knotted.collect "d" = .error (.access "d/a/b" (.os .noSuchFile)) := by cbv
  have hscan : (scan knotted silent "d" ()).1.result =
      .error (.walk (.access "d/a/b" (.os .noSuchFile))) := by cbv
  obtain ⟨hsame, -, -, hscans⟩ := listing_order knotted knottedAnew hv hw h
  refine ⟨hv, hw, h, by cbv, ?_, ?_⟩
  · rw [hsame, hcollect]
  · rw [hscans, hscan]

/-! ## The contents of files -/

/-- At a location both volumes have a file, and its content is not the same. -/
def Volume.Differs (v w : Volume) (loc : Loc) : Prop :=
  ∃ a b, v.node? loc = some (.file a) ∧ w.node? loc = some (.file b) ∧ a ≠ b

/-- A file that is found under a supported name is read, whatever it is called at its own place. -/
theorem mem_lintAll {loc : Loc} {content : Content} (hending : (lintAll v files).2 = .ok ())
    (hp : p ∈ files) (hsupported : p.isSupported = true) (hloc : v.locate p = .ok loc)
    (hnode : v.node? loc = some (.file content)) :
    ∃ bytes, content = .ok bytes ∧ .ofContent p bytes ∈ (lintAll v files).1 := by
  obtain ⟨bytes, hread⟩ := readable_of_lintAll hending p hp hsupported
  have hcontent : content = .ok bytes := by
    simp only [Volume.read, hloc, hnode] at hread
    cases content <;> cases hread
    rfl
  refine ⟨bytes, hcontent, ?_⟩
  rw [lintAll_eq_map hending, ← reportOn_of_read hread]
  exact List.mem_map_of_mem (List.mem_filter.2 ⟨hp, hsupported⟩)

/-- **Contents that are not read do not matter.** If two volumes hold the same tree up to the
contents of files, a target resolves to the same files in both. If none of these that has a
supported extension leads to a file whose contents differ, both are scanned alike, whatever the
reporter. But a file that is resolved under a supported name is linted, whatever its own name is. -/
theorem unread_contents (v w : Volume) (hv : v.WellFormed) (hw : w.WellFormed)
    (h : v.SameTree (fun _ _ => True) w) (target : Path) :
    resolve w target = resolve v target ∧
    ((∀ files, (resolve v target).result = .ok files → ∀ p ∈ files, p.isSupported = true →
        ∀ loc, v.locate p = .ok loc → ¬v.Differs w loc) →
      ∀ (σ : Type) (r : Reporter σ) (state : σ),
        scan w r target state = scan v r target state) ∧
    ∀ files, (resolve v target).result = .ok files → ∀ p ∈ files, p.isSupported = true →
      ∀ loc content, v.locate p = .ok loc → v.node? loc = some (.file content) →
        ∀ (σ : Type) (r : Reporter σ), r.Unfailing → ∀ state summary,
          (scan v r target state).1.result = .ok summary →
          ∃ bytes, content = .ok bytes ∧
            .file (.ofContent p bytes) ∈ (scan v r.recorded target (state, [])).2.2 := by
  refine ⟨h.resolve_eq hv hw target, ?_, ?_⟩
  · intro hsame σ r state
    refine scan_congr r (h.resolve_eq hv hw target) (fun files hfiles p hp => ?_) state
    refine lintFile_congr fun hsupported => h.read_eq fun loc a b hloc ha hb => ?_
    by_contra hne
    exact hsame files hfiles p hp hsupported loc hloc ⟨a, b, ha, hb, hne⟩
  · intro files hfiles p hp hsupported loc content hloc hnode σ r hr state summary hscan
    obtain ⟨files', hfiles', hending, -⟩ := (scan_ok_iff hr state summary).1 hscan
    rw [hfiles] at hfiles'
    cases hfiles'
    obtain ⟨bytes, hcontent, hmem⟩ := mem_lintAll hending hp hsupported hloc hnode
    refine ⟨bytes, hcontent, ?_⟩
    rw [scan_recorded hr state hfiles, scanCalls, hending]
    exact List.mem_append_left _ (List.mem_cons_of_mem _ (List.mem_map_of_mem hmem))

/-- The folder `d` holds the files `m.md` and `n.txt` with the given contents, and the link `x.js`
to `n.txt`. -/
def noted (m n : Bytes) : Volume :=
  { root := .folder [("d", .folder [("x.js", .link "n.txt"),
      ("m.md", .file (.ok m)), ("n.txt", .file (.ok n))])]
    limits := .linux }

theorem resolve_noted (m n : Bytes) :
    (resolve (noted m n) "d").result = .ok ["d/m.md", "d/n.txt", "d/x.js"] := by
  cbv

theorem locate_noted (m n : Bytes) : (noted m n).locate "d/x.js" = .ok ["d", "n.txt"] := by
  cbv

/-- Only `n.txt` is read, and as a script. -/
theorem scan_noted (m n : Bytes) :
    (scan (noted m n) silent "d" ()).1.result =
      .ok (.ofReports 3 [.ofContent "d/x.js" n]) := by
  have hread : (noted m n).read "d/x.js" = .ok n := by
    rw [Volume.read, locate_noted]
    rfl
  have hlint : lintAll (noted m n) ["d/m.md", "d/n.txt", "d/x.js"] =
      ([.ofContent "d/x.js" n], .ok ()) := by
    rw [lintAll_skip (by decide), lintAll_skip (by decide), lintAll_report (by decide) hread]
    rfl
  refine (scan_ok_iff (fun _ _ => rfl) () _).2 ⟨_, resolve_noted m n, by rw [hlint], ?_⟩
  rw [scanSummary, hlint]
  rfl

/-- The content of `m.md` does not matter, but that of `n.txt` is read through the link. -/
theorem unread_contents_noted :
    (noted "x" "fetch(").SameTree (fun _ _ => True) (noted [] "fetch(") ∧
    scan (noted [] "fetch(") silent "d" () = scan (noted "x" "fetch(") silent "d" () ∧
    .file (.ofContent "d/x.js" "fetch(") ∈
      (scan (noted "x" "fetch(") silent.recorded "d" ((), [])).2.2 ∧
    (scan (noted "x" []) silent "d" ()).1.result ≠
      (scan (noted "x" "fetch(") silent "d" ()).1.result := by
  have hv : (noted "x" "fetch(").WellFormed := by decide
  have hw : (noted [] "fetch(").WellFormed := by decide
  have h : (noted "x" "fetch(").SameTree (fun _ _ => True) (noted [] "fetch(") :=
    Volume.sameTree_of_places rfl rfl (by decide) (by decide)
  obtain ⟨-, halike, hread⟩ := unread_contents _ _ hv hw h "d"
  refine ⟨h, halike ?_ Unit silent (), ?_, ?_⟩
  · intro files hfiles p hp hsupported loc hloc
    rw [resolve_noted] at hfiles
    cases hfiles
    have honly : ∀ q ∈ (["d/m.md", "d/n.txt", "d/x.js"] : List Path),
        q.isSupported = true → q = "d/x.js" := by decide
    obtain rfl := honly p hp hsupported
    rw [locate_noted] at hloc
    cases hloc
    rintro ⟨a, b, ha, hb, hne⟩
    cases ha
    cases hb
    exact hne rfl
  · obtain ⟨bytes, hbytes, hmem⟩ := hread _ (resolve_noted _ _) _ (by simp) (by decide) _ _
      (locate_noted _ _) rfl Unit silent (fun _ _ => rfl) () _ (scan_noted _ _)
    cases hbytes
    exact hmem
  · rw [scan_noted, scan_noted]
    decide

end InkLint
