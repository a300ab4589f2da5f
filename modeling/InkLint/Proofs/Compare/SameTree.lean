import InkLint.Proofs.Walk.Entry
import InkLint.Proofs.Scan.Calls

/-!
# Two volumes with one tree

Two volumes hold the same tree if the same stands at every location of both. Nothing is said about
the order in which a folder lists its entries. `Volume.SameTree` leaves open how the contents of
files are compared, because finding files never looks into one: lookups (`SameTree.arrive_eq`),
walks (`SameTree.collect_eq`) and resolved targets (`SameTree.resolve_eq`) are the same whatever the
files hold. Only reading a file needs its content to be the same (`SameTree.read_eq`).

A scan of one volume is a scan of the other as soon as the target resolves to the same files and
each of them is linted alike (`scan_congr`).
-/

namespace InkLint

/-- What stands at two places is the same, as far as it shows without opening a folder. The contents
of files are compared by `same`. -/
def Node.Agrees (same : Content → Content → Prop) : Node → Node → Prop
  | .file a, .file b => same a b
  | .link a, .link b => a = b
  | .folder _, .folder _ => True
  | _, _ => False

instance (same : Content → Content → Prop) [DecidableRel same] :
    (m n : Node) → Decidable (m.Agrees same n)
  | .file a, .file b => inferInstanceAs (Decidable (same a b))
  | .link a, .link b => inferInstanceAs (Decidable (a = b))
  | .folder _, .folder _ => .isTrue trivial
  | .file _, .link _ | .file _, .folder _ | .link _, .file _ | .link _, .folder _
  | .folder _, .file _ | .folder _, .link _ => .isFalse id

namespace Volume

/-- Both volumes hold the same folders, the same links and the same files, whose contents compare as
`same` says. A folder may list its entries in two different orders. -/
structure SameTree (same : Content → Content → Prop) (v w : Volume) : Prop where
  home : w.home = v.home
  limits : w.limits = v.limits
  nodes : ∀ loc, Option.Rel (Node.Agrees same) (v.node? loc) (w.node? loc)

variable {same : Content → Content → Prop} {v w : Volume}

/-- It is enough to compare what stands at the places of either tree. -/
theorem sameTree_of_places (home : w.home = v.home) (limits : w.limits = v.limits)
    (hv : ∀ place ∈ v.root.places, ∃ node ∈ w.node? place.1, place.2.Agrees same node)
    (hw : ∀ place ∈ w.root.places, (v.node? place.1).isSome) : v.SameTree same w := by
  refine ⟨home, limits, fun loc => ?_⟩
  cases hnode : v.node? loc with
  | some node =>
    obtain ⟨other, hother, hagrees⟩ := hv (loc, node) (Node.mem_places_of_get? hnode)
    rw [Option.mem_def.1 hother]
    exact .some hagrees
  | none =>
    cases hother : w.node? loc with
    | none => exact .none
    | some other =>
      have hsome := hw (loc, other) (Node.mem_places_of_get? hother)
      simp [hnode] at hsome

namespace SameTree

variable (h : v.SameTree same w)
include h

/-! ## What stands at a location -/

/-- At a location both volumes have nothing, a file, the same link or a folder. -/
theorem node_cases (loc : Loc) :
    (v.node? loc = none ∧ w.node? loc = none) ∨
    (∃ a b, v.node? loc = some (.file a) ∧ w.node? loc = some (.file b) ∧ same a b) ∨
    (∃ text, v.node? loc = some (.link text) ∧ w.node? loc = some (.link text)) ∨
    ∃ es fs, v.node? loc = some (.folder es) ∧ w.node? loc = some (.folder fs) := by
  have hnodes := h.nodes loc
  cases hv : v.node? loc with
  | none =>
    rw [hv] at hnodes
    cases hw : w.node? loc with
    | none => exact .inl ⟨rfl, rfl⟩
    | some n => rw [hw] at hnodes; cases hnodes
  | some m =>
    rw [hv] at hnodes
    cases hw : w.node? loc with
    | none => rw [hw] at hnodes; cases hnodes
    | some n =>
      rw [hw] at hnodes
      cases hnodes with
      | some hagrees =>
        cases m <;> cases n <;> simp_all [Node.Agrees]

theorem isSome_eq (loc : Loc) : (w.node? loc).isSome = (v.node? loc).isSome := by
  rcases h.node_cases loc with ⟨hv, hw⟩ | ⟨a, b, hv, hw, -⟩ | ⟨text, hv, hw⟩ | ⟨es, fs, hv, hw⟩ <;>
    simp [hv, hw]

theorem hasFolder_eq (loc : Loc) : w.hasFolder loc = v.hasFolder loc := by
  rcases h.node_cases loc with ⟨hv, hw⟩ | ⟨a, b, hv, hw, -⟩ | ⟨text, hv, hw⟩ | ⟨es, fs, hv, hw⟩ <;>
    simp [hasFolder, hv, hw, Node.isFolder]

theorem hasFile_eq (loc : Loc) : w.hasFile loc = v.hasFile loc := by
  rcases h.node_cases loc with ⟨hv, hw⟩ | ⟨a, b, hv, hw, -⟩ | ⟨text, hv, hw⟩ | ⟨es, fs, hv, hw⟩ <;>
    simp [hasFile, hv, hw, Node.isFile]

theorem hasLink_eq (loc : Loc) : w.hasLink loc = v.hasLink loc := by
  rcases h.node_cases loc with ⟨hv, hw⟩ | ⟨a, b, hv, hw, -⟩ | ⟨text, hv, hw⟩ | ⟨es, fs, hv, hw⟩ <;>
    simp [hasLink, hv, hw, Node.isLink]

theorem node?_link {loc : Loc} {text : Path} (hv : v.node? loc = some (.link text)) :
    w.node? loc = some (.link text) := by
  rcases h.node_cases loc with ⟨hv', -⟩ | ⟨a, b, hv', -⟩ | ⟨text', hv', hw⟩ | ⟨es, fs, hv', -⟩ <;>
    rw [hv] at hv' <;> cases hv'
  exact hw

theorem same_content {loc : Loc} {a b : Content} (hv : v.node? loc = some (.file a))
    (hw : w.node? loc = some (.file b)) : same a b := by
  rcases h.node_cases loc with ⟨hv', -⟩ | ⟨a', b', hv', hw', hsame⟩ | ⟨text, hv', -⟩ |
    ⟨es, fs, hv', -⟩ <;> rw [hv] at hv' <;> cases hv'
  rw [hw] at hw'
  cases hw'
  exact hsame

/-- In whatever order a folder lists its names, the walk takes them in one order. -/
theorem names_eq (hv : v.WellFormed) (hw : w.WellFormed) (loc : Loc) :
    w.names loc = v.names loc := by
  refine (hw.names_lt loc).eq_of_mem_iff (hv.names_lt loc) fun name => ?_
  cases hfolder : v.hasFolder loc with
  | true =>
    rw [mem_names_iff hfolder, mem_names_iff (h.hasFolder_eq loc ▸ hfolder), h.isSome_eq]
  | false =>
    constructor <;> intro hmem
    · have hfolder' := hasFolder_of_mem_names hmem
      rw [h.hasFolder_eq, hfolder] at hfolder'
      cases hfolder'
    · have hfolder' := hasFolder_of_mem_names hmem
      rw [hfolder] at hfolder'
      cases hfolder'

/-! ## Lookups -/

theorem step_eq (loc : Loc) (piece : Name) : w.step loc piece = v.step loc piece := by
  rcases h.node_cases loc with ⟨hv, hw⟩ | ⟨a, b, hv, hw, -⟩ | ⟨text, hv, hw⟩ | ⟨es, fs, hv, hw⟩
  · simp [step, hv, hw]
  · simp [step, hv, hw]
  · simp [step, hv, hw]
  · have hentry := h.isSome_eq (loc ++ [piece])
    rw [node?_concat hv, node?_concat hw] at hentry
    simp only [step, hv, hw]
    rw [hentry]

theorem follow_eq (busy : List Loc) (here : Arrival) (pieces : List Name) :
    w.follow busy here pieces = v.follow busy here pieces := by
  induction busy, here, pieces using follow.induct v with
  | case1 busy here => rw [follow_nil, follow_nil]
  | case2 busy here piece rest fault hstep =>
    rw [follow_fault hstep, follow_fault ((h.step_eq _ _).trans hstep)]
  | case3 busy here piece rest next hstep text hlink hbusy =>
    rw [follow_link hstep hlink, follow_link ((h.step_eq _ _).trans hstep) (h.node?_link hlink),
      h.limits, if_pos hbusy, if_pos hbusy]
  | case4 busy here piece rest next hstep text hlink hbusy fault hfault ih =>
    rw [follow_link hstep hlink, follow_link ((h.step_eq _ _).trans hstep) (h.node?_link hlink),
      h.limits, if_neg hbusy, if_neg hbusy, ih, hfault]
  | case5 busy here piece rest next hstep text hlink hbusy mid hmid ihtext ihrest =>
    rw [follow_link hstep hlink, follow_link ((h.step_eq _ _).trans hstep) (h.node?_link hlink),
      h.limits, if_neg hbusy, if_neg hbusy, ihtext, hmid]
    exact ihrest
  | case6 busy here piece rest next hstep hlink ih =>
    have hnot : v.hasLink next = false := hasLink_eq_false_iff.2 hlink
    rw [follow_piece hstep hnot,
      follow_piece ((h.step_eq _ _).trans hstep) ((h.hasLink_eq next).trans hnot), ih]

/-- A path leads to the same place, or nowhere for the same reason. -/
theorem arrive_eq (p : Path) : w.arrive p = v.arrive p := by
  simp only [arrive, refusal?, h.limits, h.home, h.follow_eq]

theorem locate_eq (p : Path) : w.locate p = v.locate p := by
  rw [locate, locate, h.arrive_eq]

/-! ## Walks -/

theorem enter_eq (dir : OpenFolder) (name : Name) : w.enter dir name = v.enter dir name := by
  simp only [enter, h.limits, h.hasFile_eq, h.follow_eq]

theorem look_eq (outer : List OpenFolder) (dir : OpenFolder) (name : Name) :
    w.look outer dir name = v.look outer dir name := by
  simp only [look, h.enter_eq, h.hasFolder_eq]

theorem walk_eq (hv : v.WellFormed) (hw : w.WellFormed) (outer : List OpenFolder)
    (dir : OpenFolder) (names : List Name) : w.walk outer dir names = v.walk outer dir names := by
  induction outer, dir using walk_induction v generalizing names with
  | step outer dir ih =>
    induction names with
    | nil => rw [walk_nil, walk_nil]
    | cons name names ihnames =>
      have hvisit : w.visit outer dir name = v.visit outer dir name := by
        unfold visit
        rw [h.look_eq]
        cases hlook : v.look outer dir name with
        | error fault => rfl
        | ok opened =>
          cases opened with
          | none => rfl
          | some sub =>
            simp only [h.names_eq hv hw]
            exact ih name sub hlook _
      rw [walk_cons, walk_cons, hvisit, ihnames]

theorem collect_eq (hv : v.WellFormed) (hw : w.WellFormed) (root : Path) :
    w.collect root = v.collect root := by
  simp only [collect_eq_arrive, h.arrive_eq, h.hasFolder_eq, h.names_eq hv hw, h.walk_eq hv hw]

theorem collectFiles_eq (hv : v.WellFormed) (hw : w.WellFormed) (root : Path) :
    collectFiles w root = collectFiles v root := by
  simp only [collectFiles, h.collect_eq hv hw]

theorem resolve_eq (hv : v.WellFormed) (hw : w.WellFormed) (target : Path) :
    resolve w target = resolve v target := by
  simp only [resolve, h.locate_eq, h.hasFolder_eq, h.collectFiles_eq hv hw]

/-! ## Reading -/

/-- What is read at a path is the same if it is the same at the place where the path leads. -/
theorem read_eq {p : Path}
    (hsame : ∀ loc a b, v.locate p = .ok loc → v.node? loc = some (.file a) →
      w.node? loc = some (.file b) → a = b) : w.read p = v.read p := by
  unfold read
  rw [h.locate_eq]
  cases hloc : v.locate p with
  | error fault => rfl
  | ok loc =>
    rcases h.node_cases loc with ⟨hv, hw⟩ | ⟨a, b, hv, hw, -⟩ | ⟨text, hv, hw⟩ | ⟨es, fs, hv, hw⟩
    · simp [hv, hw]
    · simp [hv, hw, hsame loc a b hloc hv hw]
    · simp [hv, hw]
    · simp [hv, hw]

end SameTree

end Volume

/-! ## Scans of two volumes -/

variable {v w : Volume} {σ : Type} (r : Reporter σ)

theorem lintFile_congr {p : Path} (h : p.isSupported = true → w.read p = v.read p) :
    lintFile w p = lintFile v p := by
  unfold lintFile lintFileWith
  cases hp : (Category.ofPath p).isSupported with
  | false => simp only [hp, Bool.false_eq_true, if_false]
  | true => simp only [hp, if_true, h hp]

theorem scanFiles_congr {files : List Path} (h : ∀ p ∈ files, lintFile w p = lintFile v p)
    (summary : Summary) (state : σ) :
    scanFiles w r files summary state = scanFiles v r files summary state := by
  induction files generalizing summary state with
  | nil => rfl
  | cons p rest ih =>
    have hrest := ih fun q hq => h q (List.mem_cons_of_mem _ hq)
    have hp := h p (by simp)
    simp only [scanFiles, lintFile] at hp hrest ⊢
    simp only [scanFilesWith, hp, hrest]

/-- Two volumes are scanned alike if the target resolves to the same files and each of them is
linted alike. -/
theorem scan_congr {target : Path} (hresolve : resolve w target = resolve v target)
    (h : ∀ files, (resolve v target).result = .ok files → ∀ p ∈ files, lintFile w p = lintFile v p)
    (state : σ) : scan w r target state = scan v r target state := by
  unfold scan
  rw [hresolve]
  cases hfiles : (resolve v target).result with
  | error error => simp only [hfiles]
  | ok files =>
    have hscan := scanFiles_congr r (h files hfiles)
    simp only [scanFiles] at hscan
    simp only [hfiles, scanResolved, scanResolvedWith, hscan]

end InkLint
