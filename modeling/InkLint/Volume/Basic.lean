import InkLint.Fault

/-!
# Volumes

A volume is a finite tree of folders, files and links, together with the folder that relative
paths start from. A node of the tree is known by its *location*: the names that lead to it from
the root, no link among them. Two paths lead to the same folder exactly when they lead to the same
location, so locations are what a walk compares.

`Node.places` lists all locations with their nodes. It bounds everything that moves through a
volume: a walk through links can only enter finitely many folders.

A file is what reading it gives, which may be a failure. That is all there is of access rights:
every folder may be searched and listed, so a file that cannot be read is found like any other.

A volume may also set limits to a lookup. They are kept apart from the tree, so that what holds
without them can be said of every volume whose `limits` are empty.
-/

namespace InkLint

/-- A location: the names from the root down to a node. -/
abbrev Loc := List Name

/-- What reading a file gives: its bytes, or why the system refuses. -/
abbrev Content := Except OsError Bytes

/-- A node of the tree. The entries of a folder stand in the order in which it lists them. -/
inductive Node where
  | file (content : Content)
  | link (text : Path)
  | folder (entries : List (Name × Node))
deriving Repr

namespace Node

/-- Whether the node is a folder. -/
def isFolder : Node → Bool
  | folder _ => true
  | _ => false

/-- Whether the node is a file. -/
def isFile : Node → Bool
  | file _ => true
  | _ => false

/-- Whether the node is a link. -/
def isLink : Node → Bool
  | link _ => true
  | _ => false

/-- The node at a location below this one. -/
def get? : Node → Loc → Option Node
  | node, [] => some node
  | folder entries, name :: rest => (entries.lookup name).bind (·.get? rest)
  | _, _ :: _ => none

@[simp] theorem get?_nil (n : Node) : n.get? [] = some n := by
  cases n <;> rfl

@[simp] theorem get?_folder_cons (es : List (Name × Node)) (name : Name) (rest : Loc) :
    (folder es).get? (name :: rest) = (es.lookup name).bind (·.get? rest) := rfl

mutual

/-- Every location below a node, with what stands there. -/
def places : Node → List (Loc × Node)
  | file content => [([], file content)]
  | link text => [([], link text)]
  | folder entries => ([], folder entries) :: entryPlaces entries

/-- Every location below the entries of a folder, with what stands there. -/
def entryPlaces : List (Name × Node) → List (Loc × Node)
  | [] => []
  | (name, node) :: rest =>
    node.places.map (fun place => (name :: place.1, place.2)) ++ entryPlaces rest

end

/-- A node that is found somewhere is listed there. -/
theorem mem_places_of_get? {n x : Node} {loc : Loc} (h : n.get? loc = some x) :
    (loc, x) ∈ n.places := by
  induction loc generalizing n with
  | nil =>
    rw [get?_nil] at h
    cases h
    cases x <;> simp [places]
  | cons name rest ih =>
    cases n with
    | file c => cases h
    | link t => cases h
    | folder es =>
      rw [get?_folder_cons] at h
      obtain ⟨child, hchild, hget⟩ := Option.bind_eq_some_iff.1 h
      have hmem : (rest, x) ∈ child.places := ih hget
      simp only [places, List.mem_cons]
      refine .inr ?_
      clear h ih
      induction es with
      | nil => cases hchild
      | cons e es ihes =>
        obtain ⟨k, m⟩ := e
        simp only [entryPlaces, List.mem_append, List.mem_map]
        rw [List.lookup_cons] at hchild
        split at hchild
        · next hk =>
          cases hchild
          rw [eq_of_beq hk]
          exact .inl ⟨(rest, x), hmem, rfl⟩
        · exact .inr (ihes hchild)

/-- What stands below a location that ends in a name is an entry of the folder there. -/
theorem get?_concat (n : Node) (loc : Loc) (name : Name) :
    n.get? (loc ++ [name]) =
      match n.get? loc with
      | some (folder es) => es.lookup name
      | _ => none := by
  induction loc generalizing n with
  | nil =>
    cases n with
    | file c => rfl
    | link t => rfl
    | folder es => cases h : es.lookup name <;> simp [h]
  | cons a rest ih =>
    cases n with
    | file c => rfl
    | link t => rfl
    | folder es =>
      simp only [List.cons_append, get?_folder_cons]
      cases es.lookup a with
      | none => rfl
      | some child => exact ih child

end Node

/-- What is allowed in one lookup; `none` stands for no limit. -/
structure Limits where
  /-- How many links are followed. -/
  links : Option Nat := none
  /-- How many bytes the path has. -/
  pathBytes : Option Nat := none
deriving DecidableEq, Repr

namespace Limits

/-- What Linux allows. -/
def linux : Limits :=
  { links := some 40, pathBytes := some 4095 }

/-- Whether no link may be followed after this many. -/
def spent (l : Limits) (followed : Nat) : Bool :=
  l.links.any (· ≤ followed)

/-- Whether a path is too long to be looked up. -/
def refuses (l : Limits) (p : Path) : Bool :=
  l.pathBytes.any (· < p.length)

@[simp] theorem spent_unlimited (followed : Nat) : ({} : Limits).spent followed = false := rfl

@[simp] theorem refuses_unlimited (p : Path) : ({} : Limits).refuses p = false := rfl

end Limits

/-- A tree of nodes, the folder that relative paths start from, and the limits to a lookup. -/
structure Volume where
  root : Node
  home : Loc := []
  limits : Limits := {}
deriving Repr

namespace Volume

/-- The node at a location. -/
def node? (v : Volume) (loc : Loc) : Option Node :=
  v.root.get? loc

/-- Whether a folder stands at a location. -/
def hasFolder (v : Volume) (loc : Loc) : Bool :=
  (v.node? loc).any (·.isFolder)

/-- Whether a file stands at a location. -/
def hasFile (v : Volume) (loc : Loc) : Bool :=
  (v.node? loc).any (·.isFile)

/-- Whether a link stands at a location. -/
def hasLink (v : Volume) (loc : Loc) : Bool :=
  (v.node? loc).any (·.isLink)

/-- The locations of all folders. -/
def folders (v : Volume) : List Loc :=
  (v.root.places.filter (·.2.isFolder)).map (·.1)

/-- The locations of all links. -/
def links (v : Volume) : List Loc :=
  (v.root.places.filter (·.2.isLink)).map (·.1)

/-- The number of names that lead to the deepest folder. -/
def folderHeight (v : Volume) : Nat :=
  (v.folders.map List.length).max?.getD 0

theorem mem_folders {v : Volume} {loc : Loc} (h : v.hasFolder loc = true) : loc ∈ v.folders := by
  obtain ⟨n, hn, hf⟩ := (Option.any_eq_true _ _).1 h
  exact List.mem_map.2 ⟨(loc, n), List.mem_filter.2 ⟨Node.mem_places_of_get? hn, hf⟩, rfl⟩

theorem mem_links {v : Volume} {loc : Loc} (h : v.hasLink loc = true) : loc ∈ v.links := by
  obtain ⟨n, hn, hl⟩ := (Option.any_eq_true _ _).1 h
  exact List.mem_map.2 ⟨(loc, n), List.mem_filter.2 ⟨Node.mem_places_of_get? hn, hl⟩, rfl⟩

theorem length_le_folderHeight {v : Volume} {loc : Loc} (h : v.hasFolder loc = true) :
    loc.length ≤ v.folderHeight :=
  List.le_max?_getD_of_mem (List.mem_map.2 ⟨loc, mem_folders h, rfl⟩)

/-! ## Locations not yet used

What moves through links keeps a list of the locations it has used and never uses one twice, so
the number of those left gets smaller. -/

/-- How many of the locations are not among the used ones. -/
def unused (all used : List Loc) : Nat :=
  (all.filter (· ∉ used)).length

theorem unused_cons_le (all used : List Loc) (loc : Loc) :
    unused all (loc :: used) ≤ unused all used := by
  unfold unused
  simp only [← List.countP_eq_length_filter]
  refine List.countP_mono_left fun x _ h => ?_
  simp_all

theorem unused_cons_lt {all used : List Loc} {loc : Loc} (hall : loc ∈ all) (hused : loc ∉ used) :
    unused all (loc :: used) < unused all used := by
  induction all with
  | nil => cases hall
  | cons a all ih =>
    unfold unused at ih ⊢
    by_cases ha : a = loc
    · have hle := unused_cons_le all used loc
      unfold unused at hle
      subst ha
      simp only [List.filter_cons, List.mem_cons, true_or, not_true, decide_false, hused,
        not_false_eq_true, decide_true, if_true, List.length_cons]
      simpa using Nat.lt_succ_of_le hle
    · have hmem : loc ∈ all := by
        rcases List.mem_cons.1 hall with h | h
        · exact absurd h.symm ha
        · exact h
      have hlt := ih hmem
      by_cases hu : a ∈ used
      · simpa [List.filter_cons, ha, hu] using hlt
      · simpa [List.filter_cons, ha, hu] using hlt

end Volume

end InkLint
