import InkLint.Proofs.Join
import InkLint.Volume.Walk

/-!
# Well-formed volumes

`Volume.WellFormed` says what every folder keeps to: its entries have different names, and each
name is one that a lookup takes as it stands. Then the names of a folder come in strictly
increasing order, and `Node.places` has each node of the tree at its location and only once, so
that `Volume.folders` can be counted.
-/

namespace InkLint

/-- A name that an entry can have. -/
structure Name.Plain (name : Name) : Prop where
  ne_nil : name ≠ []
  ne_here : name ≠ Path.here
  ne_up : name ≠ Path.up
  no_slash : Path.slash ∉ name
  no_nul : 0 ∉ name
  short : name.length ≤ Volume.maxName

instance (name : Name) : Decidable name.Plain :=
  decidable_of_iff
    (name ≠ [] ∧ name ≠ Path.here ∧ name ≠ Path.up ∧ Path.slash ∉ name ∧ 0 ∉ name ∧
      name.length ≤ Volume.maxName)
    ⟨fun ⟨h1, h2, h3, h4, h5, h6⟩ => ⟨h1, h2, h3, h4, h5, h6⟩,
     fun ⟨h1, h2, h3, h4, h5, h6⟩ => ⟨h1, h2, h3, h4, h5, h6⟩⟩

/-- The entries of a folder have different names, all of them plain. -/
def Node.Sound : Node → Prop
  | .folder entries => (entries.map (·.1)).Nodup ∧ ∀ entry ∈ entries, Name.Plain entry.1
  | _ => True

instance : (node : Node) → Decidable node.Sound
  | .folder entries =>
    inferInstanceAs (Decidable ((entries.map (·.1)).Nodup ∧ ∀ entry ∈ entries, Name.Plain entry.1))
  | .file _ => .isTrue trivial
  | .link _ => .isTrue trivial

namespace Volume

/-- Whether the folder at a location has an entry of this name. -/
def hasEntry (v : Volume) (loc : Loc) (name : Name) : Bool :=
  (v.node? (loc ++ [name])).isSome

/-- Every folder of the volume is sound. -/
def WellFormed (v : Volume) : Prop :=
  ∀ place ∈ v.root.places, place.2.Sound

instance (v : Volume) : Decidable v.WellFormed :=
  inferInstanceAs (Decidable (∀ place ∈ v.root.places, place.2.Sound))

variable {v : Volume}

/-! ## Nodes and names -/

theorem hasFolder_iff {loc : Loc} :
    v.hasFolder loc = true ↔ ∃ entries, v.node? loc = some (.folder entries) := by
  unfold hasFolder
  cases h : v.node? loc with
  | none => simp
  | some node => cases node <;> simp [Node.isFolder]

theorem hasFile_iff {loc : Loc} :
    v.hasFile loc = true ↔ ∃ content, v.node? loc = some (.file content) := by
  unfold hasFile
  cases h : v.node? loc with
  | none => simp
  | some node => cases node <;> simp [Node.isFile]

theorem hasLink_iff {loc : Loc} :
    v.hasLink loc = true ↔ ∃ text, v.node? loc = some (.link text) := by
  unfold hasLink
  cases h : v.node? loc with
  | none => simp
  | some node => cases node <;> simp [Node.isLink]

theorem hasLink_eq_false_iff {loc : Loc} :
    v.hasLink loc = false ↔ ∀ text, v.node? loc ≠ some (.link text) := by
  rw [Bool.eq_false_iff, ne_eq, hasLink_iff, not_exists]

/-- A node is a folder, a file or a link. -/
theorem node_cases {loc : Loc} (h : (v.node? loc).isSome) :
    v.hasFolder loc = true ∨ v.hasFile loc = true ∨ v.hasLink loc = true := by
  obtain ⟨node, hnode⟩ := Option.isSome_iff_exists.1 h
  cases node with
  | folder entries => exact .inl (hasFolder_iff.2 ⟨entries, hnode⟩)
  | file content => exact .inr (.inl (hasFile_iff.2 ⟨content, hnode⟩))
  | link text => exact .inr (.inr (hasLink_iff.2 ⟨text, hnode⟩))

theorem not_hasFile_of_hasFolder {loc : Loc} (h : v.hasFolder loc = true) :
    v.hasFile loc = false := by
  obtain ⟨entries, hnode⟩ := hasFolder_iff.1 h
  simp [hasFile, hnode, Node.isFile]

theorem not_hasFolder_of_hasFile {loc : Loc} (h : v.hasFile loc = true) :
    v.hasFolder loc = false := by
  obtain ⟨content, hnode⟩ := hasFile_iff.1 h
  simp [hasFolder, hnode, Node.isFolder]

theorem not_hasFile_of_hasLink {loc : Loc} (h : v.hasLink loc = true) : v.hasFile loc = false := by
  obtain ⟨text, hnode⟩ := hasLink_iff.1 h
  simp [hasFile, hnode, Node.isFile]

theorem not_hasLink_of_hasFolder {loc : Loc} (h : v.hasFolder loc = true) :
    v.hasLink loc = false := by
  obtain ⟨entries, hnode⟩ := hasFolder_iff.1 h
  simp [hasLink, hnode, Node.isLink]

theorem not_hasLink_of_hasFile {loc : Loc} (h : v.hasFile loc = true) : v.hasLink loc = false := by
  obtain ⟨content, hnode⟩ := hasFile_iff.1 h
  simp [hasLink, hnode, Node.isLink]

theorem node?_concat {loc : Loc} {entries : List (Name × Node)}
    (h : v.node? loc = some (.folder entries)) (name : Name) :
    v.node? (loc ++ [name]) = entries.lookup name := by
  unfold node? at h ⊢
  rw [Node.get?_concat, h]

/-- The folder that holds a node is there. -/
theorem hasFolder_dropLast {loc : Loc} (h : v.hasFolder loc = true) :
    v.hasFolder loc.dropLast = true := by
  rcases List.eq_nil_or_concat loc with rfl | ⟨parent, name, rfl⟩
  · exact h
  · obtain ⟨entries, hnode⟩ := hasFolder_iff.1 h
    rw [List.concat_eq_append, node?, Node.get?_concat] at hnode
    rw [List.concat_eq_append, List.dropLast_concat]
    split at hnode
    · rename_i es hes
      exact hasFolder_iff.2 ⟨es, hes⟩
    · cases hnode

theorem names_of_folder {loc : Loc} {entries : List (Name × Node)}
    (h : v.node? loc = some (.folder entries)) :
    v.names loc = (entries.map (·.1)).mergeSort (fun a b => decide (a ≤ b)) := by
  simp [names, h]

theorem hasFolder_of_mem_names {loc : Loc} {name : Name} (h : name ∈ v.names loc) :
    v.hasFolder loc = true := by
  unfold names at h
  split at h
  · rename_i entries hnode
    exact hasFolder_iff.2 ⟨entries, hnode⟩
  · cases h

/-- The names of a folder are those under which it holds a node. -/
theorem mem_names_iff {loc : Loc} {name : Name} (h : v.hasFolder loc = true) :
    name ∈ v.names loc ↔ (v.node? (loc ++ [name])).isSome := by
  obtain ⟨entries, hnode⟩ := hasFolder_iff.1 h
  rw [names_of_folder hnode, node?_concat hnode, List.mem_mergeSort, List.lookup_isSome_iff]
  constructor
  · intro hmem
    obtain ⟨entry, hentry, rfl⟩ := List.mem_map.1 hmem
    exact ⟨entry, hentry, by simp⟩
  · rintro ⟨entry, hentry, hname⟩
    exact List.mem_map.2 ⟨entry, hentry, (eq_of_beq hname).symm⟩

/-- What the walk takes for the names of a folder are the names of its entries. -/
theorem hasEntry_iff {loc : Loc} {name : Name} : v.hasEntry loc name = true ↔ name ∈ v.names loc := by
  cases hfolder : v.hasFolder loc with
  | true => exact (mem_names_iff hfolder).symm
  | false =>
    have hnone : v.node? (loc ++ [name]) = none := by
      rw [node?, Node.get?_concat]
      split
      · rename_i entries hnode
        simp [hasFolder, node?, hnode, Node.isFolder] at hfolder
      · rfl
    constructor
    · intro h
      simp [hasEntry, hnone] at h
    · intro h
      rw [hasFolder_of_mem_names h] at hfolder
      cases hfolder

theorem entry_cases {loc : Loc} {name : Name} (h : name ∈ v.names loc) :
    v.hasFolder (loc ++ [name]) = true ∨ v.hasFile (loc ++ [name]) = true ∨
      v.hasLink (loc ++ [name]) = true :=
  node_cases ((mem_names_iff (hasFolder_of_mem_names h)).1 h)

theorem WellFormed.sound (hv : v.WellFormed) {loc : Loc} {node : Node}
    (h : v.node? loc = some node) : node.Sound :=
  hv (loc, node) (Node.mem_places_of_get? h)

theorem WellFormed.plain (hv : v.WellFormed) {loc : Loc} {name : Name} (h : name ∈ v.names loc) :
    name.Plain := by
  obtain ⟨entries, hnode⟩ := hasFolder_iff.1 (hasFolder_of_mem_names h)
  rw [names_of_folder hnode, List.mem_mergeSort] at h
  obtain ⟨entry, hentry, rfl⟩ := List.mem_map.1 h
  exact (hv.sound hnode).2 entry hentry

/-- A folder's names come in increasing order, each once. -/
theorem WellFormed.names_lt (hv : v.WellFormed) (loc : Loc) :
    (v.names loc).Pairwise (· < ·) := by
  unfold names
  split
  · rename_i entries hnode
    have htrans (a b c : Name) (hab : decide (a ≤ b) = true) (hbc : decide (b ≤ c) = true) :
        decide (a ≤ c) = true :=
      decide_eq_true (Std.le_trans (of_decide_eq_true hab) (of_decide_eq_true hbc))
    have htotal (a b : Name) : (decide (a ≤ b) || decide (b ≤ a)) = true := by
      simpa using Std.le_total
    have hsorted := List.pairwise_mergeSort htrans htotal (entries.map (·.1))
    have hnodup : ((entries.map (·.1)).mergeSort (fun a b => decide (a ≤ b))).Nodup :=
      (List.mergeSort_perm _ _).nodup_iff.2 (hv.sound hnode).1
    refine (hsorted.and hnodup).imp fun {a b} h => ?_
    exact Std.lt_of_le_of_ne (of_decide_eq_true h.1) h.2
  · exact .nil

/-! ## Every node once -/

end Volume

namespace Node

theorem mem_entryPlaces_iff {entries : List (Name × Node)} {loc : Loc} {x : Node} :
    (loc, x) ∈ entryPlaces entries ↔
      ∃ name child rest, (name, child) ∈ entries ∧ loc = name :: rest ∧ (rest, x) ∈ child.places := by
  induction entries with
  | nil => simp [entryPlaces]
  | cons entry entries ih =>
    obtain ⟨name, child⟩ := entry
    simp only [entryPlaces, List.mem_append, List.mem_map, ih, List.mem_cons, Prod.mk.injEq]
    constructor
    · rintro (⟨⟨rest, y⟩, hmem, rfl, rfl⟩ | ⟨n, c, rest, hmem, rfl, hx⟩)
      · exact ⟨name, child, rest, .inl ⟨rfl, rfl⟩, rfl, hmem⟩
      · exact ⟨n, c, rest, .inr hmem, rfl, hx⟩
    · rintro ⟨n, c, rest, ⟨rfl, rfl⟩ | hmem, rfl, hx⟩
      · exact .inl ⟨(rest, x), hx, rfl, rfl⟩
      · exact .inr ⟨n, c, rest, hmem, rfl, hx⟩

/-- The entries of a folder with different names are found under their names. -/
theorem lookup_of_mem {entries : List (Name × Node)} (hnodup : (entries.map (·.1)).Nodup)
    {name : Name} {child : Node} (h : (name, child) ∈ entries) :
    entries.lookup name = some child := by
  induction entries with
  | nil => cases h
  | cons entry entries ih =>
    obtain ⟨n, c⟩ := entry
    obtain ⟨hnew, hnodup⟩ := List.nodup_cons.1 hnodup
    rcases List.mem_cons.1 h with heq | hmem
    · cases heq
      exact List.lookup_cons_self
    · have hne : name ≠ n := by
        rintro rfl
        exact hnew (List.mem_map.2 ⟨(name, child), hmem, rfl⟩)
      rw [List.lookup_cons, beq_eq_false_iff_ne.2 hne]
      exact ih hnodup hmem

/-- What is listed somewhere is found there. -/
theorem get?_of_mem_places {n x : Node} {loc : Loc} (hsound : ∀ place ∈ n.places, place.2.Sound)
    (h : (loc, x) ∈ n.places) : n.get? loc = some x := by
  induction loc generalizing n with
  | nil =>
    cases n with
    | file content => simp [places] at h; simp [h]
    | link text => simp [places] at h; simp [h]
    | folder entries =>
      rcases List.mem_cons.1 h with heq | hmem
      · cases heq
        rfl
      · obtain ⟨name, child, rest, -, heq, -⟩ := mem_entryPlaces_iff.1 hmem
        cases heq
  | cons name rest ih =>
    cases n with
    | file content => simp [places] at h
    | link text => simp [places] at h
    | folder entries =>
      rcases List.mem_cons.1 h with heq | hmem
      · cases heq
      · obtain ⟨_, child, _, hentry, heq, hx⟩ := mem_entryPlaces_iff.1 hmem
        cases heq
        have hfolder : (folder entries).Sound := hsound ([], folder entries) (by simp [places])
        rw [get?_folder_cons, lookup_of_mem hfolder.1 hentry]
        refine ih (fun place hplace => hsound (name :: place.1, place.2) ?_) hx
        exact List.mem_cons_of_mem _
          (mem_entryPlaces_iff.2 ⟨name, child, place.1, hentry, rfl, hplace⟩)

mutual

theorem nodup_places : (n : Node) → (∀ place ∈ n.places, place.2.Sound) →
    (n.places.map (·.1)).Nodup
  | file _, _ => by simp [places]
  | link _, _ => by simp [places]
  | folder entries, hsound => by
    have hfolder : (folder entries).Sound := hsound ([], folder entries) (by simp [places])
    rw [places, List.map_cons, List.nodup_cons]
    refine ⟨?_, nodup_entryPlaces entries hfolder.1 fun place hplace =>
      hsound place (List.mem_cons_of_mem _ hplace)⟩
    intro hnil
    obtain ⟨⟨loc, x⟩, hmem, hloc⟩ := List.mem_map.1 hnil
    obtain ⟨name, child, rest, -, heq, -⟩ := mem_entryPlaces_iff.1 hmem
    rw [heq] at hloc
    cases hloc

theorem nodup_entryPlaces : (entries : List (Name × Node)) → (entries.map (·.1)).Nodup →
    (∀ place ∈ entryPlaces entries, place.2.Sound) → ((entryPlaces entries).map (·.1)).Nodup
  | [], _, _ => by simp [entryPlaces]
  | (name, child) :: entries, hnodup, hsound => by
    obtain ⟨hnew, hnodup⟩ := List.nodup_cons.1 hnodup
    have hchild := nodup_places child fun place hplace =>
      hsound (name :: place.1, place.2) (List.mem_append_left _ (List.mem_map.2 ⟨place, hplace, rfl⟩))
    have hrest := nodup_entryPlaces entries hnodup fun place hplace =>
      hsound place (List.mem_append_right _ hplace)
    rw [entryPlaces, List.map_append, List.map_map]
    refine List.nodup_append.2 ⟨?_, hrest, ?_⟩
    · refine List.pairwise_map.2 ((List.pairwise_map.1 hchild).imp ?_)
      intro a b hne heq
      exact hne (List.cons.inj heq).2
    · intro a ha b hb heq
      obtain ⟨place, -, rfl⟩ := List.mem_map.1 ha
      obtain ⟨⟨loc, x⟩, hmem, rfl⟩ := List.mem_map.1 hb
      obtain ⟨other, node, rest, hentry, rfl, -⟩ := mem_entryPlaces_iff.1 hmem
      cases heq
      exact hnew (List.mem_map.2 ⟨(name, node), hentry, rfl⟩)

end

end Node

namespace Volume

variable {v : Volume}

theorem WellFormed.mem_folders_iff (hv : v.WellFormed) {loc : Loc} :
    loc ∈ v.folders ↔ v.hasFolder loc = true := by
  constructor
  · intro h
    obtain ⟨⟨loc', node⟩, hmem, rfl⟩ := List.mem_map.1 h
    obtain ⟨hplace, hfolder⟩ := List.mem_filter.1 hmem
    have hnode : v.node? loc' = some node := Node.get?_of_mem_places hv hplace
    simpa [hasFolder, hnode] using hfolder
  · exact mem_folders

theorem WellFormed.nodup_folders (hv : v.WellFormed) : v.folders.Nodup :=
  (Node.nodup_places v.root hv).sublist (List.filter_sublist.map _)

end Volume

end InkLint
