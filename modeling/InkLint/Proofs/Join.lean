import InkLint.Path

/-!
# Paths of positions

A position below a path is a list of names, and its path is the names joined to the path one after
another. The last piece of a joined path is the name, whatever the path in front of it looks like
(`pieces_join`), so the path of a position spells its names (`pieces_joinAll`) and two positions
never have one path (`joinAll_inj`).
-/

namespace InkLint

namespace Path

/-- The path of a position: the names joined to `p` one after another. -/
def joinAll (p : Path) (names : List Name) : Path :=
  names.foldl join p

@[simp] theorem joinAll_nil (p : Path) : p.joinAll [] = p := rfl

@[simp] theorem joinAll_cons (p : Path) (name : Name) (names : List Name) :
    p.joinAll (name :: names) = (p.join name).joinAll names := rfl

@[simp] theorem joinAll_append (p : Path) (first rest : List Name) :
    p.joinAll (first ++ rest) = (p.joinAll first).joinAll rest := by
  simp [joinAll]

theorem joinAll_concat (p : Path) (names : List Name) (name : Name) :
    p.joinAll (names ++ [name]) = (p.joinAll names).join name := by
  simp

/-- The pieces in front of a name that is joined to `p`. -/
def stem (p : Path) : List Name :=
  if p.isEmpty || p.getLast? == some slash then p.pieces.dropLast else p.pieces

theorem pieces_ne_nil (p : Path) : p.pieces ≠ [] := List.splitOn_ne_nil slash p

theorem pieces_of_no_slash {p : Path} (h : slash ∉ p) : p.pieces = [p] :=
  List.splitOn_eq_singleton h

/-- A slash ends the pieces before it. -/
theorem pieces_append_slash (p q : Path) : (p ++ slash :: q).pieces = p.pieces ++ q.pieces :=
  List.splitOn_append_cons_self p q

theorem pieces_append_slashes (p : Path) (n : Nat) :
    (p ++ List.replicate n slash).pieces = p.pieces ++ List.replicate n [] := by
  induction n with
  | zero => simp
  | succ n ih =>
    have hlast := pieces_append_slash (p ++ List.replicate n slash) []
    rw [List.replicate_succ', List.replicate_succ', ← List.append_assoc, hlast, ih,
      List.append_assoc]
    rfl

theorem pieces_join (p : Path) {name : Name} (hslash : slash ∉ name) :
    (p.join name).pieces = p.stem ++ [name] := by
  unfold join stem
  split
  · rename_i hend
    rcases List.eq_nil_or_concat p with rfl | ⟨q, c, rfl⟩
    · have hnil : pieces [] = [[]] := rfl
      simp [hnil, pieces_of_no_slash hslash]
    · have hc : c = slash := by simpa using hend
      have hq : pieces (q ++ [slash]) = pieces q ++ [[]] := pieces_append_slash q []
      rw [hc, List.concat_eq_append, hq, List.append_assoc, List.singleton_append,
        pieces_append_slash, pieces_of_no_slash hslash, List.dropLast_concat]
  · rw [pieces_append_slash, pieces_of_no_slash hslash]

theorem join_ne_nil (p : Path) {name : Name} (hne : name ≠ []) : p.join name ≠ [] := by
  unfold join
  split <;> simp [hne]

theorem getLast?_join (p : Path) {name : Name} (hne : name ≠ []) :
    (p.join name).getLast? = name.getLast? := by
  unfold join
  have hlast : name.getLast?.isSome := by simpa using hne
  obtain ⟨c, hc⟩ := Option.isSome_iff_exists.1 hlast
  split
  · simp [List.getLast?_append, hc]
  · simp [List.getLast?_append, List.getLast?_cons, hc]

/-- A path that ends in a name has all its pieces in front of the next name. -/
theorem stem_join (p : Path) {name : Name} (hslash : slash ∉ name) (hne : name ≠ []) :
    (p.join name).stem = p.stem ++ [name] := by
  have hend : (p.join name).getLast? ≠ some slash := by
    rw [getLast?_join p hne]
    intro h
    exact hslash (List.mem_of_getLast? h)
  rw [stem, if_neg, pieces_join p hslash]
  simp [join_ne_nil p hne, hend]

/-- The pieces of a position's path are the names, behind what belongs to the path itself. -/
theorem pieces_joinAll (p : Path) {names : List Name} (hne : names ≠ [])
    (hnames : ∀ n ∈ names, slash ∉ n ∧ n ≠ []) : (p.joinAll names).pieces = p.stem ++ names := by
  induction names generalizing p with
  | nil => exact absurd rfl hne
  | cons n names ih =>
    obtain ⟨hslash, hn⟩ := hnames n (by simp)
    rw [joinAll_cons]
    cases names with
    | nil => exact pieces_join p hslash
    | cons m names =>
      rw [ih _ (by simp) fun k hk => hnames k (List.mem_cons_of_mem _ hk), stem_join p hslash hn]
      simp

theorem joinAll_inj (p : Path) {ns ms : List Name} (hns : ns ≠ []) (hms : ms ≠ [])
    (hn : ∀ n ∈ ns, slash ∉ n ∧ n ≠ []) (hm : ∀ m ∈ ms, slash ∉ m ∧ m ≠ [])
    (h : p.joinAll ns = p.joinAll ms) : ns = ms := by
  have hpieces := pieces_joinAll p hns hn
  rw [h, pieces_joinAll p hms hm] at hpieces
  exact (List.append_cancel_left hpieces).symm

/-- The file name of a joined path is the name. -/
theorem fileName?_join (p : Path) {name : Name} (hslash : slash ∉ name)
    (hstay : staysPut name = false) (hup : name ≠ up) :
    (p.join name).fileName? = fileName? name := by
  have hjoin : (p.join name).fileName? = some name := by
    simp [fileName?, pieces_join p hslash, hstay, hup]
  rw [hjoin, fileName?_of_name hslash hstay hup]

theorem isAbsolute_join {p : Path} (hp : p ≠ []) (name : Name) :
    (p.join name).isAbsolute = p.isAbsolute := by
  obtain ⟨c, q, rfl⟩ := List.exists_cons_of_ne_nil hp
  unfold isAbsolute join
  split <;> rfl

theorem mem_join {p : Path} {name : Name} {c : UInt8} (h : c ∈ p.join name) :
    c ∈ p ∨ c = slash ∨ c ∈ name := by
  unfold join at h
  split at h
  · rcases List.mem_append.1 h with h | h
    · exact .inl h
    · exact .inr (.inr h)
  · rcases List.mem_append.1 h with h | h
    · exact .inl h
    · exact .inr (List.mem_cons.1 h)

theorem joinAll_ne_nil {p : Path} (hp : p ≠ []) {names : List Name} (hnames : ∀ n ∈ names, n ≠ []) :
    p.joinAll names ≠ [] := by
  induction names generalizing p with
  | nil => exact hp
  | cons n names ih =>
    exact ih (join_ne_nil p (hnames n (by simp))) fun k hk => hnames k (by simp [hk])

theorem isAbsolute_joinAll {p : Path} (hp : p ≠ []) {names : List Name}
    (hnames : ∀ n ∈ names, n ≠ []) : (p.joinAll names).isAbsolute = p.isAbsolute := by
  induction names generalizing p with
  | nil => rfl
  | cons n names ih =>
    rw [joinAll_cons, ih (join_ne_nil p (hnames n (by simp))) fun k hk => hnames k (by simp [hk]),
      isAbsolute_join hp]

theorem mem_joinAll {p : Path} {names : List Name} {c : UInt8} (h : c ∈ p.joinAll names) :
    c ∈ p ∨ c = slash ∨ ∃ n ∈ names, c ∈ n := by
  induction names generalizing p with
  | nil => exact .inl h
  | cons n names ih =>
    rcases ih h with h | h | ⟨k, hk, h⟩
    · rcases mem_join h with h | h | h
      · exact .inl h
      · exact .inr (.inl h)
      · exact .inr (.inr ⟨n, by simp, h⟩)
    · exact .inr (.inl h)
    · exact .inr (.inr ⟨k, by simp [hk], h⟩)

/-- The path of a position is the path, a slash unless it ends in one, and the names with slashes
between them. -/
theorem joinAll_eq {p : Path} (hp : p ≠ []) {names : List Name} (hne : names ≠ [])
    (hnames : ∀ n ∈ names, slash ∉ n ∧ n ≠ []) :
    p.joinAll names =
      (if p.getLast? = some slash then p else p ++ [slash]) ++ [slash].intercalate names := by
  have hjoin (q : Path) (hq : q ≠ []) (n : Name) :
      q.join n = (if q.getLast? = some slash then q else q ++ [slash]) ++ n := by
    unfold join
    by_cases hend : q.getLast? = some slash <;> simp [hend, hq]
  induction names generalizing p with
  | nil => exact absurd rfl hne
  | cons n names ih =>
    obtain ⟨hslash, hn⟩ := hnames n (by simp)
    cases names with
    | nil => simp [hjoin p hp]
    | cons m names =>
      have hend : (p.join n).getLast? ≠ some slash := by
        rw [getLast?_join p hn]
        exact fun h => hslash (List.mem_of_getLast? h)
      rw [joinAll_cons, ih (join_ne_nil p hn) (by simp) fun k hk => hnames k (by simp [hk]),
        if_neg hend, hjoin p hp]
      simp [List.intercalate_cons_cons]

end Path

end InkLint
