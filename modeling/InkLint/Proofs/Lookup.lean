import InkLint.Proofs.WellFormed

/-!
# What a lookup finds

Lookups on any volume, whatever its limits:

* where a lookup leads depends on where it starts and on nothing it has done before
  (`leads_of_follow`, `Leads.unique`);
* what it leads to is a folder or a file, never a link (`Leads.node`);
* looking up a path and then more names is looking up the joined path (`arrive_joinAll`);
* looking at a path as it stands and then following the link there, if any, is looking it up
  (`enterRoot_eq_arrive`), so a walk starts where its root leads (`collect_eq_arrive`).
-/

namespace InkLint

namespace Volume

variable {v : Volume}

/-! ## One piece -/

theorem hasFolder_of_step {loc next : Loc} {piece : Name} (h : v.step loc piece = .ok next) :
    v.hasFolder loc = true := by
  unfold step at h
  split at h
  · rename_i entries hnode
    exact hasFolder_iff.2 ⟨entries, hnode⟩
  · cases h

/-- A piece leads to a node. -/
theorem step_isSome {loc next : Loc} {piece : Name} (h : v.step loc piece = .ok next) :
    (v.node? next).isSome := by
  have hloc := hasFolder_of_step h
  obtain ⟨entries, hnode⟩ := hasFolder_iff.1 hloc
  simp only [step, hnode] at h
  split at h
  · cases h
    simp [hnode]
  · split at h
    · cases h
      obtain ⟨es, hes⟩ := hasFolder_iff.1 (hasFolder_dropLast hloc)
      simp [hes]
    · split at h
      · cases h
      · split at h
        · rename_i hsome
          cases h
          rw [node?_concat hnode]
          exact hsome
        · cases h

/-- An empty piece stays in the folder. -/
theorem step_nil {loc : Loc} (h : v.hasFolder loc = true) : v.step loc [] = .ok loc := by
  obtain ⟨entries, hnode⟩ := hasFolder_iff.1 h
  simp [step, hnode, Path.staysPut]

theorem step_name {loc : Loc} {name : Name} (hname : name.Plain) (h : name ∈ v.names loc) :
    v.step loc name = .ok (loc ++ [name]) := by
  have hloc := hasFolder_of_mem_names h
  have hentry := (mem_names_iff hloc).1 h
  obtain ⟨entries, hnode⟩ := hasFolder_iff.1 hloc
  have hstay : Path.staysPut name = false := by
    simp [Path.staysPut, hname.ne_nil, hname.ne_here]
  have hshort : ¬maxName < name.length := Nat.not_lt.2 hname.short
  rw [node?_concat hnode] at hentry
  simp [step, hnode, hstay, hname.ne_up, hshort, hentry]

/-! ## Many pieces

`Leads` is what a lookup means, without the links it is busy with and without limits. -/

/-- The pieces lead from one location to another, all links followed. -/
inductive Leads (v : Volume) : Loc → List Name → Loc → Prop
  | done (loc : Loc) : Leads v loc [] loc
  | piece {loc next last : Loc} {piece : Name} {rest : List Name} :
      v.step loc piece = .ok next → v.hasLink next = false → Leads v next rest last →
      Leads v loc (piece :: rest) last
  | link {loc next mid last : Loc} {piece : Name} {rest : List Name} {text : Path} :
      v.step loc piece = .ok next → v.node? next = some (.link text) →
      Leads v (origin loc text) text.pieces mid → Leads v mid rest last →
      Leads v loc (piece :: rest) last

theorem follow_fault {busy : List Loc} {here : Arrival} {piece : Name} {rest : List Name}
    {fault : Fault} (hstep : v.step here.loc piece = .error fault) :
    v.follow busy here (piece :: rest) = .error fault := by
  rw [follow, hstep]

theorem follow_piece {busy : List Loc} {here : Arrival} {piece : Name} {rest : List Name}
    {next : Loc} (hstep : v.step here.loc piece = .ok next) (hlink : v.hasLink next = false) :
    v.follow busy here (piece :: rest) = v.follow busy ⟨next, here.links⟩ rest := by
  rw [follow, hstep]
  dsimp only
  split
  · rename_i text htext
    rw [hasLink_iff.2 ⟨text, htext⟩] at hlink
    cases hlink
  · rfl

theorem follow_link {busy : List Loc} {here : Arrival} {piece : Name} {rest : List Name}
    {next : Loc} {text : Path} (hstep : v.step here.loc piece = .ok next)
    (hlink : v.node? next = some (.link text)) :
    v.follow busy here (piece :: rest) =
      if next ∈ busy ∨ v.limits.spent here.links then .error (.os .linkCircle)
      else
        match v.follow (next :: busy) ⟨origin here.loc text, here.links + 1⟩ text.pieces with
        | .error fault => .error fault
        | .ok reached => v.follow busy reached rest := by
  rw [follow, hstep]
  dsimp only
  split
  · rename_i text' htext
    rw [hlink] at htext
    cases htext
    split <;> rfl
  · rename_i hnot
    exact absurd hlink (hnot text)

/-- An empty piece changes nothing in a folder. -/
theorem follow_stay {busy : List Loc} {here : Arrival} {rest : List Name}
    (h : v.hasFolder here.loc = true) :
    v.follow busy here ([] :: rest) = v.follow busy here rest :=
  follow_piece (step_nil h) (not_hasLink_of_hasFolder h)

/-- A lookup that succeeds leads where its pieces lead. -/
theorem leads_of_follow {busy : List Loc} {here reached : Arrival} {pieces : List Name}
    (h : v.follow busy here pieces = .ok reached) : v.Leads here.loc pieces reached.loc := by
  induction busy, here, pieces using follow.induct v generalizing reached with
  | case1 busy here =>
    rw [follow_nil] at h
    cases h
    exact .done _
  | case2 busy here piece rest fault hstep =>
    rw [follow_fault hstep] at h
    cases h
  | case3 busy here piece rest next hstep text hlink hbusy =>
    rw [follow_link hstep hlink, if_pos hbusy] at h
    cases h
  | case4 busy here piece rest next hstep text hlink hbusy fault hfault ih =>
    rw [follow_link hstep hlink, if_neg hbusy, hfault] at h
    cases h
  | case5 busy here piece rest next hstep text hlink hbusy mid hmid ihtext ihrest =>
    rw [follow_link hstep hlink, if_neg hbusy, hmid] at h
    exact .link hstep hlink (ihtext hmid) (ihrest h)
  | case6 busy here piece rest next hstep hlink ih =>
    have hnot : v.hasLink next = false := hasLink_eq_false_iff.2 hlink
    rw [follow_piece hstep hnot] at h
    exact .piece hstep hnot (ih h)

/-- Pieces lead to one place at most. -/
theorem Leads.unique {loc a b : Loc} {pieces : List Name} (ha : v.Leads loc pieces a)
    (hb : v.Leads loc pieces b) : a = b := by
  induction ha generalizing b with
  | done loc => cases hb; rfl
  | piece hstep hlink _ ih =>
    cases hb with
    | piece hstep' _ hrest =>
      rw [hstep] at hstep'
      cases hstep'
      exact ih hrest
    | link hstep' hlink' _ _ =>
      rw [hstep] at hstep'
      cases hstep'
      rw [hasLink_iff.2 ⟨_, hlink'⟩] at hlink
      cases hlink
  | link hstep hlink _ _ ihtext ihrest =>
    cases hb with
    | piece hstep' hlink' _ =>
      rw [hstep] at hstep'
      cases hstep'
      rw [hasLink_iff.2 ⟨_, hlink⟩] at hlink'
      cases hlink'
    | link hstep' hlink' htext hrest =>
      rw [hstep] at hstep'
      cases hstep'
      rw [hlink] at hlink'
      cases hlink'
      cases ihtext htext
      exact ihrest hrest

/-- What pieces lead to is a folder or a file. -/
theorem Leads.node {loc last : Loc} {pieces : List Name} (h : v.Leads loc pieces last)
    (hne : pieces ≠ []) : v.hasFolder last = true ∨ v.hasFile last = true := by
  induction h with
  | done loc => exact absurd rfl hne
  | @piece loc next last piece rest hstep hlink hrest ih =>
    cases rest with
    | nil =>
      cases hrest
      rcases node_cases (step_isSome hstep) with hnode | hnode | hnode
      · exact .inl hnode
      · exact .inr hnode
      · rw [hnode] at hlink
        cases hlink
    | cons piece' rest => exact ih (by simp)
  | @link loc next mid last piece rest text hstep hlink htext hrest ihtext ihrest =>
    cases rest with
    | nil =>
      cases hrest
      exact ihtext (Path.pieces_ne_nil text)
    | cons piece' rest => exact ihrest (by simp)

/-! ## One entry -/

/-- An entry that is no link leads to itself. -/
theorem follow_entry {busy : List Loc} {here : Arrival} {name : Name} (hname : name.Plain)
    (h : name ∈ v.names here.loc) (hlink : v.hasLink (here.loc ++ [name]) = false) :
    v.follow busy here [name] = .ok ⟨here.loc ++ [name], here.links⟩ := by
  rw [follow_piece (step_name hname h) hlink, follow_nil]

/-! ## Paths -/

theorem refusal?_eq_none_iff {p : Path} :
    v.refusal? p = none ↔ 0 ∉ p ∧ v.limits.refuses p = false ∧ p ≠ [] := by
  unfold refusal?
  split
  · simp [*]
  · split
    · simp [*]
    · split <;> simp [*]

theorem arrive_eq_ok_iff {p : Path} {there : Arrival} :
    v.arrive p = .ok there ↔
      0 ∉ p ∧ v.limits.refuses p = false ∧ p ≠ [] ∧
        v.follow [] ⟨origin v.home p, 0⟩ p.pieces = .ok there := by
  unfold arrive
  cases hrefusal : v.refusal? p with
  | some fault =>
    constructor
    · intro h
      cases h
    · rintro ⟨hnul, hlong, hnil, -⟩
      rw [refusal?_eq_none_iff.2 ⟨hnul, hlong, hnil⟩] at hrefusal
      cases hrefusal
  | none =>
    obtain ⟨hnul, hlong, hnil⟩ := refusal?_eq_none_iff.1 hrefusal
    simp [hnul, hlong, hnil]

/-- Of a path that leads to a folder the stem leads there too: an empty piece after it stays in the
folder. -/
theorem follow_stem {p : Path} {there : Arrival} (hne : p ≠ [])
    (h : v.follow [] ⟨origin v.home p, 0⟩ p.pieces = .ok there) :
    v.follow [] ⟨origin v.home p, 0⟩ p.stem = .ok there := by
  unfold Path.stem
  split
  · rename_i hend
    obtain ⟨q, rfl⟩ : ∃ q, p = q ++ [Path.slash] := by
      rcases List.eq_nil_or_concat p with rfl | ⟨q, c, rfl⟩
      · exact absurd rfl hne
      · have hc : c = Path.slash := by simpa using hend
        exact ⟨q, by rw [hc, List.concat_eq_append]⟩
    have hpieces : Path.pieces (q ++ [Path.slash]) = Path.pieces q ++ [[]] :=
      Path.pieces_append_slash q []
    rw [hpieces, follow_append] at h
    rw [hpieces, List.dropLast_concat]
    split at h
    · cases h
    · rename_i mid hmid
      have hmidloc : v.hasFolder mid.loc = true := by
        cases hstep : v.step mid.loc [] with
        | error fault => rw [follow_fault hstep] at h; cases h
        | ok next => exact hasFolder_of_step hstep
      rw [follow_stay hmidloc, follow_nil] at h
      rw [hmid]
      exact h
  · exact h

/-- The path of a position leads where the names lead from where the path leads, unless it is too
long to be looked up. -/
theorem arrive_joinAll {p : Path} {there : Arrival} {names : List Name}
    (hp : v.arrive p = .ok there) (hne : names ≠ []) (hnames : ∀ n ∈ names, n.Plain) :
    v.arrive (p.joinAll names) =
      if v.limits.refuses (p.joinAll names) then .error (.os .nameTooLong)
      else v.follow [] there names := by
  obtain ⟨hnul, -, hpath, hfollow⟩ := arrive_eq_ok_iff.1 hp
  have hnul' : 0 ∉ p.joinAll names := by
    intro hmem
    rcases Path.mem_joinAll hmem with hmem | hmem | ⟨n, hn, hmem⟩
    · exact hnul hmem
    · cases hmem
    · exact (hnames n hn).no_nul hmem
  have hnil : ∀ n ∈ names, n ≠ [] := fun n hn => (hnames n hn).ne_nil
  have horigin : origin v.home (p.joinAll names) = origin v.home p := by
    unfold origin
    rw [Path.isAbsolute_joinAll hpath hnil]
  have hpieces := Path.pieces_joinAll p hne fun n hn => ⟨(hnames n hn).no_slash, hnil n hn⟩
  unfold arrive refusal?
  rw [if_neg hnul', if_neg (Path.joinAll_ne_nil hpath hnil), horigin, hpieces, follow_append,
    follow_stem hpath hfollow]
  cases v.limits.refuses (p.joinAll names) <;> rfl

/-- A path that is joined with a name leads where the name leads from where the path leads, unless
it is too long to be looked up. -/
theorem arrive_join {p : Path} {there : Arrival} {name : Name} (hp : v.arrive p = .ok there)
    (hname : name.Plain) :
    v.arrive (p.join name) =
      if v.limits.refuses (p.join name) then .error (.os .nameTooLong)
      else v.follow [] there [name] :=
  arrive_joinAll hp (List.cons_ne_nil name []) fun _ hn => List.mem_singleton.1 hn ▸ hname

/-- Slashes at the end of a path change nothing, unless they make it too long to be looked up. -/
theorem arrive_slashes {p : Path} {there : Arrival} (hp : v.arrive p = .ok there)
    (hfolder : v.hasFolder there.loc = true) {n : Nat}
    (hshort : v.limits.refuses (p ++ List.replicate n Path.slash) = false) :
    v.arrive (p ++ List.replicate n Path.slash) = .ok there := by
  have hstay (k : Nat) : v.follow [] there (List.replicate k []) = .ok there := by
    induction k with
    | zero => rw [List.replicate_zero, follow_nil]
    | succ k ih => rw [List.replicate_succ, follow_stay hfolder, ih]
  obtain ⟨hnul, -, hne, hp⟩ := arrive_eq_ok_iff.1 hp
  obtain ⟨c, q, rfl⟩ := List.exists_cons_of_ne_nil hne
  have hnul' : 0 ∉ c :: q ++ List.replicate n Path.slash := by
    intro hmem
    rcases List.mem_append.1 hmem with hmem | hmem
    · exact hnul hmem
    · cases List.eq_of_mem_replicate hmem
  have horigin : origin v.home (c :: q ++ List.replicate n Path.slash) = origin v.home (c :: q) :=
    rfl
  refine arrive_eq_ok_iff.2 ⟨hnul', hshort, by simp, ?_⟩
  rw [horigin, Path.pieces_append_slashes, follow_append, hp]
  exact hstay n

theorem arrive_node {p : Path} {there : Arrival} (h : v.arrive p = .ok there) :
    v.hasFolder there.loc = true ∨ v.hasFile there.loc = true := by
  obtain ⟨-, -, -, hfollow⟩ := arrive_eq_ok_iff.1 h
  exact (leads_of_follow hfollow).node (Path.pieces_ne_nil p)

theorem locate_eq_ok_iff {p : Path} {loc : Loc} :
    v.locate p = .ok loc ↔ ∃ links, v.arrive p = .ok ⟨loc, links⟩ := by
  unfold locate
  cases h : v.arrive p with
  | error fault => simp [Except.map]
  | ok there =>
    obtain ⟨loc', links⟩ := there
    simp [Except.map]

theorem locate_eq_error_iff {p : Path} {fault : Fault} :
    v.locate p = .error fault ↔ v.arrive p = .error fault := by
  unfold locate
  cases h : v.arrive p <;> simp [Except.map]

/-! ## Looking before following -/

/-- The last piece of a path is looked up from where the pieces before it lead. -/
theorem follow_pieces (here : Arrival) (p : Path) :
    v.follow [] here p.pieces =
      match v.follow [] here p.pieces.dropLast with
      | .error fault => .error fault
      | .ok reached => v.follow [] reached [p.pieces.getLastD []] := by
  obtain ⟨init, last, h⟩ :=
    (List.eq_nil_or_concat p.pieces).resolve_left (Path.pieces_ne_nil p)
  rw [h, List.concat_eq_append, List.dropLast_concat, List.getLastD_concat]
  exact follow_append v [] here init [last]

/-- **A root leads where its path leads.** What keeps a path from being looked at keeps it from
being looked up, and only a link makes a difference between the two. -/
theorem enterRoot_eq_arrive (v : Volume) (root : Path) : v.enterRoot root = v.arrive root := by
  unfold enterRoot peek
  cases hrefusal : v.refusal? root with
  | some fault => simp only [arrive, hrefusal]
  | none =>
    have harrive : v.arrive root = v.follow [] ⟨origin v.home root, 0⟩ root.pieces := by
      simp only [arrive, hrefusal]
    rw [harrive, follow_pieces]
    cases v.follow [] ⟨origin v.home root, 0⟩ root.pieces.dropLast with
    | error fault => rfl
    | ok reached =>
      cases hstep : v.step reached.loc (root.pieces.getLastD []) with
      | error fault => simp only [hstep, follow_fault hstep]
      | ok last =>
        cases hlink : v.hasLink last with
        | true => simp only [hstep, hlink, if_true]
        | false =>
          simp only [hstep, hlink, Bool.false_eq_true, if_false, follow_piece hstep hlink,
            follow_nil]

/-- A walk starts where its root leads. -/
theorem collect_eq_arrive (v : Volume) (root : Path) :
    v.collect root =
      match v.arrive root with
      | .error fault => .error (.access root fault)
      | .ok there =>
        if v.hasFolder there.loc then v.walk [] ⟨there, root⟩ (v.names there.loc)
        else .ok [root] := by
  rw [← enterRoot_eq_arrive]
  rfl

end Volume

end InkLint
