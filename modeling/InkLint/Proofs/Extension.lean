import InkLint.Category
import InkLint.Proofs.Join
import Mathlib

/-!
# What a path is linted as

The category of a path is found from its end: pieces that stay where they are do not count, the
piece in front of them is the file name unless it is `..`, and the extension is what follows the
last dot of the name unless that dot stands first. Here the same is said as a grammar of paths, over
all byte strings (`Category.ofPath_exact`): a path with a known extension is anything that ends in a
slash, or nothing, then a name with the extension, then slashes with or without a dot after each of
them.

The way from the one to the other goes through the pieces: `fileName?_eq_some_iff` says which pieces
a path with a file name has, and `nameExtension?_eq_some_iff` what a name with an extension looks
like.
-/

namespace InkLint

/-- The last element that fails a test, with what stands before and behind it. -/
theorem reverse_dropWhile_eq_cons_iff {α : Type} {test : α → Bool} {l before : List α} {x : α} :
    l.reverse.dropWhile test = x :: before ↔
      test x = false ∧
        ∃ behind, l = before.reverse ++ x :: behind ∧ ∀ y ∈ behind, test y = true := by
  constructor
  · intro h
    have hhead := List.head_dropWhile_not test (l := l.reverse) (by simp [h])
    have hsplit := List.takeWhile_append_dropWhile (p := test) (l := l.reverse)
    rw [h] at hsplit
    refine ⟨by simpa only [h, List.head_cons] using hhead, (l.reverse.takeWhile test).reverse,
      ?_, ?_⟩
    · have hl := congrArg List.reverse hsplit
      rw [List.reverse_append, List.reverse_cons, List.reverse_reverse] at hl
      exact hl.symm.trans (List.append_assoc ..)
    · intro y hy
      exact List.all_eq_true.1 List.all_takeWhile y (List.mem_reverse.1 hy)
  · rintro ⟨hx, behind, rfl, hbehind⟩
    rw [List.reverse_append, List.reverse_cons, List.append_assoc, List.reverse_reverse,
      List.dropWhile_append_of_pos fun y hy => hbehind y (List.mem_reverse.1 hy),
      List.singleton_append, List.dropWhile_cons_of_neg (by simp [hx])]

namespace Path

variable {p : Path} {name : Name}

/-! ## Pieces -/

theorem staysPut_iff {piece : Name} : staysPut piece = true ↔ piece = [] ∨ piece = here := by
  simp [staysPut]

theorem staysPut_eq_false (hne : name ≠ []) (hhere : name ≠ here) : staysPut name = false :=
  Bool.eq_false_iff.2 fun h => (staysPut_iff.1 h).elim hne hhere

theorem slash_not_mem_of_mem_pieces {piece : Name} (h : piece ∈ p.pieces) : slash ∉ piece := by
  induction p generalizing piece with
  | nil =>
    have hnil : pieces [] = [[]] := rfl
    rw [hnil, List.mem_singleton] at h
    simp [h]
  | cons c p ih =>
    rw [pieces, List.splitOn_cons_eq_if_modifyHead] at h
    split at h
    · rcases List.mem_cons.1 h with rfl | h
      · simp
      · exact ih h
    · rename_i hc
      obtain ⟨first, others, hpieces⟩ := List.exists_cons_of_ne_nil (pieces_ne_nil p)
      rw [← pieces, hpieces, List.modifyHead_cons] at h
      rcases List.mem_cons.1 h with rfl | h
      · have hfirst : slash ∉ first := ih (by simp [hpieces])
        have hne : slash ≠ c := fun heq => hc (by simp [heq])
        simp [hfirst, hne]
      · exact ih (by simp [hpieces, h])

/-- A path is its pieces with slashes between them. -/
theorem eq_of_pieces {before behind : List Name} (h : p.pieces = before ++ name :: behind) :
    p = before.flatMap (· ++ [slash]) ++ name ++ behind.flatMap (slash :: ·) := by
  have hbehind (first : Name) (others : List Name) :
      [slash].intercalate (first :: others) = first ++ others.flatMap (slash :: ·) := by
    induction others generalizing first with
    | nil => simp
    | cons second others ih => rw [List.intercalate_cons_cons, ih]; simp
  have hp : [slash].intercalate p.pieces = p := List.intercalate_splitOn slash
  rw [← hp, h]
  clear h hp
  induction before with
  | nil => simpa using hbehind name behind
  | cons first before ih =>
    obtain ⟨second, others, hsecond⟩ :=
      List.exists_cons_of_ne_nil (show before ++ name :: behind ≠ [] by simp)
    rw [hsecond] at ih
    rw [List.cons_append, hsecond, List.intercalate_cons_cons, ih]
    simp

/-- The pieces of a name and what is trailing behind it. -/
theorem pieces_append_steps {steps : List Bytes} (hname : slash ∉ name)
    (hsteps : ∀ s ∈ steps, s = [slash] ∨ s = [slash, dot]) :
    pieces (name ++ steps.flatten) = name :: steps.map List.tail := by
  induction steps generalizing name with
  | nil => simpa using pieces_of_no_slash hname
  | cons s steps ih =>
    have hrest (piece : Name) (hpiece : slash ∉ piece) :
        pieces (name ++ slash :: (piece ++ steps.flatten)) =
          name :: piece :: steps.map List.tail := by
      rw [pieces_append_slash, pieces_of_no_slash hname,
        ih hpiece fun s hs => hsteps s (List.mem_cons_of_mem _ hs)]
      rfl
    rcases hsteps s (by simp) with rfl | rfl
    · exact hrest [] (by simp)
    · exact hrest [dot] (by decide)

/-! ## The file name -/

/-- The file name is the last piece that counts. -/
theorem fileName?_eq_some_iff :
    p.fileName? = some name ↔
      staysPut name = false ∧ name ≠ up ∧
        ∃ before behind, p.pieces = before ++ name :: behind ∧
          ∀ piece ∈ behind, staysPut piece = true := by
  unfold fileName?
  cases hdrop : p.pieces.reverse.dropWhile staysPut with
  | nil =>
    refine ⟨fun h => (by cases h), ?_⟩
    rintro ⟨hname, -, before, behind, hpieces, -⟩
    rw [List.dropWhile_eq_nil_iff] at hdrop
    have hstays := hdrop name (by simp [hpieces])
    rw [hname] at hstays
    cases hstays
  | cons last before =>
    constructor
    · intro h
      by_cases hup : last = up
      · simp [hup] at h
      · obtain rfl : last = name := by simpa [hup] using h
        obtain ⟨hname, behind, hpieces, hbehind⟩ := reverse_dropWhile_eq_cons_iff.1 hdrop
        exact ⟨hname, hup, before.reverse, behind, hpieces, hbehind⟩
    · rintro ⟨hname, hup, front, behind, hpieces, hbehind⟩
      have hfront := reverse_dropWhile_eq_cons_iff.2
        ⟨hname, behind, (List.reverse_reverse front).symm ▸ hpieces, hbehind⟩
      rw [hdrop, List.cons.injEq] at hfront
      simp [hfront.1, hup]

/-- What may stand behind the name of a file: slashes, each with or without a dot after it. -/
def IsTrailing (t : Bytes) : Prop :=
  ∃ steps : List Bytes, (∀ s ∈ steps, s = [slash] ∨ s = [slash, dot]) ∧ t = steps.flatten

/-- What may stand in front of it: nothing, or anything that ends in a slash. -/
def IsLeading (q : Bytes) : Prop :=
  q = [] ∨ ∃ d, q = d ++ [slash]

/-- A path with a file name, written out. -/
theorem fileName?_iff_exists :
    p.fileName? = some name ↔
      staysPut name = false ∧ name ≠ up ∧ slash ∉ name ∧
        ∃ q t, p = q ++ name ++ t ∧ IsLeading q ∧ IsTrailing t := by
  rw [fileName?_eq_some_iff]
  refine and_congr_right fun hname => and_congr_right fun hup => ?_
  constructor
  · rintro ⟨before, behind, hpieces, hbehind⟩
    refine ⟨slash_not_mem_of_mem_pieces (p := p) (by simp [hpieces]), _, _,
      eq_of_pieces hpieces, ?_, behind.map (slash :: ·), ?_, List.flatMap_def⟩
    · rcases List.eq_nil_or_concat before with rfl | ⟨front, last, rfl⟩
      · exact .inl rfl
      · refine .inr ⟨front.flatMap (· ++ [slash]) ++ last, ?_⟩
        simp
    · intro s hs
      obtain ⟨piece, hpiece, rfl⟩ := List.mem_map.1 hs
      rcases staysPut_iff.1 (hbehind piece hpiece) with rfl | rfl
      · exact .inl rfl
      · exact .inr rfl
  · rintro ⟨hslash, q, t, rfl, hq, steps, hsteps, rfl⟩
    have hpieces := pieces_append_steps hslash hsteps
    have hstays : ∀ piece ∈ steps.map List.tail, staysPut piece = true := by
      intro piece hpiece
      obtain ⟨s, hs, rfl⟩ := List.mem_map.1 hpiece
      rcases hsteps s hs with rfl | rfl <;> decide
    rcases hq with rfl | ⟨d, rfl⟩
    · exact ⟨[], _, hpieces, hstays⟩
    · refine ⟨pieces d, _, ?_, hstays⟩
      rw [List.append_assoc, List.append_assoc, List.singleton_append, pieces_append_slash, hpieces]

/-! ## The extension -/

theorem nameExtension?_append {stem ext : Bytes} (hstem : stem ≠ []) (hext : dot ∉ ext) :
    nameExtension? (stem ++ dot :: ext) = some ext := by
  have hpass : ∀ c ∈ ext.reverse, (c != dot) = true := by
    intro c hc
    have hne : c ≠ dot := fun heq => hext (List.mem_reverse.1 (heq ▸ hc))
    simp [hne]
  obtain ⟨front, c, rfl⟩ := (List.eq_nil_or_concat stem).resolve_left hstem
  simp [nameExtension?, List.takeWhile_append_of_pos hpass, List.dropWhile_append_of_pos hpass]

/-- A name has an extension if its last dot does not stand first. -/
theorem nameExtension?_eq_some_iff {ext : Bytes} :
    nameExtension? name = some ext ↔
      dot ∉ ext ∧ ∃ stem, stem ≠ [] ∧ name = stem ++ dot :: ext := by
  constructor
  · intro h
    cases hdrop : name.reverse.dropWhile (· != dot) with
    | nil => simp [nameExtension?, hdrop] at h
    | cons c before =>
      obtain ⟨hc, behind, hname, hbehind⟩ := reverse_dropWhile_eq_cons_iff.1 hdrop
      obtain rfl : c = dot := by simpa using hc
      have hdot : dot ∉ behind := fun hmem => by simpa using hbehind dot hmem
      have hbefore : before ≠ [] := by
        rintro rfl
        simp [nameExtension?, hdrop] at h
      rw [hname, nameExtension?_append (by simpa using hbefore) hdot] at h
      obtain rfl := Option.some.inj h
      exact ⟨hdot, before.reverse, by simpa using hbefore, hname⟩
  · rintro ⟨hext, stem, hstem, rfl⟩
    exact nameExtension?_append hstem hext

/-- The path leads to a name with this extension, and then no further. -/
def EndsIn (p : Path) (ext : Bytes) : Prop :=
  ∃ q stem t, p = q ++ stem ++ dot :: ext ++ t ∧ IsLeading q ∧ stem ≠ [] ∧ slash ∉ stem ∧
    IsTrailing t

/-- An extension that is not empty and holds neither dots nor slashes is found where the grammar
puts it, and nowhere else. -/
theorem extension?_eq_some_iff {ext : Bytes} (hne : ext ≠ []) (hdot : dot ∉ ext)
    (hslash : slash ∉ ext) : p.extension? = some ext ↔ p.EndsIn ext := by
  rw [extension?, Option.bind_eq_some_iff]
  constructor
  · rintro ⟨name, hname, hext⟩
    obtain ⟨-, stem, hstem, rfl⟩ := nameExtension?_eq_some_iff.1 hext
    obtain ⟨-, -, hno, q, t, rfl, hq, ht⟩ := fileName?_iff_exists.1 hname
    refine ⟨q, stem, t, by simp, hq, hstem, fun hmem => hno (by simp [hmem]), ht⟩
  · rintro ⟨q, stem, t, rfl, hq, hstem, hno, ht⟩
    have hlong : 3 ≤ (stem ++ dot :: ext).length := by
      have hstem' := List.length_pos_iff.2 hstem
      have hext' := List.length_pos_iff.2 hne
      simp only [List.length_append, List.length_cons]
      omega
    refine ⟨stem ++ dot :: ext, fileName?_iff_exists.2 ⟨?_, ?_, ?_, q, t, by simp, hq, ht⟩,
      nameExtension?_append hstem hdot⟩
    · apply staysPut_eq_false
      · simp
      · intro heq
        simp [heq, here] at hlong
    · intro heq
      simp [heq, up] at hlong
    · simp [hno, hslash, show slash ≠ dot by decide]

theorem fileName?_append_slash (d : Path) (hne : name ≠ []) (hslash : slash ∉ name)
    (hhere : name ≠ here) (hup : name ≠ up) : fileName? (d ++ slash :: name) = some name := by
  refine fileName?_eq_some_iff.2 ⟨staysPut_eq_false hne hhere, hup, pieces d, [], ?_, by simp⟩
  rw [pieces_append_slash, pieces_of_no_slash hslash]

theorem fileName?_append_up (d : Path) : fileName? (d ++ slash :: up) = none := by
  have hup : pieces up = [up] := rfl
  have hstays : staysPut up = false := rfl
  simp [fileName?, pieces_append_slash, hup, hstays]

end Path

/-! ## Categories -/

namespace Category

/-- The known extensions and what they stand for. -/
def extensions : List (String × Category) :=
  [("js", script), ("ts", typedScript), ("html", markup), ("css", stylesheet)]

variable {ext : String} {c : Category}

/-- The known extensions are told apart by their categories. -/
theorem ofExtension_eq_iff (h : (ext, c) ∈ extensions) (bs : Bytes) :
    ofExtension bs = c ↔ bs = Bytes.ofString ext := by
  constructor
  · intro hbs
    unfold ofExtension at hbs
    fin_cases h <;> split_ifs at hbs <;> assumption
  · rintro rfl
    fin_cases h <;> decide

theorem plain_of_mem_extensions (h : (ext, c) ∈ extensions) :
    Bytes.ofString ext ≠ [] ∧ Path.dot ∉ Bytes.ofString ext ∧ Path.slash ∉ Bytes.ofString ext := by
  fin_cases h <;> decide

theorem ne_unsupported_of_mem_extensions (h : (ext, c) ∈ extensions) : c ≠ unsupported := by
  fin_cases h <;> decide

theorem ofPath_eq_iff (h : (ext, c) ∈ extensions) (p : Path) :
    ofPath p = c ↔ p.EndsIn (Bytes.ofString ext) := by
  obtain ⟨hne, hdot, hslash⟩ := plain_of_mem_extensions h
  rw [← Path.extension?_eq_some_iff hne hdot hslash, ofPath]
  cases p.extension? with
  | none => simpa using (ne_unsupported_of_mem_extensions h).symm
  | some bs => simpa using ofExtension_eq_iff h bs

/-- Every category but one has an extension. -/
theorem exists_extension (hc : c ≠ unsupported) : ∃ ext, (ext, c) ∈ extensions := by
  cases c with
  | script => exact ⟨"js", by simp [extensions]⟩
  | typedScript => exact ⟨"ts", by simp [extensions]⟩
  | markup => exact ⟨"html", by simp [extensions]⟩
  | stylesheet => exact ⟨"css", by simp [extensions]⟩
  | unsupported => exact absurd rfl hc

theorem ofPath_eq_unsupported_iff (p : Path) :
    ofPath p = unsupported ↔ ∀ e ∈ extensions, ¬p.EndsIn (Bytes.ofString e.1) := by
  constructor
  · rintro h ⟨ext, c⟩ hmem hends
    exact ne_unsupported_of_mem_extensions hmem (((ofPath_eq_iff hmem p).2 hends).symm.trans h)
  · intro h
    by_contra hc
    obtain ⟨ext, hmem⟩ := exists_extension hc
    exact h _ hmem ((ofPath_eq_iff hmem p).1 rfl)

/-! ## Names -/

theorem ofExtension_eq_unsupported {bs : Bytes} (h : ∀ e ∈ extensions, bs ≠ Bytes.ofString e.1) :
    ofExtension bs = unsupported := by
  simp only [extensions, List.forall_mem_cons] at h
  simp [ofExtension, h]

/-- What a name is linted as. The names `.` and `..` are no exception, since they have no extension
either. -/
theorem ofPath_name {name : Name} (hslash : Path.slash ∉ name) :
    ofPath name = ((Path.nameExtension? name).map ofExtension).getD unsupported := by
  by_cases hstays : Path.staysPut name = true
  · rcases Path.staysPut_iff.1 hstays with rfl | rfl <;> decide
  · by_cases hup : name = Path.up
    · subst hup
      decide
    · rw [Bool.not_eq_true] at hstays
      rw [ofPath, Path.extension?, Path.fileName?_of_name hslash hstays hup, Option.bind_some]
      cases Path.nameExtension? name <;> rfl

/-- A name that has its only dot in front has no extension. -/
theorem ofPath_dot_cons {bs : Bytes} (hslash : Path.slash ∉ bs) (hdot : Path.dot ∉ bs) :
    ofPath (Path.dot :: bs) = unsupported := by
  have hname : Path.slash ∉ Path.dot :: bs := by
    simp [hslash, show Path.slash ≠ Path.dot by decide]
  have hnone : Path.nameExtension? (Path.dot :: bs) = none := by
    refine Option.eq_none_iff_forall_ne_some.2 fun ext hext => ?_
    obtain ⟨-, stem, hstem, heq⟩ := Path.nameExtension?_eq_some_iff.1 hext
    obtain ⟨c, rest, rfl⟩ := List.exists_cons_of_ne_nil hstem
    rw [List.cons_append, List.cons.injEq] at heq
    exact hdot (by simp [heq.2])
  rw [ofPath_name hname, hnone]
  rfl

/-- A name whose extension is not known, to the letter, is not supported. -/
theorem ofPath_unknown {stem bs : Bytes} (hstem : Path.slash ∉ stem) (hslash : Path.slash ∉ bs)
    (hdot : Path.dot ∉ bs) (h : ∀ e ∈ extensions, bs ≠ Bytes.ofString e.1) :
    ofPath (stem ++ Path.dot :: bs) = unsupported := by
  by_cases hempty : stem = []
  · subst hempty
    exact ofPath_dot_cons hslash hdot
  · have hname : Path.slash ∉ stem ++ Path.dot :: bs := by
      simp [hstem, hslash, show Path.slash ≠ Path.dot by decide]
    rw [ofPath_name hname, Path.nameExtension?_append hempty hdot]
    exact ofExtension_eq_unsupported h

theorem ofPath_append_slash (d : Path) {name : Name} (hne : name ≠ []) (hslash : Path.slash ∉ name)
    (hhere : name ≠ Path.here) (hup : name ≠ Path.up) :
    ofPath (d ++ Path.slash :: name) = ofPath name := by
  have hstays := Path.staysPut_eq_false hne hhere
  rw [ofPath, ofPath, Path.extension?, Path.extension?,
    Path.fileName?_append_slash d hne hslash hhere hup, Path.fileName?_of_name hslash hstays hup]

/-- **What a path is linted as.** A path of any bytes has one of the four supported categories
exactly if it ends in a name with the extension of the category, in front of which stands nothing or
a slash, and behind which stand only slashes with or without a dot after them; every other path is
not supported. So the last piece decides, if it is a name, and `..` at the end is never supported. A
dot in front of a name starts no extension, and an extension is known only to the letter. -/
theorem ofPath_exact :
    (∀ p, ∀ e ∈ extensions, ofPath p = e.2 ↔ p.EndsIn (Bytes.ofString e.1)) ∧
    (∀ p, ofPath p = unsupported ↔ ∀ e ∈ extensions, ¬p.EndsIn (Bytes.ofString e.1)) ∧
    (∀ d name, name ≠ [] → Path.slash ∉ name → name ≠ Path.here → name ≠ Path.up →
      ofPath (d ++ Path.slash :: name) = ofPath name) ∧
    (∀ d, ofPath (d ++ Path.slash :: Path.up) = unsupported) ∧
    (∀ bs, Path.slash ∉ bs → Path.dot ∉ bs → ofPath (Path.dot :: bs) = unsupported) ∧
    (∀ stem bs, Path.slash ∉ stem → Path.slash ∉ bs → Path.dot ∉ bs →
      (∀ e ∈ extensions, bs ≠ Bytes.ofString e.1) →
      ofPath (stem ++ Path.dot :: bs) = unsupported) ∧
    ofPath (Bytes.ofString ".js") = unsupported ∧ ofPath (Bytes.ofString "a.js.") = unsupported ∧
    ofPath (Bytes.ofString "a.JS") = unsupported ∧ ofPath (Bytes.ofString "..js") = script := by
  refine ⟨fun p e he => ofPath_eq_iff he p, ofPath_eq_unsupported_iff,
    fun d name => ofPath_append_slash d, fun d => ?_, fun bs => ofPath_dot_cons,
    fun stem bs => ofPath_unknown, ?_⟩
  · rw [ofPath, Path.extension?, Path.fileName?_append_up]
    rfl
  · decide

/-- A stylesheet with a byte that is no text in its name, and with slashes and dots around it. -/
def oddPath : Path :=
  Bytes.ofString "d//" ++ [0xff] ++ Bytes.ofString "..css/./"

theorem ofPath_exact_odd :
    ("css", stylesheet) ∈ extensions ∧ ofPath oddPath = stylesheet ∧
    oddPath.EndsIn (Bytes.ofString "css") ∧
    (∀ e ∈ extensions, ¬Path.EndsIn (oddPath ++ Path.slash :: Path.up) (Bytes.ofString e.1)) ∧
    ofPath (oddPath ++ Path.slash :: Bytes.ofString "x.html") = markup ∧
    ofPath (Path.dot :: Bytes.ofString "css") = unsupported ∧
    (∀ e ∈ extensions, Bytes.ofString "CSS" ≠ Bytes.ofString e.1) ∧
    ofPath (Bytes.ofString "b.css" ++ Path.dot :: Bytes.ofString "CSS") = unsupported := by
  obtain ⟨hiff, hunsupported, hlast, hup, hdot, hunknown, -⟩ := ofPath_exact
  have hcss : ("css", stylesheet) ∈ extensions := by decide
  have hodd : ofPath oddPath = stylesheet := by decide
  have hhtml : ofPath (Bytes.ofString "x.html") = markup := by decide
  have hupper : ∀ e ∈ extensions, Bytes.ofString "CSS" ≠ Bytes.ofString e.1 := by decide
  refine ⟨hcss, hodd, (hiff oddPath _ hcss).1 hodd, (hunsupported _).1 (hup oddPath), ?_,
    hdot _ (by decide) (by decide), hupper,
    hunknown _ _ (by decide) (by decide) (by decide) hupper⟩
  rw [hlast oddPath _ (by decide) (by decide) (by decide) (by decide), hhtml]

end Category

end InkLint
