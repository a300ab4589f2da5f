import InkLint.Proofs.Output.Console
import InkLint.Proofs.Output.Document
import InkLint.Proofs.Scan.Contract

/-!
# Reports into a bounded sink

Whatever is done with a reporter, a sink with a limit ends up with a beginning of what a sink without
one would get, and as much of it as fits (`bounded_output`). It takes some care to see why. A call
that fails skips what it had still to write, and a scan ends with the call that failed, so with a
limit fewer calls are made. But the sink is full by then, and the reporter keeps nothing else that a
skipped call would have changed: a console reporter has no other state, and the calls of a scan that
a JSON reporter learns something from come before the only one that can fail.
-/

namespace InkLint

/-- A sink that takes so many bytes in all. -/
def Sink.upTo (limit : Nat) : Sink :=
  { limit := some limit }

theorem Sink.cut_empty (limit : Nat) : ({} : Sink).cut limit = .upTo limit := by
  simp [cut, upTo]

variable {limit : Nat}

/-! ## The console -/

namespace Console

variable {sink : Sink}

/-- Takes everything. -/
def IsOpen (sink : Sink) : Prop :=
  sink.limit = none ∧ sink.flushable = true

theorem isOpen_play (colored : Bool) (calls : List Call) (h : IsOpen sink) :
    IsOpen ((reporter colored).play calls sink).2 := by
  rw [play_unlimited colored calls h.1 h.2]
  exact h

theorem session_cut (limit : Nat) (colored : Bool) (uses : List Use) :
    IsOpen ((reporter colored).session uses {}) ∧
      (reporter colored).session uses (.upTo limit) =
        ((reporter colored).session uses {}).cut limit := by
  rw [← Sink.cut_empty]
  refine (reporter colored).session_commutes IsOpen (Sink.cut limit) ?_ ?_ uses ⟨rfl, rfl⟩
  · intro sink u h
    rw [Reporter.use_eq_play]
    exact isOpen_play colored u.calls h
  · intro sink u h
    rw [Reporter.use_eq_play, Reporter.use_eq_play]
    exact play_cut colored u.calls h.1 h.2

end Console

/-! ## Documents -/

namespace Document

variable {doc : Document} {sink : Sink}

/-- The reporter as it would be if its sink had had a limit all the time. -/
def cut (limit : Nat) (doc : Document) : Document :=
  { doc with sink := doc.sink.cut limit }

/-- What is written of a document: its text, and the line end if the text is whole. -/
theorem write_snd (sink : Sink) (json : Json) :
    (write sink json).2 =
      (sink.write (Utf8.encode
        ((json.render 0).text ++ if (json.render 0).isWhole then ['\n'] else []))).2 := by
  rw [Utf8.encode_append, Sink.write_append, write]
  cases sink.write (Utf8.encode (json.render 0).text) with
  | mk answer written =>
    cases answer with
    | error fault => rfl
    | ok _ =>
      by_cases hwhole : (json.render 0).isWhole = true
      · simp only [hwhole, if_true]
        cases written.write (Utf8.encode ['\n']) with
        | mk answer final => cases answer <;> rfl
      · simp [hwhole, Sink.write, Sink.room]

theorem write_cut (h : sink.limit = none) (json : Json) :
    (write (sink.cut limit) json).2 = (write sink json).2.cut limit := by
  rw [write_snd, write_snd, Sink.write_cut limit h]

theorem handle_finish (summary : Summary) (doc : Document) :
    reporter.handle (.finish summary) doc =
      ((write doc.sink (value doc.target doc.files summary)).1,
        { doc with sink := (write doc.sink (value doc.target doc.files summary)).2 }) :=
  rfl

theorem handle_cut (h : doc.sink.limit = none) (call : Call) :
    (reporter.handle call (doc.cut limit)).2 = (reporter.handle call doc).2.cut limit := by
  cases call with
  | begin target => rfl
  | file report => by_cases hflag : report.isFlagged = true <;> simp [reporter, cut, hflag]
  | finish summary => simp only [handle_finish, cut, write_cut h]

theorem limit_handle (call : Call) (doc : Document) :
    (reporter.handle call doc).2.sink.limit = doc.sink.limit := by
  cases call with
  | begin target => rfl
  | file report => by_cases hflag : report.isFlagged = true <;> simp [reporter, hflag]
  | finish summary =>
    rw [handle_finish, write_snd]
    rfl

/-- Only the last call of a document fails. -/
theorem handle_ok (call : Call) (h : ∀ summary, call ≠ .finish summary) (doc : Document) :
    (reporter.handle call doc).1 = .ok () := by
  cases call with
  | begin target => rfl
  | file report => rfl
  | finish summary => exact absurd rfl (h summary)

theorem play_ok {calls : List Call} (h : ∀ summary, .finish summary ∉ calls) (doc : Document) :
    (reporter.play calls doc).1 = .ok () := by
  induction calls generalizing doc with
  | nil => rfl
  | cons call calls ih =>
    have hcall := handle_ok call (fun summary heq => h summary (by simp [heq])) doc
    rw [Reporter.play]
    cases hhandle : reporter.handle call doc with
    | mk answer next =>
      rw [hhandle] at hcall
      cases hcall
      exact ih (fun summary hmem => h summary (List.mem_cons_of_mem _ hmem)) next

theorem limit_play (calls : List Call) (doc : Document) :
    (reporter.play calls doc).2.sink.limit = doc.sink.limit := by
  induction calls generalizing doc with
  | nil => rfl
  | cons call calls ih =>
    have hcall := limit_handle call doc
    rw [Reporter.play]
    cases hhandle : reporter.handle call doc with
    | mk answer next =>
      rw [hhandle] at hcall
      cases answer with
      | error error => exact hcall
      | ok _ => exact (ih next).trans hcall

/-- The calls before the last go well with a limit and without one, and the last may fail. -/
theorem play_cut {calls : List Call} (hlast : ∀ summary, .finish summary ∉ calls.dropLast)
    (h : doc.sink.limit = none) :
    (reporter.play calls (doc.cut limit)).2 = (reporter.play calls doc).2.cut limit := by
  induction calls using List.reverseRecOn with
  | nil => rfl
  | append_singleton calls call ih =>
    rw [List.dropLast_concat] at hlast
    have hbefore := ih fun summary hmem => hlast summary (List.mem_of_mem_dropLast hmem)
    have hfree := play_ok hlast doc
    have hcut := play_ok hlast (doc.cut limit)
    have hlimit := (limit_play calls doc).trans h
    rw [Reporter.play_append, Reporter.play_append]
    cases hplay : reporter.play calls doc with
    | mk answer reached =>
      cases hplay' : reporter.play calls (doc.cut limit) with
      | mk answer' reached' =>
        rw [hplay] at hfree hbefore hlimit
        rw [hplay'] at hcut hbefore
        cases hfree
        cases hcut
        subst hbefore
        simp only [Reporter.play_singleton]
        exact handle_cut hlimit call

theorem session_cut (limit : Nat) (uses : List Use) :
    (reporter.session uses {}).sink.limit = none ∧
      reporter.session uses { sink := .upTo limit } = (reporter.session uses {}).cut limit := by
  rw [← Sink.cut_empty]
  refine reporter.session_commutes (fun doc => doc.sink.limit = none) (cut limit) ?_ ?_ uses rfl
  · intro doc u h
    rw [Reporter.use_eq_play, limit_play, h]
  · intro doc u h
    rw [Reporter.use_eq_play, Reporter.use_eq_play]
    exact play_cut u.finish_not_mem_dropLast h

/-- How writing a whole document ends: its text must fit, and then the line end. -/
theorem write_cut_fst {json : Json} {text : List Char} (hrender : json.render 0 = ⟨text, true⟩)
    (htext : text ≠ []) (h : sink.limit = none) :
    (write (sink.cut limit) json).1 =
      if limit < (sink.content ++ Utf8.encode text).length then
        .error (.document (.write .outputFull))
      else if (sink.content ++ Utf8.encode text).length = limit then .error (.output .outputFull)
      else .ok () := by
  have hwrite := Sink.write_cut limit h (Utf8.encode text)
  have hnewline := Sink.write_cut (s := { sink with
    content := sink.content ++ Utf8.encode text }) limit h (Utf8.encode ['\n'])
  simp only [Sink.write_unlimited h, Utf8.encode_eq_nil_iff, htext, false_or] at hwrite
  simp only [Utf8.encode_eq_nil_iff, List.cons_ne_nil, false_or] at hnewline
  by_cases hlong : limit < (sink.content ++ Utf8.encode text).length
  · rw [if_neg (by omega)] at hwrite
    simp only [write, hrender, hwrite, if_pos hlong]
  · rw [if_pos (by omega)] at hwrite
    have hend : (sink.content ++ Utf8.encode text ++ Utf8.encode ['\n']).length =
        (sink.content ++ Utf8.encode text).length + 1 := by
      rw [List.length_append]
      rfl
    by_cases hfull : (sink.content ++ Utf8.encode text).length = limit
    · rw [if_neg (by omega)] at hnewline
      simp only [write, hrender, hwrite, hnewline, if_neg hlong, if_pos hfull, if_true]
    · rw [if_pos (by omega)] at hnewline
      simp only [write, hrender, hwrite, hnewline, if_neg hlong, if_neg hfull, if_true]

/-- How the last call ends, with a limit and without one, if all paths are texts. -/
theorem finish_cut (h : doc.sink.limit = none) (htext : doc.IsText) (summary : Summary) :
    ∃ text : Bytes,
      (reporter.handle (.finish summary) doc).1 = .ok () ∧
      (reporter.handle (.finish summary) doc).2.sink.content =
        doc.sink.content ++ text ++ Utf8.encode ['\n'] ∧
      (reporter.handle (.finish summary) (doc.cut limit)).1 =
        if limit < (doc.sink.content ++ text).length then .error (.document (.write .outputFull))
        else if (doc.sink.content ++ text).length = limit then .error (.output .outputFull)
        else .ok () := by
  obtain ⟨text, hrender, -, hvalue⟩ := writes_document htext summary
  obtain ⟨c, rest, rfl, -⟩ := hvalue.head
  refine ⟨Utf8.encode (c :: rest), ?_, ?_, ?_⟩
  · rw [finish_of_render h hrender]
  · rw [finish_of_render h hrender, Utf8.encode_append, List.append_assoc]
  · simp only [handle_finish, cut]
    exact write_cut_fst hrender (List.cons_ne_nil c rest) h

end Document

/-! ## Whatever is done with a reporter -/

/-- The calls of a use begin with those earlier ones, and then comes this one. -/
def Use.Makes (u : Use) (earlier : List Call) (call : Call) : Prop :=
  ∃ later, u.calls = earlier ++ call :: later

/-- The state in which a reporter receives a call: it has been through the uses before, and none of
the earlier calls of the same use has failed. -/
def Reporter.Reaches {σ : Type} (r : Reporter σ) (start : σ) (before : List Use)
    (earlier : List Call) (state : σ) : Prop :=
  r.play earlier (r.session before start) = (.ok (), state)

theorem Console.answer_upTo {colored : Bool} {before : List Use} {earlier : List Call}
    {bounded : Sink} (call : Call)
    (h : (reporter colored).Reaches (.upTo limit) before earlier bounded) :
    ∃ free, (reporter colored).Reaches {} before earlier free ∧
      ((reporter colored).handle call bounded).1 =
        if ((reporter colored).handle call free).2.content = free.content ∨
            ((reporter colored).handle call free).2.content.length ≤ limit then .ok ()
        else .error (.output .outputFull) := by
  obtain ⟨hopen, hsession⟩ := session_cut limit colored before
  have hfree := play_unlimited colored earlier hopen.1 hopen.2
  have hreached := isOpen_play colored earlier hopen
  have hcut : _ = Sink.cut limit _ := play_cut colored earlier hopen.1 hopen.2
  rw [← hsession, show (reporter colored).play earlier _ = (.ok (), bounded) from h] at hcut
  cases hplay : (reporter colored).play earlier ((reporter colored).session before {}) with
  | mk answer free =>
    obtain rfl : answer = .ok () := congrArg Prod.fst (hplay.symm.trans hfree)
    rw [hplay] at hreached hcut
    obtain rfl : bounded = free.cut limit := hcut
    refine ⟨free, hplay, ?_⟩
    rw [handle_cut colored call hreached.1 hreached.2]

theorem Document.answer_upTo {before : List Use} {u : Use} {earlier : List Call} {bounded : Document}
    {summary : Summary} (hmakes : u.Makes earlier (.finish summary))
    (h : reporter.Reaches { sink := .upTo limit } before earlier bounded) (htext : bounded.IsText) :
    ∃ free text, reporter.Reaches {} before earlier free ∧
      (reporter.handle (.finish summary) free).1 = .ok () ∧
      (reporter.handle (.finish summary) free).2.sink.content =
        free.sink.content ++ text ++ Utf8.encode ['\n'] ∧
      (reporter.handle (.finish summary) bounded).1 =
        if limit < (free.sink.content ++ text).length then .error (.document (.write .outputFull))
        else if (free.sink.content ++ text).length = limit then .error (.output .outputFull)
        else .ok () := by
  obtain ⟨later, hcalls⟩ := hmakes
  have hearlier := Use.finish_not_mem_of_calls hcalls
  obtain ⟨hopen, hsession⟩ := session_cut limit before
  have hanswer := play_ok hearlier (reporter.session before {})
  have hlimit := (limit_play earlier (reporter.session before {})).trans hopen
  have hcut : _ = cut limit _ :=
    play_cut (fun summary hmem => hearlier summary (List.mem_of_mem_dropLast hmem)) hopen
  rw [← hsession, show reporter.play earlier _ = (.ok (), bounded) from h] at hcut
  cases hplay : reporter.play earlier (reporter.session before {}) with
  | mk answer free =>
    rw [hplay] at hanswer hlimit hcut
    cases hanswer
    obtain rfl : bounded = free.cut limit := hcut
    change free.sink.limit = none at hlimit
    obtain ⟨text, hfinish⟩ := finish_cut hlimit ⟨htext.target, htext.files⟩ summary
    exact ⟨free, text, hplay, hfinish⟩

/-- **A bounded sink gets a beginning of the report.** Whatever is done with a reporter, be it calls
or scans and whether they fail or not, a sink that takes so many bytes ends up with exactly the first
bytes of what a sink without a limit would get. A call of a console reporter fails if it has something
to write and what is written up to its end, without a limit, exceeds the limit. A document that can
be written fails as a document if what is written up to the end of its text exceeds the limit, and
fails at the line end after it if it just fits. -/
theorem bounded_output (limit : Nat) :
    (∀ colored uses,
      ((Console.reporter colored).session uses (.upTo limit)).content =
        ((Console.reporter colored).session uses {}).content.take limit) ∧
    (∀ uses,
      (Document.reporter.session uses { sink := .upTo limit }).sink.content =
        (Document.reporter.session uses {}).sink.content.take limit) ∧
    (∀ colored before earlier call bounded,
      (Console.reporter colored).Reaches (.upTo limit) before earlier bounded →
      ∃ free, (Console.reporter colored).Reaches {} before earlier free ∧
        ((Console.reporter colored).handle call bounded).1 =
          if ((Console.reporter colored).handle call free).2.content = free.content ∨
              ((Console.reporter colored).handle call free).2.content.length ≤ limit then .ok ()
          else .error (.output .outputFull)) ∧
    (∀ before u earlier summary bounded, Use.Makes u earlier (.finish summary) →
      Document.reporter.Reaches { sink := .upTo limit } before earlier bounded → bounded.IsText →
      ∃ free text, Document.reporter.Reaches {} before earlier free ∧
        (Document.reporter.handle (.finish summary) free).1 = .ok () ∧
        (Document.reporter.handle (.finish summary) free).2.sink.content =
          free.sink.content ++ text ++ Utf8.encode ['\n'] ∧
        ((∃ cause, (Document.reporter.handle (.finish summary) bounded).1 =
            .error (.document cause)) ↔ limit < (free.sink.content ++ text).length) ∧
        ((∃ cause, (Document.reporter.handle (.finish summary) bounded).1 =
            .error (.output cause)) ↔ (free.sink.content ++ text).length = limit)) := by
  refine ⟨?_, ?_, ?_, ?_⟩
  · intro colored uses
    rw [(Console.session_cut limit colored uses).2]
    rfl
  · intro uses
    rw [(Document.session_cut limit uses).2]
    rfl
  · intro colored before earlier call bounded hreaches
    exact Console.answer_upTo call hreaches
  · intro before u earlier summary bounded hmakes hreaches htext
    obtain ⟨free, text, hfree, hok, hcontent, hanswer⟩ :=
      Document.answer_upTo hmakes hreaches htext
    refine ⟨free, text, hfree, hok, hcontent, ?_, ?_⟩
    · rw [hanswer]
      generalize (free.sink.content ++ text).length = total
      by_cases hlong : limit < total
      · simp [hlong]
      · by_cases hfull : total = limit <;> simp [hlong, hfull]
    · rw [hanswer]
      generalize (free.sink.content ++ text).length = total
      by_cases hlong : limit < total
      · simp [hlong, hlong.ne']
      · by_cases hfull : total = limit <;> simp [hlong, hfull]

/-- A scan whose second call does not fit, and a document that does not fit. -/
theorem bounded_output_disguised :
    Use.Makes (.scan disguised "d") [.begin "d"] (.file (.ofContent "d/s/b.css" "grid")) ∧
    (∃ bounded, (Console.reporter true).Reaches (.upTo 64) [] [.begin "d"] bounded ∧
      ((Console.reporter true).handle (.file (.ofContent "d/s/b.css" "grid")) bounded).1 =
        .error (.output .outputFull)) ∧
    Use.Makes (.call (.finish {})) [] (.finish {}) ∧
    ∃ bounded, Document.reporter.Reaches { sink := .upTo 9 } [.call (.begin "d")] [] bounded ∧
      bounded.IsText ∧
      ∃ cause, (Document.reporter.handle (.finish {}) bounded).1 = .error (.document cause) := by
  obtain ⟨-, -, hconsole, -⟩ := bounded_output 64
  obtain ⟨-, -, -, hdocument⟩ := bounded_output 9
  have hmakes : Use.Makes (.scan disguised "d") [.begin "d"]
      (.file (.ofContent "d/s/b.css" "grid")) := by
    rw [Use.Makes, Use.calls, resolve_disguised]
    dsimp only [scanCalls]
    rw [lintAll_disguised]
    exact ⟨_, rfl⟩
  have hfinish : Use.Makes (.call (.finish {})) [] (.finish {}) := ⟨[], rfl⟩
  refine ⟨hmakes, ?_, hfinish, ?_⟩
  · have hbegin : (Utf8.encode (Console.text true (.begin "d"))).length = 61 := by
      decide +kernel
    have hfile : 3 < (Utf8.encode (Console.text true
        (.file (.ofContent "d/s/b.css" "grid")))).length := by
      decide +kernel
    have hreaches : (Console.reporter true).Reaches (.upTo 64) [] [.begin "d"]
        (((Console.reporter true).handle (.begin "d") {}).2.cut 64) := by
      show (Console.reporter true).play [.begin "d"] (.upTo 64) = _
      rw [Reporter.play_singleton, ← Sink.cut_empty, Console.handle_cut _ _ rfl rfl, if_pos]
      rw [Console.handle_unlimited _ _ rfl rfl]
      exact .inr (by simp [hbegin])
    obtain ⟨free, hfree, hanswer⟩ := hconsole true [] _ _ _ hreaches
    obtain rfl : ((Console.reporter true).play [.begin "d"] {}).2 = free :=
      congrArg Prod.snd hfree
    refine ⟨_, hreaches, ?_⟩
    rw [hanswer, if_neg]
    rw [Reporter.play_singleton, Console.handle_unlimited _ _ rfl rfl,
      Console.handle_unlimited _ _ rfl rfl]
    rintro (hsame | hfits)
    · have hnil := congrArg List.length hsame
      simp only [List.length_append] at hnil
      omega
    · simp only [List.length_append] at hfits
      omega
  · have hreaches : Document.reporter.Reaches { sink := .upTo 9 } [.call (.begin "d")] []
        { sink := .upTo 9, target := "d" } := rfl
    refine ⟨_, hreaches, by decide, ?_⟩
    obtain ⟨free, text, hfree, -, hcontent, hlong, -⟩ :=
      hdocument _ _ _ _ _ hfinish hreaches (by decide)
    obtain rfl : { target := "d" } = free := congrArg Prod.snd hfree
    have htotal : 10 < (Document.reporter.handle (.finish {})
        { target := "d" }).2.sink.content.length := by
      decide +kernel
    have hnewline : (Utf8.encode ['\n']).length = 1 := rfl
    rw [hcontent, List.length_append, hnewline] at htotal
    exact hlong.2 (by omega)

end InkLint
