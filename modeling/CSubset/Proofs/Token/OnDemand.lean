-- SUMMARY: A scanner that is asked step by step has found a beginning of what the scan of the whole text finds.
import CSubset.Compile
import CSubset.Proofs.Token.LineEnds

/-!
# Scanning on demand

A scanner can be asked for the next token, for the errors it has met, and for all tokens that are
left, in any order. Whatever it is asked, it passes segments one by one and stops behind a lexeme
or at the end of the text (`Scanner.Passes`), so it has found a beginning of what `scan` finds. No
error of a segment stands outside of it, although inside of one errors are not met in the order in
which they stand. So the errors met are those in front of the place where the scanner has stopped.
-/

namespace CSubset

/-! ## Where errors stand -/

/-- The errors of segments stand in their texts. -/
theorem location_of_mem_place {ss : List Segment}
    (h : ∀ s ∈ ss, ∀ f ∈ s.faults, f.offset < s.text.length) {l : Location} {e : LexicalError}
    (he : e ∈ (Scan.place l ss).errors) :
    ¬ e.location.Before l ∧ e.location.Before (l.after (ss.flatMap Segment.text)) := by
  induction ss generalizing l with
  | nil => cases he
  | cons s rest ih =>
    obtain ⟨hhere, hrest⟩ := List.forall_mem_cons.mp h
    rw [List.flatMap_cons, Location.after_append]
    rcases List.mem_append.mp he with he | he
    · obtain ⟨f, hf, rfl⟩ := List.mem_map.mp he
      have hend := Location.after_take_before (hhere f hf) l
      exact ⟨Location.not_before_after _ _, hend.of_not_before (Location.not_before_after _ _)⟩
    · obtain ⟨hstart, hend⟩ := ih hrest he
      exact ⟨fun hl => hstart (hl.of_not_before (Location.not_before_after _ _)), hend⟩

theorem offset_lt_of_mem_segments (text : List Char) :
    ∀ s ∈ segments text, ∀ f ∈ s.faults, f.offset < s.text.length := by
  intro s hs
  obtain ⟨c, rest, rfl⟩ := mem_segments_first hs
  exact Segment.first_offset_lt c rest

/-- The errors in front of the end of some segments of a text are those of the segments up to
there. -/
theorem errors_before_end {text behind : List Char} {ss : List Segment}
    (h : segments text = ss ++ segments behind) (l : Location) :
    (Scan.place l (segments text)).errors.filter
        (fun e => e.location.Before (l.after (ss.flatMap Segment.text))) =
      (Scan.place l ss).errors := by
  have hinside := offset_lt_of_mem_segments text
  rw [h] at hinside ⊢
  obtain ⟨hss, hbehind⟩ := List.forall_mem_append.mp hinside
  have hfront := fun e he => decide_eq_true (location_of_mem_place hss (l := l) (e := e) he).2
  rw [Scan.place_append, List.filter_append, List.filter_eq_self.mpr hfront,
    List.filter_eq_nil_iff.mpr, List.append_nil]
  intro e he
  rw [decide_eq_true_iff]
  exact (location_of_mem_place hbehind he).1

namespace Scanner

/-! ## Requests -/

/-- What a scanner can be asked for: the next token, the errors it has met, or all tokens that are
left. -/
inductive Request where
  | next
  | errors
  | drain
deriving DecidableEq, Repr

/-- The answer to a request. -/
inductive Answer where
  | next (token : Option Token)
  | errors (met : List LexicalError)
  | drain (tokens : List Token)
deriving DecidableEq, Repr

/-- The tokens that an answer hands out. -/
def Answer.yielded : Answer → List Token
  | .next token => token.toList
  | .errors _ => []
  | .drain tokens => tokens

/-- Whether no token is left after an answer. -/
def Answer.isLast : Answer → Bool
  | .next token => token.isNone
  | .errors _ => false
  | .drain _ => true

/-- Answers a request. -/
def respond (s : Scanner) : Request → Answer × Scanner
  | .next => (.next s.next.1, s.next.2)
  | .errors => (.errors s.errors, s)
  | .drain => (.drain s.drain.1, s.drain.2)

/-- Answers requests one after the other. -/
def respondAll (s : Scanner) : List Request → List Answer × Scanner
  | [] => ([], s)
  | r :: rest =>
    let (answer, ahead) := s.respond r
    let (answers, behind) := ahead.respondAll rest
    (answer :: answers, behind)

/-! ## Passing segments -/

/-- A scanner passes segments on its way from one state to another: it meets their errors and hands
out their tokens. On its way it comes to the end of the text, or it stops behind a lexeme. -/
structure Passes (s : Scanner) (ss : List Segment) (tokens : List Token) (ended : Bool)
    (s' : Scanner) : Prop where
  ahead : segments s.rest = ss ++ segments s'.rest
  location : s'.location = s.location.after (ss.flatMap Segment.text)
  errors : s'.errors = s.errors ++ (Scan.place s.location ss).errors
  tokens : tokens = (Scan.place s.location ss).tokens
  stops : if ended then s'.rest = [] else
    ∀ x ∈ ss.getLast?, ∃ kind, x.content = .lexeme kind

theorem segments_eq_nil {text : List Char} (h : segments text = []) : text = [] := by
  cases text with
  | nil => rfl
  | cons c rest =>
    rw [segments] at h
    cases h

namespace Passes

variable {s s' s'' : Scanner} {ss ss' : List Segment} {ts ts' : List Token} {ended ended' : Bool}

theorem refl (s : Scanner) : Passes s [] [] false s :=
  ⟨rfl, rfl, (List.append_nil _).symm, rfl, nofun⟩

/-- At the end of the text nothing is passed. -/
theorem of_rest_nil (h : Passes s ss ts ended s') (hs : s.rest = []) : s'.rest = [] := by
  have hahead := h.ahead
  rw [hs, segments] at hahead
  exact segments_eq_nil (List.append_eq_nil_iff.mp hahead.symm).2

theorem trans (h : Passes s ss ts ended s') (h' : Passes s' ss' ts' ended' s'') :
    Passes s (ss ++ ss') (ts ++ ts') (ended || ended') s'' where
  ahead := by rw [h.ahead, h'.ahead, List.append_assoc]
  location := by rw [h'.location, h.location, List.flatMap_append, Location.after_append]
  errors := by rw [h'.errors, h.errors, h.location, Scan.place_append, List.append_assoc]
  tokens := by rw [h'.tokens, h.tokens, h.location, Scan.place_append]
  stops := by
    have hstops := h.stops
    have hstops' := h'.stops
    cases ended' with
    | true => rwa [Bool.or_true]
    | false =>
      cases ended with
      | true => exact h'.of_rest_nil hstops
      | false =>
        intro x hx
        rw [List.getLast?_append] at hx
        cases hlast : ss'.getLast? with
        | none =>
          rw [hlast] at hx
          exact hstops x hx
        | some y =>
          rw [hlast] at hx
          exact hstops' x (hlast ▸ hx)

/-- One segment in front of those that are passed. -/
theorem cons {c : Char} {rest : List Char} {l : Location} {errors : List LexicalError}
    (h : Passes ⟨rest.drop ((Segment.first c rest).text.length - 1),
      l.after (Segment.first c rest).text, errors ++ (Segment.first c rest).errors l⟩
      ss ts ended s')
    (hlast : ended = false → ss = [] → ∃ kind, (Segment.first c rest).content = .lexeme kind) :
    Passes ⟨c :: rest, l, errors⟩ (Segment.first c rest :: ss)
      (((Segment.first c rest).token? l).toList ++ ts) ended s' where
  ahead := by rw [segments, h.ahead, List.cons_append]
  location := by rw [h.location, List.flatMap_cons, Location.after_append]
  errors := by rw [h.errors, Scan.place, List.append_assoc]
  tokens := by rw [h.tokens, Scan.place]
  stops := by
    have hstops := h.stops
    cases ended with
    | true => exact hstops
    | false =>
      intro x hx
      cases hss : ss with
      | nil =>
        rw [hss] at hx
        cases hx
        exact hlast rfl hss
      | cons y ys =>
        rw [hss, List.getLast?_cons_cons, ← hss] at hx
        exact hstops x hx

/-- What is ahead is the tokens handed out on the way, and what is ahead then. -/
theorem drain (h : Passes s ss ts ended s') : s.drain = (ts ++ s'.drain.1, s'.drain.2) := by
  have htext : s.rest = ss.flatMap Segment.text ++ s'.rest := by
    rw [← (segments_partition s.rest []).1, h.ahead, List.flatMap_append,
      (segments_partition s'.rest []).1]
  have hend : s.location.after s.rest = s'.location.after s'.rest := by
    rw [htext, Location.after_append, h.location]
  simp only [Scanner.drain, h.ahead, hend, Scan.place_append, h.tokens, h.errors, h.location,
    List.append_assoc]

end Passes

theorem next_passes (s : Scanner) :
    ∃ ss, Passes s ss s.next.1.toList s.next.1.isNone s.next.2 := by
  fun_induction next s with
  | case1 l errors => exact ⟨[], rfl, rfl, (List.append_nil _).symm, rfl, rfl⟩
  | case2 c rest l errors first ahead t ht =>
    have hlexeme : ∃ kind, first.content = .lexeme kind := by
      unfold Segment.token? at ht
      split at ht
      · next kind hkind => exact ⟨kind, hkind⟩
      · cases ht
    have hcons := (Passes.refl ahead).cons fun _ _ => hlexeme
    rw [show (Segment.first c rest).token? l = some t from ht] at hcons
    exact ⟨[first], hcons⟩
  | case3 c rest l errors first ahead ht ih =>
    obtain ⟨ss, hss⟩ := ih
    have hcons := hss.cons fun hsome hnil => by
      have htokens := hss.tokens
      rw [hnil, Scan.place] at htokens
      rw [Option.toList_eq_nil_iff.mp htokens] at hsome
      cases hsome
    rw [show (Segment.first c rest).token? l = none from ht] at hcons
    exact ⟨first :: ss, hcons⟩

theorem drain_passes (s : Scanner) : Passes s (segments s.rest) s.drain.1 true s.drain.2 where
  ahead := by simp [drain, segments]
  location := by rw [(segments_partition s.rest []).1]; rfl
  errors := rfl
  tokens := rfl
  stops := rfl

theorem respond_passes (s : Scanner) (r : Request) :
    ∃ ss, Passes s ss (s.respond r).1.yielded (s.respond r).1.isLast (s.respond r).2 := by
  cases r with
  | next => exact s.next_passes
  | errors => exact ⟨[], .refl s⟩
  | drain => exact ⟨_, s.drain_passes⟩

/-- Whatever a scanner is asked, it passes segments and hands out their tokens. -/
theorem respondAll_passes (s : Scanner) (requests : List Request) :
    ∃ ss, Passes s ss ((s.respondAll requests).1.flatMap Answer.yielded)
      ((s.respondAll requests).1.any Answer.isLast) (s.respondAll requests).2 := by
  induction requests generalizing s with
  | nil => exact ⟨[], .refl s⟩
  | cons r rest ih =>
    obtain ⟨ss, h⟩ := s.respond_passes r
    obtain ⟨ss', h'⟩ := ih (s.respond r).2
    exact ⟨ss ++ ss', h.trans h'⟩

/-! ## Asking for one token after the other -/

theorem next_rest_lt {s : Scanner} {t : Token} (h : s.next.1 = some t) :
    s.next.2.rest.length < s.rest.length := by
  fun_induction next s with
  | case1 => cases h
  | case2 c rest l errors first ahead =>
    exact Nat.lt_succ_of_le (List.length_drop ▸ Nat.sub_le _ _)
  | case3 c rest l errors first ahead _ ih =>
    have hle : ahead.rest.length ≤ rest.length := List.length_drop ▸ Nat.sub_le _ _
    exact Nat.lt_succ_of_lt (Nat.lt_of_lt_of_le (ih h) hle)

/-- Asks for the next token until there is none, and collects the tokens. -/
def collect (s : Scanner) : List Token × Scanner :=
  match _hnext : s.next.1 with
  | none => ([], s.next.2)
  | some t => (t :: s.next.2.collect.1, s.next.2.collect.2)
termination_by s.rest.length
decreasing_by all_goals exact next_rest_lt _hnext

theorem drain_of_rest_nil {s : Scanner} (h : s.rest = []) : s.drain = ([], s) := by
  obtain ⟨rest, l, errors⟩ := s
  obtain rfl : rest = [] := h
  simp [drain, segments, Scan.place]

/-- The tokens that are left are those that are handed out one after the other. -/
theorem drain_eq_collect (s : Scanner) : s.drain = s.collect := by
  fun_induction collect s with
  | case1 s hnext =>
    obtain ⟨ss, hpasses⟩ := s.next_passes
    have hend := hpasses.stops
    rw [hnext] at hend
    rw [hpasses.drain, hnext, drain_of_rest_nil hend]
    rfl
  | case2 s t hnext ih =>
    obtain ⟨ss, hpasses⟩ := s.next_passes
    rw [hpasses.drain, hnext, ih]
    rfl

/-- Compiles with a scanner: the parser takes all tokens from it, and the errors it has met are
read off it afterwards. -/
def compile (s : Scanner) : Except CompileError Compilation :=
  match CompilationUnit.ofTokens? s.collect.1 with
  | .ok u => .ok ⟨u, s.collect.2.errors⟩
  | .error e => .error ⟨e, s.collect.2.errors⟩

/-! ## What has been found -/

theorem mem_placed_append (before : List Char) (ss : List Segment) (x : Segment)
    (behind : List Segment) :
    (before ++ ss.flatMap Segment.text, x) ∈ placed before (ss ++ x :: behind) := by
  induction ss generalizing before with
  | nil => simp [placed]
  | cons s rest ih =>
    rw [List.cons_append, placed, List.flatMap_cons, ← List.append_assoc]
    exact List.mem_cons_of_mem _ (ih _)

/-- The errors of a text in front of the end of the lexeme of a token of the text; without a token
there are none. -/
def ErrorsUpTo (source : String) : Option Token → List LexicalError → Prop
  | none, met => met = []
  | some t, met => ∃ p ∈ placed [] (segments source.toList), p.2.token? (.behind p.1) = some t ∧
      met = (scan source).errors.filter fun e => e.location.Before (.behind (p.1 ++ p.2.text))

namespace Passes

variable {source : String} {s : Scanner} {ss : List Segment} {ts : List Token}

/-- The tokens handed out are the first ones of a text. -/
theorem scan_tokens {ended : Bool} (h : Passes (ofSource source) ss ts ended s) :
    (scan source).tokens = ts ++ s.drain.1 :=
  congrArg Prod.fst h.drain

/-- At the end of the text its tokens have been handed out and its errors have been met. -/
theorem at_end (h : Passes (ofSource source) ss ts true s) :
    ts = (scan source).tokens ∧ s.errors = (scan source).errors := by
  have hahead : segments source.toList = ss ++ segments s.rest := h.ahead
  have hend : s.rest = [] := h.stops
  rw [hend, segments, List.append_nil] at hahead
  refine ⟨?_, ?_⟩
  · rw [scan, hahead, h.tokens]
    rfl
  · rw [scan, hahead, h.errors]
    rfl

/-- Before the end of the text the errors met are those in front of the end of the last token. -/
theorem errorsUpTo (h : Passes (ofSource source) ss ts false s) :
    ErrorsUpTo source ts.getLast? s.errors := by
  have hahead : segments source.toList = ss ++ segments s.rest := h.ahead
  have htokens : ts = (Scan.place .start ss).tokens := h.tokens
  have herrors : s.errors = (Scan.place .start ss).errors := h.errors
  have hmet := errors_before_end hahead .start
  rw [Location.after_start] at hmet
  rw [herrors, htokens]
  rcases List.eq_nil_or_concat' ss with rfl | ⟨init, x, rfl⟩
  · rfl
  · obtain ⟨kind, hkind⟩ := h.stops x List.getLast?_concat
    have htoken (l : Location) : x.token? l = some ⟨kind, l⟩ := by rw [Segment.token?, hkind]
    have hlast : (Scan.place .start (init ++ [x])).tokens.getLast? =
        some ⟨kind, .behind (init.flatMap Segment.text)⟩ := by
      rw [Scan.place_append, Location.after_start]
      simp [Scan.place, htoken]
    rw [hlast]
    refine ⟨(init.flatMap Segment.text, x), ?_, htoken _, ?_⟩
    · rw [hahead, List.append_assoc]
      exact mem_placed_append [] init x _
    · rw [List.flatMap_append, List.flatMap_singleton] at hmet
      exact hmet.symm

end Passes

/-- Whatever a scanner of a text is asked, the tokens it has handed out are the first ones of the
text, and all of them once there is no further one. The errors it has met by then are those in
front of the end of the last token handed out, or all errors of the text; to ask for them changes
nothing. The scan of the text is what a scanner collects token by token. Therefore a compilation
that takes the tokens from a scanner parses the tokens of the text, and with the unit or with the
syntax error it returns all errors of the text. -/
theorem respondAll_agrees_with_scan (source : String) (requests : List Request) :
    let run := (ofSource source).respondAll requests
    let yielded := run.1.flatMap Answer.yielded
    yielded <+: (scan source).tokens ∧
    (if run.1.any Answer.isLast then
      yielded = (scan source).tokens ∧ run.2.errors = (scan source).errors
    else ErrorsUpTo source yielded.getLast? run.2.errors) ∧
    run.2.respond .errors = (.errors run.2.errors, run.2) ∧
    run.2.drain = run.2.collect ∧
    scan source = ⟨(ofSource source).collect.1, (ofSource source).collect.2.errors⟩ ∧
    CSubset.compile source = (ofSource source).compile ∧
    (ofSource source).compile =
      match CompilationUnit.ofTokens? (scan source).tokens with
      | .ok u => .ok ⟨u, (scan source).errors⟩
      | .error e => .error ⟨e, (scan source).errors⟩ := by
  have hscan : scan source =
      ⟨(ofSource source).collect.1, (ofSource source).collect.2.errors⟩ := by
    rw [← drain_eq_collect]
    rfl
  have hcompile : CSubset.compile source = (ofSource source).compile := by
    rw [CSubset.compile, hscan]
    rfl
  obtain ⟨ss, hpasses⟩ := (ofSource source).respondAll_passes requests
  refine ⟨⟨_, hpasses.scan_tokens.symm⟩, ?_, rfl, drain_eq_collect _, hscan, hcompile,
    hcompile.symm⟩
  split
  · next hend => exact (hend ▸ hpasses).at_end
  · next hend => exact (Bool.eq_false_iff.mpr hend ▸ hpasses).errorsUpTo

/-- An illegal character has left no trace until the token behind it is asked for. -/
example : (ofSource "int @").respondAll [.next, .errors, .next, .errors] =
    ([.next (some ⟨.keyword .intKw, ⟨1, 1⟩⟩), .errors [], .next none,
      .errors [⟨.illegalCharacter '@', ⟨1, 5⟩⟩]],
      ⟨[], ⟨1, 6⟩, [⟨.illegalCharacter '@', ⟨1, 5⟩⟩]⟩) := by
  decide +kernel

end Scanner

end CSubset
