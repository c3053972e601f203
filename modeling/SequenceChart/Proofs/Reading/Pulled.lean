import SequenceChart.Proofs.Reading.Halting
import SequenceChart.Proofs.Reading.OnDemand
import SequenceChart.Proofs.Scanning.Delivered
set_option autoImplicit false

/-!
# Tokens pulled from lines

Taking lines on demand is told in three ways: line by line, by the calls to a stream of tokens, and
by the routines of a descent that pull one token ahead.  Main statement: all three come to the same
chart or fault, and they leave the same lines, for the descent makes one call for each token that it
pulls.
-/

namespace SequenceChart

open Scanner (Feeds)

/-! ## Reading what a stream delivers -/

namespace Reading

open TokenStream (due_eq_cons)

/-- Reads the tokens that a stream delivers up to the end of the input, and hands back the stream;
`line` and `column` are those of the token before. -/
def pull (r : Reading) (line column : Int) (stream : TokenStream) :
    Except SourceFault Reading × TokenStream :=
  match _hnext : stream.next with
  | (.ended, rest) => ((r.push (endAt line column)).mapError .syntax_, rest)
  | (.refused why, rest) => (.error (.scan why), rest)
  | (.token t, rest) =>
    match r.push t with
    | .error why => (.error (.syntax_ why), rest)
    | .ok r => if t.kind = .endOfInput then (.ok r, rest) else r.pull t.line t.column rest
termination_by stream.due.length
decreasing_by
  rw [due_eq_cons _hnext nofun]
  exact Nat.lt_succ_self _

variable {r r' : Reading} {line column : Int} {stream stream' : TokenStream} {t : Token}

theorem pull_of_ended (h : stream.next = (.ended, stream')) :
    r.pull line column stream = ((r.push (endAt line column)).mapError .syntax_, stream') := by
  rw [pull]
  split <;> cases h.symm.trans ‹stream.next = _›
  rfl

theorem pull_of_refused {why : Scanner.Refusal} (h : stream.next = (.refused why, stream')) :
    r.pull line column stream = (.error (.scan why), stream') := by
  rw [pull]
  split <;> cases h.symm.trans ‹stream.next = _›
  rfl

theorem pull_of_error {why : SyntaxFault} (h : stream.next = (.token t, stream'))
    (hpush : r.push t = .error why) :
    r.pull line column stream = (.error (.syntax_ why), stream') := by
  rw [pull]
  split <;> cases h.symm.trans ‹stream.next = _›
  rw [hpush]

theorem pull_of_end (h : stream.next = (.token t, stream')) (hend : t.kind = .endOfInput) :
    r.pull line column stream = ((r.push t).mapError .syntax_, stream') := by
  rw [pull]
  split <;> cases h.symm.trans ‹stream.next = _›
  cases r.push t with
  | error why => rfl
  | ok r' => exact if_pos hend

theorem pull_of_ok (h : stream.next = (.token t, stream')) (hpush : r.push t = .ok r')
    (hne : t.kind ≠ .endOfInput) :
    r.pull line column stream = r'.pull t.line t.column stream' := by
  rw [pull]
  split <;> cases h.symm.trans ‹stream.next = _›
  rw [hpush]
  exact if_neg hne

/-- Two streams that answer the next call alike are read alike. -/
theorem pull_congr {other : TokenStream} (h : stream.next = other.next) :
    r.pull line column stream = r.pull line column other := by
  obtain ⟨answer, rest, hnext⟩ : ∃ answer rest, other.next = (answer, rest) := ⟨_, _, rfl⟩
  have hstream := h.trans hnext
  cases answer with
  | ended => rw [pull_of_ended hstream, pull_of_ended hnext]
  | refused why => rw [pull_of_refused hstream, pull_of_refused hnext]
  | token t =>
    by_cases hend : t.kind = .endOfInput
    · rw [pull_of_end hstream hend, pull_of_end hnext hend]
    · cases hpush : r.push t with
      | error why => rw [pull_of_error hstream hpush, pull_of_error hnext hpush]
      | ok q => rw [pull_of_ok hstream hpush hend, pull_of_ok hnext hpush hend]

theorem exists_next_of_due {answer : TokenStream.Answer} {tail : List TokenStream.Answer}
    (h : stream.due = answer :: tail) :
    ∃ stream', stream.next = (answer, stream') ∧ stream'.due = tail := by
  cases hended : stream.ended with
  | true => cases (TokenStream.due_of_ended hended).symm.trans h
  | false =>
    obtain ⟨hanswer, htail⟩ := List.cons.inj ((TokenStream.due_eq_next hended).symm.trans h)
    exact ⟨stream.next.2, Prod.ext hanswer rfl, htail⟩

theorem exists_next_behind {ts : List Token} {answer : TokenStream.Answer}
    {tail : List TokenStream.Answer} (h : stream.due = ts.map .token ++ answer :: tail) :
    ∃ stream', (stream.after ts.length).next = (answer, stream') ∧
      stream.after (ts.length + 1) = stream' := by
  have hrest : (stream.after ts.length).due = answer :: tail := by
    rw [TokenStream.due_after, h, ← List.length_map TokenStream.Answer.token, List.drop_left]
  obtain ⟨stream', hnext, -⟩ := exists_next_of_due hrest
  exact ⟨stream', hnext, by rw [TokenStream.after_succ, hnext]⟩

/-- Where tokens that do not end the input are due first, reading stops at one of them, or it goes
on with the stream that has delivered them.  A reader that looks one token ahead, with the same
tokens in its source, stops there too and has then pulled as many tokens as the stream has been
called for, or it goes on behind them. -/
theorem pull_or_exhausted {ts : List Token} (hts : ∀ t ∈ ts, t.kind ≠ .endOfInput)
    {tail : List TokenStream.Answer} (hdue : stream.due = ts.map .token ++ tail) (r : Reading)
    (line column : Int) (pulled more consumed : List Token) :
    (∃ n why stop, n ≤ ts.length ∧ r.pushAll ts = .error why ∧
        r.pull line column stream = (.error (.syntax_ why), stream.after n) ∧
        r.resume (.pull pulled (ts ++ more) consumed) = (.error why, stop) ∧
        stop.pulled.length = pulled.length + n) ∨
      ∃ q line' column', r.pushAll ts = .ok q ∧
        r.pull line column stream = q.pull line' column' (stream.after ts.length) ∧
        r.resume (.pull pulled (ts ++ more) consumed)
          = q.resume (.pull (pulled ++ ts) more (consumed ++ ts)) := by
  induction ts generalizing r line column pulled consumed stream with
  | nil =>
    refine .inr ⟨r, line, column, rfl, rfl, ?_⟩
    rw [List.append_nil, List.append_nil]
    rfl
  | cons t ts ih =>
    obtain ⟨hne, hts⟩ := List.forall_mem_cons.1 hts
    obtain ⟨stream', hnext, hdue'⟩ := exists_next_of_due hdue
    have hafter (n : Nat) : stream.after (n + 1) = stream'.after n := by
      rw [TokenStream.after, hnext]
    cases hpush : r.push t with
    | error why =>
      refine .inl ⟨1, why, .pull pulled (t :: ts ++ more) consumed, Nat.le_add_left 1 _, ?_, ?_,
        resume_of_error (c := .pull pulled (t :: ts ++ more) consumed) hpush, ?_⟩
      · rw [pushAll_cons, hpush]
        rfl
      · rw [pull_of_error hnext hpush, hafter]
        rfl
      · exact List.length_append
    | ok q =>
      have hadvance : (Lookahead.pull pulled (t :: ts ++ more) consumed).advance
          = .pull (pulled ++ [t]) (ts ++ more) (consumed ++ [t]) :=
        Lookahead.advance_of_ne_end hne
      have hresume := resume_of_ok (c := .pull pulled (t :: ts ++ more) consumed) hne hpush
      rw [hadvance] at hresume
      rw [hresume, pull_of_ok hnext hpush hne, pushAll_cons, hpush]
      rcases ih hts hdue' q t.line t.column (pulled ++ [t]) (consumed ++ [t]) with
        ⟨n, why, stop, hn, hread, hpull, hstop, hlength⟩ | ⟨q', line', column', hread, hpull, hstop⟩
      · refine .inl ⟨n + 1, why, stop, Nat.succ_le_succ hn, hread, ?_, hstop, ?_⟩
        · rw [hpull, hafter]
        · rw [hlength, List.length_append, List.length_singleton]
          omega
      · refine .inr ⟨q', line', column', hread, ?_, ?_⟩
        · rw [hpull, List.length_cons, hafter]
        · rw [hstop, List.append_assoc, List.append_assoc]
          rfl

end Reading

/-! ## Lines that are taken -/

theorem Scanner.kind_of_close {s : Scanner} {last : Token} (h : s.close.1 = .ok last) :
    last.kind = .endOfInput := by
  unfold Scanner.close at h
  split at h
  · cases h
  · cases h
    rfl

namespace Chart

open Reading (pull_or_exhausted)

variable {s s' : Scanner} {r : Reading} {lines : List (List Char)} {line column : Int}

theorem after_waiting (s : Scanner) (ts : List Token) (lines : List (List Char)) {n : Nat}
    (hn : n ≤ ts.length) :
    (⟨s, ts, lines, false⟩ : TokenStream).after n = ⟨s, ts.drop n, lines, false⟩ := by
  induction n generalizing ts with
  | zero => rfl
  | succ n ih =>
    cases ts with
    | nil => exact absurd hn (Nat.not_succ_le_zero n)
    | cons t ts => exact ih ts (Nat.le_of_succ_le_succ hn)

theorem next_of_feed {line : List Char} {ts : List Token} (h : s.feed line = (.ok ts, s'))
    (rest : List (List Char)) :
    (⟨s, [], line :: rest, false⟩ : TokenStream).next
      = (⟨s', ts, rest, false⟩ : TokenStream).next := by
  show TokenStream.pull s (line :: rest) = _
  rw [TokenStream.pull, h]
  cases ts <;> rfl

theorem next_of_refused {line : List Char} {why : Scanner.Refusal}
    (h : s.feed line = (.error why, s')) (rest : List (List Char)) :
    (⟨s, [], line :: rest, false⟩ : TokenStream).next = (.refused why, ⟨s', [], rest, true⟩) := by
  show TokenStream.pull s (line :: rest) = _
  rw [TokenStream.pull, h]

/-- The lines that are taken are those that a stream takes whose tokens are read one by one. -/
theorem takeLines_eq_pull (s : Scanner) (r : Reading) (line column : Int)
    (lines : List (List Char)) :
    takeLines s r lines =
      ((r.pull line column ⟨s, [], lines, false⟩).1.map fun r => ofItems r.items,
        (r.pull line column ⟨s, [], lines, false⟩).2.unread) := by
  induction lines generalizing s r line column with
  | nil =>
    obtain ⟨answer, s', hclose⟩ : ∃ answer s', s.close = (answer, s') := ⟨_, _, rfl⟩
    have hnext : (⟨s, [], [], false⟩ : TokenStream).next = TokenStream.pull s [] := rfl
    rw [TokenStream.pull, hclose] at hnext
    rw [takeLines, hclose]
    cases answer with
    | error why =>
      rw [Reading.pull_of_refused hnext]
      rfl
    | ok last =>
      rw [Reading.pull_of_end hnext (Scanner.kind_of_close (congrArg Prod.fst hclose))]
      dsimp only
      cases r.push last <;> rfl
  | cons first rest ih =>
    obtain ⟨answer, s', hfeed⟩ : ∃ answer s', s.feed first = (answer, s') := ⟨_, _, rfl⟩
    rw [takeLines, hfeed]
    cases answer with
    | error why =>
      rw [Reading.pull_of_refused (next_of_refused hfeed rest)]
      rfl
    | ok ts =>
      rw [Reading.pull_congr (next_of_feed hfeed rest)]
      have hkinds (t : Token) (ht : t ∈ ts) := ((Scanner.feed_ok hfeed).2.2 t ht).2.1
      have hdue : (⟨s', ts, rest, false⟩ : TokenStream).due
          = ts.map .token ++ s'.deliveries rest := rfl
      dsimp only
      rcases pull_or_exhausted hkinds hdue r line column [] [] [] with
        ⟨n, why, _, hn, hread, hpull, -⟩ | ⟨q, line', column', hread, hpull, -⟩
      · rw [hpull, hread, after_waiting s' ts rest hn]
        rfl
      · rw [hpull, hread, after_waiting s' ts rest (Nat.le_refl _), List.drop_length]
        exact ih s' q line' column'

theorem ofLines_eq_pull (lines : List (List Char)) :
    ofLines lines =
      ((({} : Reading).pull 1 1 (.ofLines lines)).1.map fun r => ofItems r.items,
        (({} : Reading).pull 1 1 (.ofLines lines)).2.unread) :=
  takeLines_eq_pull {} {} 1 1 lines

/-! ## The descent -/

/-- The answer about lines, which are left as the stream over them leaves them after calls. -/
def AnswersAfter (lines : List (List Char)) (calls : Nat) (answer : Except SourceFault Chart) :
    Prop :=
  ofLines lines = (answer, ((TokenStream.ofLines lines).after calls).unread)

/-- The descent through a row of tokens stops at a place, whatever its limit above the number of
tokens. -/
def StopsAt (ts : List Token) (stop : Lookahead) : Prop :=
  ∀ limit, ts.length < limit →
    Descent.chart limit (.start ts) = Descent.outcome (ofTokens ts) stop

theorem stopsAt_of_resume {ts : List Token} {answer : Except SyntaxFault Reading} {stop : Lookahead}
    (h : ({} : Reading).resume (.start ts) = (answer, stop)) :
    StopsAt ts stop ∧ ofTokens ts = answer.map fun r => ofItems r.items := by
  refine ⟨fun limit hlimit => ?_, ?_⟩
  · rw [(Descent.chart_eq_outcome hlimit).2, h]
  · have hrun := Reading.fst_resume_start {} ts
    rw [h] at hrun
    rw [ofTokens, ← hrun]
    cases answer <;> rfl

/-- Three ways to take lines on demand compared: line by line, by the calls to a stream and by a
descent that makes a call for each token that it pulls. -/
structure Pulls (lines : List (List Char)) : Prop where
  /-- The tokens that the stream over the lines delivers are read to the same chart or fault, and
  the stream leaves the same lines. -/
  stream : ofLines lines =
    ((({} : Reading).pull 1 1 (.ofLines lines)).1.map fun r => ofItems r.items,
      (({} : Reading).pull 1 1 (.ofLines lines)).2.unread)
  /-- Where all lines can be scanned, the descent through their tokens gives the answer, and the
  lines are left as after as many calls as tokens were pulled. -/
  scanned : ∀ tokens, ({} : Scanner).tokens lines = .ok tokens →
    ∃ stop, StopsAt tokens stop ∧
      AnswersAfter lines stop.pulled.length ((ofTokens tokens).mapError .syntax_)
  /-- Where a line is refused, the descent stops at a token before it, or it pulls one more, and
  that call is refused. -/
  refused : ∀ taken line rest ts s why, lines = taken ++ line :: rest → Feeds {} taken ts s →
    (s.feed line).1 = .error why → ∀ t more, ∃ stop, StopsAt (ts ++ t :: more) stop ∧
      ((stop.pulled.length ≤ ts.length ∧ ∃ fault, ofTokens (ts ++ t :: more) = .error fault ∧
          AnswersAfter lines stop.pulled.length (.error (.syntax_ fault))) ∨
        (ts.length < stop.pulled.length ∧
          AnswersAfter lines (ts.length + 1) (.error (.scan why))))

theorem exists_stopsAt_of_tokens {tokens : List Token}
    (h : ({} : Scanner).tokens lines = .ok tokens) :
    ∃ stop, StopsAt tokens stop ∧
      AnswersAfter lines stop.pulled.length ((ofTokens tokens).mapError .syntax_) := by
  obtain ⟨ts, s', -, hfeeds, -, -⟩ := Scanner.feeds_of_tokens h
  obtain ⟨last, hclose, hlast, -, htokens⟩ := hfeeds.tokens_eq rfl
  cases htokens.symm.trans h
  have hdue : (TokenStream.ofLines lines).due = ts.map .token ++ [.token last] :=
    hfeeds.deliveries_eq hclose
  rcases pull_or_exhausted (fun t ht => (hfeeds.mem t ht).2) hdue {} 1 1 [] [last] [] with
    ⟨n, why, stop, -, -, hpull, hstop, hlength⟩ | ⟨q, line, column, -, hpull, hstop⟩
  · obtain ⟨hstops, htokens⟩ := stopsAt_of_resume hstop
    refine ⟨stop, hstops, ?_⟩
    rw [AnswersAfter, ofLines_eq_pull, hpull, htokens, hlength, List.length_nil, Nat.zero_add]
    rfl
  · -- behind the tokens of the lines both readers take the end of the input
    rw [Reading.resume_of_end (c := .pull ([] ++ ts) [last] ([] ++ ts)) hlast] at hstop
    obtain ⟨hstops, htokens⟩ := stopsAt_of_resume hstop
    refine ⟨_, hstops, ?_⟩
    obtain ⟨stream', hnext, hafter⟩ := Reading.exists_next_behind hdue
    have hlength : (Lookahead.pull ([] ++ ts) [last] ([] ++ ts)).pulled.length = ts.length + 1 :=
      List.length_append
    rw [AnswersAfter, ofLines_eq_pull, hpull, htokens, hlength, hafter,
      Reading.pull_of_end hnext hlast]
    show _ = (((q.push last).map _).mapError _, _)
    cases q.push last <;> rfl

theorem exists_stopsAt_of_refused {taken rest : List (List Char)} {line : List Char}
    {ts : List Token} {why : Scanner.Refusal} (hfeeds : Feeds {} taken ts s)
    (hline : (s.feed line).1 = .error why) (t : Token) (more : List Token) :
    ∃ stop, StopsAt (ts ++ t :: more) stop ∧
      ((stop.pulled.length ≤ ts.length ∧ ∃ fault, ofTokens (ts ++ t :: more) = .error fault ∧
          AnswersAfter (taken ++ line :: rest) stop.pulled.length (.error (.syntax_ fault))) ∨
        (ts.length < stop.pulled.length ∧
          AnswersAfter (taken ++ line :: rest) (ts.length + 1) (.error (.scan why)))) := by
  have hdue : (TokenStream.ofLines (taken ++ line :: rest)).due
      = ts.map .token ++ [.refused why] := hfeeds.deliveries_refused hline rest
  rcases pull_or_exhausted (fun t ht => (hfeeds.mem t ht).2) hdue {} 1 1 [] (t :: more) [] with
    ⟨n, fault, stop, hn, -, hpull, hstop, hlength⟩ | ⟨q, line', column, -, hpull, hstop⟩
  · obtain ⟨hstops, htokens⟩ := stopsAt_of_resume hstop
    rw [List.length_nil, Nat.zero_add] at hlength
    refine ⟨stop, hstops, .inl ⟨by omega, fault, htokens, ?_⟩⟩
    rw [AnswersAfter, ofLines_eq_pull, hpull, hlength]
    rfl
  · have honward := Reading.onward_resume q (.pull ([] ++ ts) (t :: more) ([] ++ ts))
    obtain ⟨answer, stop, hres⟩ : ∃ answer stop,
        q.resume (.pull ([] ++ ts) (t :: more) ([] ++ ts)) = (answer, stop) := ⟨_, _, rfl⟩
    rw [hres] at honward hstop
    obtain ⟨stream', hnext, hafter⟩ := Reading.exists_next_behind hdue
    refine ⟨stop, (stopsAt_of_resume hstop).1, .inr ⟨?_, ?_⟩⟩
    · calc ts.length < (ts ++ [t]).length := by
            rw [List.length_append, List.length_singleton]
            exact Nat.lt_succ_self _
        _ ≤ stop.pulled.length := honward.pulled_prefix.length_le
    · rw [AnswersAfter, ofLines_eq_pull, hpull, Reading.pull_of_refused hnext, hafter]
      rfl

/-- Taking lines on demand is making the calls that a descent makes. -/
theorem pulls (lines : List (List Char)) : Pulls lines where
  stream := ofLines_eq_pull lines
  scanned := fun _ h => exists_stopsAt_of_tokens h
  refused := by
    rintro taken line rest ts s why rfl hfeeds hline t more
    exact exists_stopsAt_of_refused hfeeds hline t more

end Chart

end SequenceChart
