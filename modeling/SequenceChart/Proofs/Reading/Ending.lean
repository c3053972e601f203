import SequenceChart.Proofs.Reading.Moved
import SequenceChart.Proofs.Reading.Viable
set_option autoImplicit false

/-!
# The end of the input

Tokens may end with a token that says so, or they just run out; then the end stands where the last
of them does.  Main statement: both are read alike, at whatever point of a document and inside
however many open blocks the tokens end.  What follows the end of the input is not taken, and where
it stands only shows in the place of a fault that is found there.
-/

namespace SequenceChart

/-! ## An end of the input that is moved -/

/-- The token, at another place if it ends the input. -/
def Token.endMoved (line column : Int) (t : Token) : Token :=
  if t.kind = .endOfInput then { t with line, column } else t

namespace Token

theorem endMoved_of_ne {t : Token} (h : t.kind ≠ .endOfInput) (line column : Int) :
    t.endMoved line column = t := if_neg h

theorem text_endMoved (line column : Int) (t : Token) :
    (t.endMoved line column).text = t.text := by
  unfold endMoved
  split <;> rfl

theorem moves_endMoved (line column : Int) : Token.Moves (endMoved line column) where
  kind t := by
    unfold endMoved
    split <;> rfl
  content t := congrArg (fun text => text.getD "") (text_endMoved line column t)

end Token

/-- The text of a problem does not tell where its token stands. -/
theorem SyntaxProblem.text_moved {f : Token → Token} (hf : Token.Moves f)
    (htext : ∀ t, (f t).text = t.text) (p : SyntaxProblem) : (p.moved f).text = p.text := by
  have hdescribe (t : Token) : (f t).describe = t.describe := by
    rw [Token.describe, Token.describe, hf.kind, htext]
  unfold moved SyntaxProblem.text
  cases p with
  | expected kinds got =>
    dsimp only
    rw [hdescribe]
  | noStatement got =>
    dsimp only
    rw [hdescribe]
  | endless => rfl

namespace Reading

theorem endMoved_endAt (line column line' column' : Int) :
    (endAt line' column').endMoved line column = endAt line column := rfl

/-- Where tokens run out without an end of the input, one is read that stands at the last of
them. -/
theorem run_of_no_end {ts : List Token} (h : ∀ t ∈ ts, t.kind ≠ .endOfInput) (r : Reading)
    (line column : Int) :
    r.run line column ts = (r.pushAll ts).bind fun q => q.push (endAfter line column ts) := by
  induction ts generalizing r line column with
  | nil => rfl
  | cons t ts ih =>
    obtain ⟨ht, hts⟩ := List.forall_mem_cons.1 h
    rw [run, if_neg ht, pushAll_cons, endAfter_cons]
    cases r.push t with
    | error why => rfl
    | ok q => exact ih hts q t.line t.column

/-- No token behind an end of the input is taken. -/
theorem suffix_takeTokens {last : Token} (hlast : last.kind = .endOfInput) (ts rest : List Token)
    (r : Reading) (line column : Int) :
    rest <:+ (r.takeTokens line column (ts ++ last :: rest)).2 := by
  induction ts generalizing r line column with
  | nil =>
    refine ⟨[], ?_⟩
    rw [List.nil_append, List.nil_append, takeTokens, if_pos hlast]
  | cons t ts ih =>
    have hbehind : rest <:+ ts ++ last :: rest :=
      (List.suffix_cons last rest).trans (List.suffix_append ts (last :: rest))
    rw [List.cons_append, takeTokens]
    split
    · exact hbehind
    · cases r.push t with
      | error why => exact hbehind
      | ok q => exact ih q t.line t.column

/-- The only token that a reading remembers is a shaft, so an end of the input can be moved behind
it. -/
theorem Reads.moved_endMoved {ts : List Token} {q : Reading} (h : Reads {} ts q)
    (line column : Int) : q.moved [] (Token.endMoved line column) = q := by
  have hprogress : q.progress.moved (Token.endMoved line column) = q.progress := by
    cases hq : q.progress with
    | shaft s at_ =>
      obtain ⟨-, dotted, hkind⟩ := h.getLast?_of_shaft hq
      have hne : at_.kind ≠ .endOfInput := by
        rw [hkind]
        nofun
      rw [Progress.moved, Token.endMoved_of_ne hne]
    | _ => rfl
  rw [Reading.moved, hprogress]
  rfl

/-- At the end of the input a reading answers alike wherever the end stands. -/
theorem Reads.push_endAt {ts : List Token} {q : Reading} (h : Reads {} ts q)
    (line column line' column' : Int) :
    q.push (endAt line column)
      = movedAnswer [] (Token.endMoved line column) (q.push (endAt line' column')) := by
  rw [← push_moved (Token.moves_endMoved line column), h.moved_endMoved,
    endMoved_endAt]

theorem exists_endAfter (line column : Int) (ts : List Token) :
    ∃ line' column', endAfter line column ts = endAt line' column' := by
  unfold endAfter
  cases ts.getLast? with
  | none => exact ⟨line, column, rfl⟩
  | some t => exact ⟨t.line, t.column, rfl⟩

end Reading

/-- Of two faults, found with the input ending in one place and in another, the second is the first,
but for its place if it is found at the end. -/
structure SyntaxFault.SameBut (last last' : Token) (why why' : SyntaxFault) : Prop where
  text : why'.text = why.text
  before : why.token.kind ≠ .endOfInput → why' = why
  there : why.token.kind = .endOfInput → why.token = last ∧ why'.token = last'

theorem SyntaxFault.SameBut.refl {last last' : Token} {why : SyntaxFault}
    (h : why.token.kind ≠ .endOfInput) : SameBut last last' why why :=
  ⟨rfl, fun _ => rfl, fun hend => absurd hend h⟩

/-- A fault at the end of the input is found at that end, or at a shaft before it. -/
theorem Reading.Reads.sameBut_endMoved {ts : List Token} {q : Reading} (h : Reads {} ts q)
    {last : Token} {why : SyntaxFault} (hfault : q.push last = .error why)
    (hlast : last.kind = .endOfInput) (line column : Int) :
    why.SameBut last (last.endMoved line column) (why.moved (Token.endMoved line column)) := by
  have htext : (why.moved (Token.endMoved line column)).text = why.text :=
    why.problem.text_moved (Token.moves_endMoved line column) (Token.text_endMoved line column)
  rcases blamed_of_refused h hfault with ⟨-, htoken⟩ | ⟨hendless, -, dotted, hkind⟩
  · refine ⟨htext, fun hne => ?_, fun _ => ⟨htoken, congrArg (Token.endMoved line column) htoken⟩⟩
    rw [htoken] at hne
    exact absurd hlast hne
  · have hne : why.token.kind ≠ .endOfInput := by
      rw [hkind]
      nofun
    refine ⟨htext, fun _ => ?_, fun hend => absurd hend hne⟩
    obtain ⟨problem, token⟩ := why
    obtain rfl : problem = .endless := hendless
    exact congrArg (SyntaxFault.mk .endless) (Token.endMoved_of_ne hne line column)

/-! ## All ways to end -/

namespace Chart

open Reading (endAt endAfter)

variable {ts : List Token}

theorem ofTokens_of_no_end (h : ∀ t ∈ ts, t.kind ≠ .endOfInput) :
    ofTokens ts = (({} : Reading).pushAll ts).bind fun q =>
      (q.push (endAfter 1 1 ts)).map fun r => ofItems r.items := by
  rw [ofTokens, Reading.run_of_no_end h]
  cases ({} : Reading).pushAll ts <;> rfl

/-- An end of the input where the tokens run out is the one that is read there. -/
theorem ofTokens_append_endAfter (h : ∀ t ∈ ts, t.kind ≠ .endOfInput) (rest : List Token) :
    ofTokens (ts ++ endAfter 1 1 ts :: rest) = ofTokens ts := by
  obtain ⟨line, column, hend⟩ := Reading.exists_endAfter 1 1 ts
  have hlast : (endAfter 1 1 ts).kind = .endOfInput := by
    rw [hend]
    rfl
  rw [ofTokens_append_end h hlast, ofTokens_of_no_end h]

/-- With the end of the input elsewhere the chart is the same. -/
theorem ofTokens_append_endAt_of_ok (h : ∀ t ∈ ts, t.kind ≠ .endOfInput) {c : Chart}
    (hchart : ofTokens ts = .ok c) (line column : Int) (rest : List Token) :
    ofTokens (ts ++ endAt line column :: rest) = .ok c := by
  obtain ⟨line', column', hend⟩ := Reading.exists_endAfter 1 1 ts
  rw [ofTokens_of_no_end h, hend] at hchart
  rw [ofTokens_append_end h rfl]
  cases hread : ({} : Reading).pushAll ts with
  | error why =>
    rw [hread] at hchart
    cases hchart
  | ok q =>
    rw [hread, Except.bind] at hchart
    rw [Except.bind, Reading.Reads.push_endAt hread line column line' column']
    cases hpush : q.push (endAt line' column') with
    | error why =>
      rw [hpush] at hchart
      cases hchart
    | ok r =>
      rw [hpush] at hchart
      exact hchart

/-- With the end of the input elsewhere the fault is the same, but for its place if it is found
there. -/
theorem ofTokens_append_endAt_of_error (h : ∀ t ∈ ts, t.kind ≠ .endOfInput) {why : SyntaxFault}
    (hfault : ofTokens ts = .error why) (line column : Int) (rest : List Token) :
    ∃ why', ofTokens (ts ++ endAt line column :: rest) = .error why' ∧
      why.SameBut (endAfter 1 1 ts) (endAt line column) why' := by
  obtain ⟨line', column', hend⟩ := Reading.exists_endAfter 1 1 ts
  rw [ofTokens_of_no_end h, hend] at hfault
  rw [ofTokens_append_end h rfl, hend]
  cases hread : ({} : Reading).pushAll ts with
  | error fault =>
    rw [hread] at hfault
    cases hfault
    exact ⟨why, rfl, .refl (h why.token (Reading.token_mem_of_pushAll_eq_error hread))⟩
  | ok q =>
    rw [hread, Except.bind] at hfault
    rw [Except.bind, Reading.Reads.push_endAt hread line column line' column']
    cases hpush : q.push (endAt line' column') with
    | ok r =>
      rw [hpush] at hfault
      cases hfault
    | error fault =>
      rw [hpush] at hfault
      cases hfault
      exact ⟨_, rfl, Reading.Reads.sameBut_endMoved hread hpush rfl line column⟩

/-- Tokens without an end of the input are read alike with one behind them. -/
structure EndsAlike (ts : List Token) : Prop where
  /-- An end of the input at the place of the last token, or at the first place if there is none,
  changes nothing, whatever follows it: the chart is the same, or the fault is, with its token. -/
  same : ∀ rest, ofTokens (ts ++ endAfter 1 1 ts :: rest) = ofTokens ts
  /-- What follows an end of the input is not taken, and it does not matter. -/
  unread : ∀ last rest, last.kind = .endOfInput →
    rest <:+ (({} : Reading).takeTokens 1 1 (ts ++ last :: rest)).2 ∧
      ofTokens (ts ++ last :: rest) = ofTokens (ts ++ [last])
  /-- With the end of the input elsewhere the chart is the same. -/
  chart : ∀ line column rest c, ofTokens ts = .ok c →
    ofTokens (ts ++ endAt line column :: rest) = .ok c
  /-- With the end of the input elsewhere the fault is the same, but for its place if it is found
  there. -/
  fault : ∀ line column rest why, ofTokens ts = .error why →
    ∃ why', ofTokens (ts ++ endAt line column :: rest) = .error why' ∧
      why.SameBut (endAfter 1 1 ts) (endAt line column) why'

/-- Whether the input ends with a token that says so or the tokens run out, they are read alike. -/
theorem endsAlike_of_no_end (h : ∀ t ∈ ts, t.kind ≠ .endOfInput) : EndsAlike ts where
  same := ofTokens_append_endAfter h
  unread last rest hlast := by
    refine ⟨Reading.suffix_takeTokens hlast ts rest {} 1 1, ?_⟩
    rw [ofTokens_append_end h hlast, ofTokens_append_end h hlast]
  chart line column rest _ hchart := ofTokens_append_endAt_of_ok h hchart line column rest
  fault line column rest _ hfault := ofTokens_append_endAt_of_error h hfault line column rest

/-- One of two blocks is open when the tokens run out, so the fault is found at the end of the input:
at the last token, or where a token for the end stands, whatever follows it. -/
theorem endsAlike_of_no_end_open :
    ∃ ts why why', ts = [⟨.keyword .opt, some "opt", 1, 1⟩, ⟨.keyword .opt, some "opt", 2, 3⟩,
        ⟨.keyword .end_, some "end", 4, 3⟩] ∧
      (∀ t ∈ ts, t.kind ≠ .endOfInput) ∧ EndsAlike ts ∧ ofTokens ts = .error why ∧
      why.message = "Line 4, column 3: Expected 'end', got end of input" ∧
      ofTokens (ts ++ [endAt 9 7, ⟨.keyword .end_, some "end", 10, 1⟩]) = .error why' ∧
      why'.message = "Line 9, column 7: Expected 'end', got end of input" := by
  obtain ⟨ts, hts⟩ : ∃ ts : List Token, ts = [⟨.keyword .opt, some "opt", 1, 1⟩,
    ⟨.keyword .opt, some "opt", 2, 3⟩, ⟨.keyword .end_, some "end", 4, 3⟩] := ⟨_, rfl⟩
  have hend : ∀ t ∈ ts, t.kind ≠ .endOfInput := by
    rw [hts]
    decide
  have hfault : ofTokens ts = .error ⟨.expected [.keyword .end_] (endAt 4 3), endAt 4 3⟩ := by
    rw [hts]
    rfl
  have halike := endsAlike_of_no_end hend
  obtain ⟨why', hfault', hsame⟩ :=
    halike.fault 9 7 [⟨.keyword .end_, some "end", 10, 1⟩] _ hfault
  refine ⟨ts, _, why', hts, hend, halike, hfault, by decide, hfault', ?_⟩
  have hmessage : why'.message = complaintAt why'.token.line why'.token.column why'.text := rfl
  rw [hmessage, (hsame.there rfl).2, hsame.text]
  decide

end Chart

end SequenceChart
