import SequenceChart.Proofs.Scanning.Feeds
set_option autoImplicit false

/-!
# The life of a scanner

A scanner is called in any order: with lines, which may hold anything, and to end the input.  Main
statement: it ends the input at most once; a stray character and the first close are the last things
that happen to it; a line with a break in it is refused and leaves no trace; and the line number
counts the lines that were taken.
-/

namespace SequenceChart

namespace Scanner

/-- A call of a scanner. -/
inductive Call where
  | feed (line : List Char)
  | close
  deriving DecidableEq, Repr, Inhabited

/-- What a call is answered with. -/
inductive Reply where
  | tokens (ts : List Token)
  | ended (last : Token)
  | refused (why : Refusal)
  deriving DecidableEq, Repr, Inhabited

namespace Reply

/-- The tokens that a reply hands out. -/
def handed : Reply → List Token
  | tokens ts => ts
  | ended last => [last]
  | refused _ => []

/-- A character that starts no token was found. -/
def isStray : Reply → Bool
  | refused (.stray _) => true
  | _ => false

/-- A line was taken: its tokens were handed out, or a stray character was found on it. -/
def tookLine : Reply → Bool
  | tokens _ => true
  | reply => reply.isStray

end Reply

/-- The refusal of a call by a scanner that takes no more of them in its mode. -/
def Call.refusedIn (mode : Mode) : Call → Reply
  | feed _ => .refused (.lineOver mode)
  | close => .refused (.closeOver mode)

/-- Makes a call. -/
def call (s : Scanner) : Call → Reply × Scanner
  | .feed line =>
    match s.feed line with
    | (.ok ts, s) => (.tokens ts, s)
    | (.error why, s) => (.refused why, s)
  | .close =>
    match s.close with
    | (.ok last, s) => (.ended last, s)
    | (.error why, s) => (.refused why, s)

/-- The replies to calls that are made one after the other. -/
def replies (s : Scanner) : List Call → List Reply
  | [] => []
  | c :: calls => (s.call c).1 :: (s.call c).2.replies calls

/-- The scanner after calls. -/
def after (s : Scanner) (calls : List Call) : Scanner := calls.foldl (fun s c => (s.call c).2) s

/-- A new scanner that was called in this way has been closed, or has met a stray character. -/
def IsOverAfter (calls : List Call) : Prop :=
  .close ∈ calls ∨ ∃ reply ∈ ({} : Scanner).replies calls, reply.isStray

/-- How a new scanner answers calls. -/
structure LifeCycle (calls : List Call) : Prop where
  /-- the input is ended at most once -/
  endsOnce : ((({} : Scanner).replies calls).flatMap Reply.handed).countP
    (fun t => t.kind = .endOfInput) ≤ 1
  /-- a scanner that has ended the input has been closed -/
  endsLast : ∀ before rest, calls = before ++ rest →
    (∃ t ∈ (({} : Scanner).replies before).flatMap Reply.handed, t.kind = .endOfInput) →
    .close ∈ before
  /-- a stray character fails the scanner -/
  fails : ∀ before c rest, calls = before ++ c :: rest →
    ((({} : Scanner).after before).call c).1.isStray →
    (({} : Scanner).after (before ++ [c])).mode = .failed
  /-- the first close of a scanner that has not failed ends the input -/
  closes : ∀ before rest, calls = before ++ .close :: rest → ¬IsOverAfter before →
    (∃ last, last.kind = .endOfInput ∧
      ((({} : Scanner).after before).call .close).1 = .ended last) ∧
    (({} : Scanner).after (before ++ [.close])).mode = .closed
  /-- from then on every call is refused because of the mode, whatever its line holds, and nothing
  changes -/
  over_ : ∀ before rest, calls = before ++ rest → IsOverAfter before →
    (({} : Scanner).after before).replies rest
        = rest.map (Call.refusedIn (({} : Scanner).after before).mode) ∧
      ({} : Scanner).after calls = ({} : Scanner).after before
  /-- until then a line with a break in it is refused for the break, and no other line is -/
  breaks : ∀ before line rest, calls = before ++ .feed line :: rest →
    (((({} : Scanner).after before).call (.feed line)).1 = .refused .lineBreak ↔
      ¬IsOverAfter before ∧ ¬OneLine line)
  /-- such a call leaves no trace: without it the later replies and the scanner are the same -/
  skips : ∀ before line rest, calls = before ++ .feed line :: rest →
    ((({} : Scanner).after before).call (.feed line)).1 = .refused .lineBreak →
    ∃ later, ({} : Scanner).replies calls
        = ({} : Scanner).replies before ++ .refused .lineBreak :: later ∧
      ({} : Scanner).replies (before ++ rest) = ({} : Scanner).replies before ++ later ∧
      ({} : Scanner).after calls = ({} : Scanner).after (before ++ rest)
  /-- the line number counts the lines that were taken -/
  lineNumber : (({} : Scanner).after calls).lineNumber
    = (({} : Scanner).replies calls).countP Reply.tookLine

/-! ## One call -/

/-- What a call does, in each of the ways in which it can go. -/
inductive Step : Scanner → Call → Reply → Scanner → Prop where
  /-- the scanner takes no more calls -/
  | over_ {s : Scanner} (c : Call) (h : s.mode.isOver = true) : Step s c (c.refusedIn s.mode) s
  /-- the line has a break in it -/
  | broken {s : Scanner} {line : List Char} (h : s.mode.isOver = false) (hline : ¬OneLine line) :
    Step s (.feed line) (.refused .lineBreak) s
  /-- the line has tokens, none of which ends the input -/
  | taken {s s' : Scanner} {line : List Char} {ts : List Token} (h : s.mode.isOver = false)
    (hline : OneLine line) (hts : ∀ t ∈ ts, t.kind ≠ .endOfInput) (hmode : s'.mode.isOver = false)
    (hnumber : s'.lineNumber = s.lineNumber + 1) : Step s (.feed line) (.tokens ts) s'
  /-- a character on the line starts no token -/
  | failed {s s' : Scanner} {line : List Char} {at_ : Stray} (h : s.mode.isOver = false)
    (hline : OneLine line) (hmode : s'.mode = .failed)
    (hnumber : s'.lineNumber = s.lineNumber + 1) :
    Step s (.feed line) (.refused (.stray at_)) s'
  /-- the input ends -/
  | closed {s s' : Scanner} {last : Token} (h : s.mode.isOver = false)
    (hlast : last.kind = .endOfInput) (hmode : s'.mode = .closed)
    (hnumber : s'.lineNumber = s.lineNumber) : Step s .close (.ended last) s'

/-- A call of a scanner that takes no more of them. -/
theorem call_of_isOver {s : Scanner} (h : s.mode.isOver = true) (c : Call) :
    s.call c = (c.refusedIn s.mode, s) := by
  cases c with
  | feed line => rw [call, feed, if_pos h]; rfl
  | close => rw [call, close, if_pos h]; rfl

theorem call_close {s : Scanner} (h : s.mode.isOver = false) :
    s.call .close
      = (.ended ⟨.endOfInput, none, (max s.lineNumber 1 : Nat), (s.width + 1 : Nat)⟩,
        { s with mode := .closed }) := by
  simp [call, close, h]

theorem step_feed {s : Scanner} (h : s.mode.isOver = false) (line : List Char) :
    Step s (.feed line) (s.call (.feed line)).1 (s.call (.feed line)).2 := by
  by_cases hline : OneLine line
  · obtain ⟨answer, s', hfeed⟩ : ∃ answer s', s.feed line = (answer, s') := ⟨_, _, rfl⟩
    rw [call, hfeed]
    cases answer with
    | ok ts =>
      obtain ⟨hnumber, hmode, hts⟩ := feed_ok hfeed
      exact .taken h hline (fun t ht => (hts t ht).2.1) hmode hnumber
    | error why =>
      have hrefused : (s.feed line).1 = .error why := congrArg Prod.fst hfeed
      obtain ⟨at_, rfl, -, hnext⟩ := feed_error h hline hrefused
      rw [hfeed] at hnext
      cases hnext
      exact .failed h hline rfl rfl
  · have hbreak : (line.any fun c => c = '\n' || c = '\r') = true :=
      eq_true_of_ne_false fun he => hline ((any_break_eq_false_iff line).1 he)
    rw [call, feed, if_neg (by rw [h]; exact Bool.false_ne_true), if_pos hbreak]
    exact .broken h hline

/-- Every call goes in one of these ways. -/
theorem exists_step (s : Scanner) (c : Call) :
    ∃ reply s', s.call c = (reply, s') ∧ Step s c reply s' := by
  cases h : s.mode.isOver with
  | true => exact ⟨_, _, call_of_isOver h c, .over_ c h⟩
  | false =>
    cases c with
    | feed line => exact ⟨_, _, rfl, step_feed h line⟩
    | close => exact ⟨_, _, call_close h, .closed h rfl rfl rfl⟩

/-- A line that is refused for a break leaves the scanner as it is. -/
theorem Step.eq_of_lineBreak {s s' : Scanner} {c : Call}
    (h : Step s c (.refused .lineBreak) s') : s' = s := by
  generalize hreply : Reply.refused .lineBreak = reply at h
  cases h with
  | over_ _ _ => rfl
  | broken _ _ => rfl
  | failed _ _ _ _ => cases hreply
  | _ => cases hreply

/-! ## Calls in a row -/

theorem replies_append (s : Scanner) (calls more : List Call) :
    s.replies (calls ++ more) = s.replies calls ++ (s.after calls).replies more := by
  induction calls generalizing s with
  | nil => rfl
  | cons c calls ih => exact congrArg (_ :: ·) (ih (s.call c).2)

theorem after_append (s : Scanner) (calls more : List Call) :
    s.after (calls ++ more) = (s.after calls).after more := List.foldl_append

section Cons

variable {s s' : Scanner} {c : Call} {reply : Reply} (h : s.call c = (reply, s'))

include h

theorem replies_cons (calls : List Call) : s.replies (c :: calls) = reply :: s'.replies calls := by
  rw [replies, h]

theorem after_cons (calls : List Call) : s.after (c :: calls) = s'.after calls := by
  rw [after, List.foldl_cons, h, ← after]

end Cons

/-- A scanner that takes no more calls refuses them all and stays as it is. -/
theorem run_of_isOver {s : Scanner} (h : s.mode.isOver = true) (calls : List Call) :
    s.replies calls = calls.map (Call.refusedIn s.mode) ∧ s.after calls = s := by
  induction calls with
  | nil => exact ⟨rfl, rfl⟩
  | cons c calls ih =>
    rw [replies_cons (call_of_isOver h c), after_cons (call_of_isOver h c)]
    exact ⟨congrArg (_ :: ·) ih.1, ih.2⟩

/-- A scanner takes no more calls exactly if it took none before, or was closed, or met a stray
character. -/
theorem isOver_after_iff (s : Scanner) (calls : List Call) :
    (s.after calls).mode.isOver = true ↔
      s.mode.isOver = true ∨ .close ∈ calls ∨ ∃ reply ∈ s.replies calls, reply.isStray := by
  induction calls generalizing s with
  | nil => simp [after, replies]
  | cons c calls ih =>
    obtain ⟨reply, s', hcall, hstep⟩ := exists_step s c
    rw [after_cons hcall, ih, replies_cons hcall]
    simp only [List.mem_cons, exists_eq_or_imp]
    cases hstep with
    | over_ _ h => simp [h]
    | broken h _ => simp [h, Reply.isStray]
    | taken h _ _ hmode _ => simp [h, hmode, Reply.isStray]
    | failed _ _ hmode _ => simp [hmode, Mode.isOver, Reply.isStray]
    | closed _ _ hmode _ => simp [hmode, Mode.isOver]

/-- The line number counts the lines that were taken. -/
theorem lineNumber_after (s : Scanner) (calls : List Call) :
    (s.after calls).lineNumber = s.lineNumber + (s.replies calls).countP Reply.tookLine := by
  induction calls generalizing s with
  | nil => rfl
  | cons c calls ih =>
    obtain ⟨reply, s', hcall, hstep⟩ := exists_step s c
    rw [after_cons hcall, ih, replies_cons hcall, List.countP_cons]
    cases hstep with
    | over_ _ _ => cases c <;> rfl
    | broken _ _ => rfl
    | taken _ _ _ _ hnumber | failed _ _ _ hnumber =>
      simp only [hnumber, Reply.tookLine, Reply.isStray, if_true]
      omega
    | closed _ _ _ hnumber =>
      rw [hnumber]
      rfl

theorem handed_refusedIn (mode : Mode) (c : Call) : (c.refusedIn mode).handed = [] := by
  cases c <;> rfl

/-- A scanner that takes no more calls hands out nothing. -/
theorem handed_of_isOver {s : Scanner} (h : s.mode.isOver = true) (calls : List Call) :
    (s.replies calls).flatMap Reply.handed = [] := by
  rw [(run_of_isOver h calls).1, List.flatMap_map, List.flatMap_eq_nil_iff]
  exact fun c _ => handed_refusedIn s.mode c

/-- The input is ended at most once. -/
theorem countP_endOfInput_le (s : Scanner) (calls : List Call) :
    ((s.replies calls).flatMap Reply.handed).countP (fun t => t.kind = .endOfInput) ≤ 1 := by
  induction calls generalizing s with
  | nil => exact Nat.zero_le 1
  | cons c calls ih =>
    obtain ⟨reply, s', hcall, hstep⟩ := exists_step s c
    rw [replies_cons hcall, List.flatMap_cons, List.countP_append]
    have hrest {n : Nat} (hn : n = 0) (s : Scanner) :
        n + ((s.replies calls).flatMap Reply.handed).countP (fun t => t.kind = .endOfInput) ≤ 1 := by
      rw [hn, Nat.zero_add]
      exact ih s
    cases hstep with
    | over_ _ _ => exact hrest (by rw [handed_refusedIn]; rfl) s
    | broken _ _ => exact hrest rfl s
    | taken _ _ hts _ _ =>
      exact hrest (List.countP_eq_zero.2 fun t ht => by simpa using hts t ht) s'
    | failed _ _ _ _ => exact hrest rfl s'
    | closed _ _ hmode _ =>
      rw [handed_of_isOver (by rw [hmode]; rfl), List.countP_nil]
      exact List.countP_le_length

/-- Only a close ends the input. -/
theorem close_mem_of_endOfInput {s : Scanner} {calls : List Call}
    (h : ∃ t ∈ (s.replies calls).flatMap Reply.handed, t.kind = .endOfInput) : .close ∈ calls := by
  induction calls generalizing s with
  | nil =>
    obtain ⟨t, ht, -⟩ := h
    cases ht
  | cons c calls ih =>
    obtain ⟨t, ht, hkind⟩ := h
    obtain ⟨reply, s', hcall, hstep⟩ := exists_step s c
    rw [replies_cons hcall, List.flatMap_cons, List.mem_append] at ht
    rcases ht with ht | ht
    · cases hstep with
      | over_ _ _ =>
        rw [handed_refusedIn] at ht
        cases ht
      | broken _ _ => cases ht
      | taken _ _ hts _ _ => exact absurd hkind (hts t ht)
      | failed _ _ _ _ => cases ht
      | closed _ _ _ _ => exact List.mem_cons_self
    · exact List.mem_cons_of_mem c (ih ⟨t, ht, hkind⟩)

/-! ## The whole life -/

theorem isOver_after_new_iff (calls : List Call) :
    (({} : Scanner).after calls).mode.isOver = true ↔ IsOverAfter calls := by
  rw [isOver_after_iff, IsOverAfter]
  simp [Mode.isOver]

/-- However a new scanner is called, it lives through the calls in this way. -/
theorem lifeCycle (calls : List Call) : LifeCycle calls where
  endsOnce := countP_endOfInput_le {} calls
  endsLast before rest _ h := close_mem_of_endOfInput h
  fails before c rest _ hstray := by
    obtain ⟨reply, s', hcall, hstep⟩ := exists_step (({} : Scanner).after before) c
    rw [hcall] at hstray
    rw [after_append, after_cons hcall]
    cases hstep with
    | over_ _ _ => cases c <;> cases hstray
    | failed _ _ hmode _ => exact hmode
    | _ => cases hstray
  closes before rest _ hopen := by
    have hmode : (({} : Scanner).after before).mode.isOver = false :=
      eq_false_of_ne_true fun h => hopen ((isOver_after_new_iff before).1 h)
    obtain ⟨reply, s', hcall, hstep⟩ := exists_step (({} : Scanner).after before) .close
    rw [after_append, after_cons hcall, hcall]
    cases hstep with
    | over_ _ h =>
      rw [h] at hmode
      cases hmode
    | closed _ hlast hclosed _ => exact ⟨⟨_, hlast, rfl⟩, hclosed⟩
  over_ before rest hcalls hover := by
    obtain ⟨hreplies, hafter⟩ := run_of_isOver ((isOver_after_new_iff before).2 hover) rest
    rw [hcalls, after_append]
    exact ⟨hreplies, hafter⟩
  breaks before line rest _ := by
    obtain ⟨reply, s', hcall, hstep⟩ := exists_step (({} : Scanner).after before) (.feed line)
    rw [← isOver_after_new_iff, hcall]
    cases hstep with
    | over_ _ h => simp [h, Call.refusedIn]
    | broken h hline => simp [h, hline]
    | taken _ hline _ _ _ => simp [hline]
    | failed _ hline _ _ => simp [hline]
  skips before line rest hcalls hbreak := by
    obtain ⟨reply, s', hcall, hstep⟩ := exists_step (({} : Scanner).after before) (.feed line)
    rw [hcall] at hbreak
    obtain rfl : reply = .refused .lineBreak := hbreak
    have hsame : s' = ({} : Scanner).after before := hstep.eq_of_lineBreak
    rw [hsame] at hcall
    refine ⟨(({} : Scanner).after before).replies rest, ?_, replies_append {} before rest, ?_⟩
    · rw [hcalls, replies_append, replies_cons hcall]
    · rw [hcalls, after_append, after_append, after_cons hcall]
  lineNumber := by rw [lineNumber_after, Nat.zero_add]

/-- A scanner that has failed refuses a line for that, and not for the break in it. -/
example : ({} : Scanner).replies [.feed ['\r'], .feed ['?'], .close, .feed ['\n']] =
    [.refused .lineBreak, .refused (.stray ⟨'?', ['?'], 1, 1⟩), .refused (.closeOver .failed),
      .refused (.lineOver .failed)] := by
  decide +kernel

end Scanner

end SequenceChart
