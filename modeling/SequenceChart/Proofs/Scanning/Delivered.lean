import SequenceChart.Proofs.Scanning.Feeds
import SequenceChart.Source.Stream
set_option autoImplicit false

/-!
# Tokens that are delivered on demand

A stream of tokens can be left at any call.  What it has still to deliver is the tokens that wait
and what the lines not yet taken amount to, so a call takes the first of these answers away.  Main
statement: a token is delivered when the lines up to its own have been taken and no other line has
been, a refused line delivers none of its tokens, and after the end of the input or a refusal the
stream is over and takes no more lines.  A stream that is drained gives what scanning all lines
gives.
-/

namespace SequenceChart

open Scanner (Feeds OneLine)

/-- What lines amount to: the tokens of the lines that are taken, and then the end of the input or
the refusal of a line. -/
def Scanner.deliveries (s : Scanner) : List (List Char) → List TokenStream.Answer
  | [] =>
    match s.close.1 with
    | .ok last => [.token last]
    | .error why => [.refused why]
  | line :: rest =>
    match s.feed line with
    | (.ok ts, s) => ts.map .token ++ s.deliveries rest
    | (.error why, _) => [.refused why]

namespace Scanner.Feeds

variable {s s' : Scanner} {taken : List (List Char)} {ts : List Token}

theorem deliveries_append (h : Feeds s taken ts s') (rest : List (List Char)) :
    s.deliveries (taken ++ rest) = ts.map .token ++ s'.deliveries rest := by
  induction h with
  | nil => rfl
  | cons first _ ih =>
    rw [List.cons_append, deliveries, first, List.map_append, List.append_assoc, ← ih]

theorem deliveries_eq (h : Feeds s taken ts s') {last : Token} (hclose : s'.close.1 = .ok last) :
    s.deliveries taken = ts.map .token ++ [.token last] := by
  have happend := h.deliveries_append []
  rw [List.append_nil, deliveries, hclose] at happend
  exact happend

theorem deliveries_refused (h : Feeds s taken ts s') {line : List Char} {why : Refusal}
    (hline : (s'.feed line).1 = .error why) (rest : List (List Char)) :
    s.deliveries (taken ++ line :: rest) = ts.map .token ++ [.refused why] := by
  obtain ⟨answer, s'', hfeed⟩ : ∃ answer s'', s'.feed line = (answer, s'') := ⟨_, _, rfl⟩
  rw [hfeed] at hline
  obtain rfl : answer = .error why := hline
  rw [h.deliveries_append, deliveries, hfeed]

end Scanner.Feeds

namespace TokenStream

/-- The answers to calls that are made one after the other. -/
def answers (stream : TokenStream) : Nat → List Answer
  | 0 => []
  | n + 1 => stream.next.1 :: stream.next.2.answers n

/-- The stream after calls. -/
def after (stream : TokenStream) : Nat → TokenStream
  | 0 => stream
  | n + 1 => stream.next.2.after n

/-- What a stream has still to deliver. -/
def due (stream : TokenStream) : List Answer :=
  if stream.ended then []
  else stream.waiting.map .token ++ stream.scanner.deliveries stream.unread

/-! ## What is due -/

/-- Taking lines until one has a token takes the first answer away. -/
theorem deliveries_eq_pull (s : Scanner) (lines : List (List Char)) :
    s.deliveries lines = (pull s lines).1 :: (pull s lines).2.due := by
  induction lines generalizing s with
  | nil =>
    obtain ⟨answer, s', hclose⟩ : ∃ answer s', s.close = (answer, s') := ⟨_, _, rfl⟩
    rw [Scanner.deliveries, pull, hclose]
    cases answer <;> rfl
  | cons line lines ih =>
    obtain ⟨answer, s', hfeed⟩ : ∃ answer s', s.feed line = (answer, s') := ⟨_, _, rfl⟩
    rw [Scanner.deliveries, pull, hfeed]
    cases answer with
    | error why => rfl
    | ok ts =>
      cases ts with
      | nil => exact ih s'
      | cons t ts => rfl

theorem next_of_ended {stream : TokenStream} (h : stream.ended = true) :
    stream.next = (.ended, stream) := if_pos h

theorem due_of_ended {stream : TokenStream} (h : stream.ended = true) : stream.due = [] := if_pos h

/-- A call takes the first answer away. -/
theorem due_eq_next {stream : TokenStream} (h : stream.ended = false) :
    stream.due = stream.next.1 :: stream.next.2.due := by
  obtain ⟨s, waiting, unread, ended⟩ := stream
  obtain rfl : ended = false := h
  cases waiting with
  | nil => exact deliveries_eq_pull s unread
  | cons t waiting => rfl

theorem due_eq_cons {stream rest : TokenStream} {answer : Answer}
    (hnext : stream.next = (answer, rest)) (hne : answer ≠ .ended) :
    stream.due = answer :: rest.due := by
  cases hended : stream.ended with
  | true =>
    cases hnext.symm.trans (next_of_ended hended)
    exact absurd rfl hne
  | false => rw [due_eq_next hended, hnext]

/-- The answers are those that are due, and then none. -/
theorem answers_eq (stream : TokenStream) (n : Nat) :
    stream.answers n = stream.due.take n ++ List.replicate (n - stream.due.length) .ended := by
  induction n generalizing stream with
  | zero => rw [answers, List.take_zero, Nat.zero_sub]; rfl
  | succ n ih =>
    cases h : stream.ended with
    | true =>
      rw [answers, ih, next_of_ended h, due_of_ended h, List.take_nil, List.take_nil]
      rfl
    | false =>
      rw [answers, ih, due_eq_next h, List.take_succ_cons, List.length_cons, Nat.succ_sub_succ]
      rfl

theorem due_after (stream : TokenStream) (n : Nat) : (stream.after n).due = stream.due.drop n := by
  induction n generalizing stream with
  | zero => rfl
  | succ n ih =>
    rw [after, ih]
    cases h : stream.ended with
    | true => rw [next_of_ended h, due_of_ended h, List.drop_nil, List.drop_nil]
    | false => rw [due_eq_next h, List.drop_succ_cons]

theorem after_succ (stream : TokenStream) (n : Nat) :
    stream.after (n + 1) = (stream.after n).next.2 := by
  induction n generalizing stream with
  | zero => rfl
  | succ n ih => exact ih stream.next.2

theorem after_of_ended {stream : TokenStream} (h : stream.ended = true) (n : Nat) :
    stream.after n = stream := by
  induction n with
  | zero => rfl
  | succ n ih => rw [after_succ, ih, next_of_ended h]

theorem after_add (stream : TokenStream) (n m : Nat) :
    stream.after (n + m) = (stream.after n).after m := by
  induction m with
  | zero => rfl
  | succ m ih => rw [← Nat.add_assoc, after_succ, ih, ← after_succ]

/-- As many answers are due as there are calls up to the one that ends the stream. -/
theorem length_due {stream : TokenStream} {n : Nat} (hgoing : (stream.after n).ended = false)
    (hended : (stream.after (n + 1)).ended = true) : stream.due.length = n + 1 := by
  have hrest := stream.due_after n
  rw [due_eq_next hgoing, ← after_succ, due_of_ended hended] at hrest
  have hlength := congrArg List.length hrest
  rw [List.length_drop, List.length_singleton] at hlength
  omega

/-- The first answers are the first that are due. -/
theorem answers_of_due {stream : TokenStream} {n : Nat} {before behind : List Answer}
    (hdue : stream.due = before ++ behind) (hlength : before.length = n) :
    stream.answers n = before := by
  rw [answers_eq, hdue, ← hlength, List.take_left, List.length_append,
    Nat.sub_eq_zero_of_le (Nat.le_add_right _ _), List.replicate_zero, List.append_nil]

theorem mem_due_of_mem_answers {stream : TokenStream} {n : Nat} {answer : Answer}
    (h : answer ∈ stream.answers n) (hne : answer ≠ .ended) : answer ∈ stream.due := by
  rw [answers_eq, List.mem_append] at h
  rcases h with h | h
  · exact List.mem_of_mem_take h
  · exact absurd (List.eq_of_mem_replicate h) hne

/-! ## All answers -/

/-- The tokens that a stream delivers until it is over, or the refusal that ends it. -/
def drain (stream : TokenStream) : Except Scanner.Refusal (List Token) :=
  match _hnext : stream.next with
  | (.ended, _) => .ok []
  | (.refused why, _) => .error why
  | (.token t, rest) => do
    let more ← rest.drain
    return t :: more
termination_by stream.due.length
decreasing_by
  rw [due_eq_cons _hnext nofun]
  exact Nat.lt_succ_self _

/-- The tokens of answers, up to the first refusal. -/
def collect : List Answer → Except Scanner.Refusal (List Token)
  | [] => .ok []
  | .ended :: _ => .ok []
  | .refused why :: _ => .error why
  | .token t :: rest => do
    let more ← collect rest
    return t :: more

theorem collect_map_append (ts : List Token) (rest : List Answer) :
    collect (ts.map .token ++ rest) = (collect rest).map (ts ++ ·) := by
  induction ts with
  | nil =>
    rw [List.map_nil, List.nil_append]
    cases collect rest <;> rfl
  | cons t ts ih =>
    rw [List.map_cons, List.cons_append, collect, ih]
    cases collect rest <;> rfl

theorem drain_eq_collect (stream : TokenStream) : stream.drain = collect stream.due := by
  fun_induction drain stream with
  | case1 stream rest hnext =>
    cases hended : stream.ended with
    | true =>
      rw [due_of_ended hended]
      rfl
    | false =>
      rw [due_eq_next hended, hnext]
      rfl
  | case2 stream why rest hnext =>
    rw [due_eq_cons hnext nofun]
    rfl
  | case3 stream t rest hnext ih =>
    rw [due_eq_cons hnext nofun, collect, ih]

theorem collect_deliveries (s : Scanner) (lines : List (List Char)) :
    collect (s.deliveries lines) = s.tokens lines := by
  induction lines generalizing s with
  | nil =>
    rw [Scanner.deliveries, Scanner.tokens]
    cases s.close.1 <;> rfl
  | cons line lines ih =>
    obtain ⟨answer, s', hfeed⟩ : ∃ answer s', s.feed line = (answer, s') := ⟨_, _, rfl⟩
    rw [Scanner.deliveries, Scanner.tokens, hfeed]
    cases answer with
    | error why => rfl
    | ok ts =>
      rw [collect_map_append, ih]
      cases s'.tokens lines <;> rfl

/-- A stream over lines delivers what scanning all of them gives. -/
theorem drain_ofLines (lines : List (List Char)) :
    (ofLines lines).drain = ({} : Scanner).tokens lines := by
  rw [drain_eq_collect]
  exact collect_deliveries {} lines

/-! ## Lines that are taken -/

/-- The stream over lines goes on: it has taken some of them, with these tokens, and those that wait
stand on the last one. -/
structure Going (lines taken : List (List Char)) (ts : List Token) (stream : TokenStream) :
    Prop where
  going : stream.ended = false
  lines_eq : lines = taken ++ stream.unread
  feeds : Feeds {} taken ts stream.scanner
  waiting : ∀ t ∈ stream.waiting, t.line = taken.length ∧ t.kind ≠ .endOfInput

/-- An answer of a stream over lines that went on, and the stream after it. -/
inductive Step (lines : List (List Char)) : Answer → TokenStream → Prop where
  /-- a token on the last line that is taken -/
  | token {taken : List (List Char)} {ts : List Token} {t : Token} {stream : TokenStream}
    (h : Going lines taken ts stream) (hline : t.line = taken.length)
    (hkind : t.kind ≠ .endOfInput) : Step lines (.token t) stream
  /-- the end of the input, when all lines are taken -/
  | last {ts : List Token} {s : Scanner} {t : Token} {stream : TokenStream}
    (hfeeds : Feeds {} lines ts s) (hclose : s.close.1 = .ok t) (hunread : stream.unread = [])
    (hended : stream.ended = true) : Step lines (.token t) stream
  /-- the refusal of the last line that is taken -/
  | refused {taken : List (List Char)} {line : List Char} {ts : List Token} {s : Scanner}
    {why : Scanner.Refusal} {stream : TokenStream}
    (hlines : lines = taken ++ line :: stream.unread) (hfeeds : Feeds {} taken ts s)
    (hline : (s.feed line).1 = .error why) (hended : stream.ended = true) :
    Step lines (.refused why) stream

section Lines

variable {lines taken : List (List Char)} {ts : List Token} {stream : TokenStream} {n : Nat}

theorem going_ofLines (lines : List (List Char)) : Going lines [] [] (ofLines lines) :=
  ⟨rfl, rfl, .nil {}, nofun⟩

/-- Taking lines until one has a token leads to one of these answers. -/
theorem step_pull {s : Scanner} {unread : List (List Char)} (hlines : lines = taken ++ unread)
    (hfeeds : Feeds {} taken ts s) : Step lines (pull s unread).1 (pull s unread).2 := by
  induction unread generalizing taken ts s with
  | nil =>
    rw [List.append_nil] at hlines
    subst hlines
    obtain ⟨last, hclose, -⟩ := hfeeds.tokens_eq rfl
    obtain ⟨answer, s', hs'⟩ : ∃ answer s', s.close = (answer, s') := ⟨_, _, rfl⟩
    rw [hs'] at hclose
    obtain rfl : answer = .ok last := hclose
    rw [pull, hs']
    exact .last hfeeds (congrArg Prod.fst hs') rfl rfl
  | cons line unread ih =>
    obtain ⟨answer, s', hfeed⟩ : ∃ answer s', s.feed line = (answer, s') := ⟨_, _, rfl⟩
    rw [pull, hfeed]
    cases answer with
    | error why => exact .refused hlines hfeeds (congrArg Prod.fst hfeed) rfl
    | ok us =>
      have hnext : lines = (taken ++ [line]) ++ unread := by
        rw [hlines, List.append_assoc, List.singleton_append]
      have htaken := hfeeds.concat hfeed
      cases us with
      | nil => exact ih hnext htaken
      | cons t us =>
        have hplaced : ∀ u ∈ t :: us,
            u.line = (taken ++ [line]).length ∧ u.kind ≠ .endOfInput := by
          intro u hu
          obtain ⟨hline, hkind, -⟩ := (Scanner.feed_ok hfeed).2.2 u hu
          rw [hfeeds.lineNumber, Nat.zero_add] at hline
          rw [List.length_append]
          exact ⟨hline, hkind⟩
        obtain ⟨⟨hline, hkind⟩, hwaiting⟩ := List.forall_mem_cons.1 hplaced
        exact .token ⟨rfl, hnext, htaken, hwaiting⟩ hline hkind

theorem Going.step (h : Going lines taken ts stream) :
    Step lines stream.next.1 stream.next.2 := by
  obtain ⟨s, waiting, unread, ended⟩ := stream
  obtain rfl : ended = false := h.going
  cases waiting with
  | nil => exact step_pull h.lines_eq h.feeds
  | cons t waiting =>
    obtain ⟨⟨hline, hkind⟩, hwaiting⟩ := List.forall_mem_cons.1 h.waiting
    exact .token ⟨rfl, h.lines_eq, h.feeds, hwaiting⟩ hline hkind

theorem exists_going (h : ((ofLines lines).after n).ended = false) :
    ∃ taken ts, Going lines taken ts ((ofLines lines).after n) := by
  induction n with
  | zero => exact ⟨[], [], going_ofLines lines⟩
  | succ n ih =>
    cases hbefore : ((ofLines lines).after n).ended with
    | true =>
      rw [after_succ, next_of_ended hbefore, hbefore] at h
      cases h
    | false =>
      obtain ⟨taken, ts, hgoing⟩ := ih hbefore
      have hstep := hgoing.step
      rw [after_succ] at h ⊢
      generalize ((ofLines lines).after n).next.1 = answer at hstep
      cases hstep with
      | token hnext _ _ => exact ⟨_, _, hnext⟩
      | last _ _ _ hended => cases h.symm.trans hended
      | refused _ _ _ hended => cases h.symm.trans hended

/-- A call that is answered finds the stream going on. -/
theorem step_after (h : ((ofLines lines).after n).next.1 ≠ .ended) :
    ((ofLines lines).after n).ended = false ∧
      Step lines ((ofLines lines).after n).next.1 ((ofLines lines).after (n + 1)) := by
  cases hended : ((ofLines lines).after n).ended with
  | true =>
    rw [next_of_ended hended] at h
    exact absurd rfl h
  | false =>
    obtain ⟨taken, ts, hgoing⟩ := exists_going hended
    rw [after_succ]
    exact ⟨rfl, hgoing.step⟩

theorem due_ofLines (lines : List (List Char)) :
    (ofLines lines).due = ({} : Scanner).deliveries lines := rfl

end Lines

/-! ## Lines that are not taken -/

/-- Where a stream goes on after taking lines, the lines that it has not taken played no part. -/
theorem exists_pull_append {s : Scanner} {lines : List (List Char)}
    (h : (pull s lines).2.ended = false) :
    ∃ taken, lines = taken ++ (pull s lines).2.unread ∧
      ∀ more, pull s (taken ++ more)
        = ((pull s lines).1, { (pull s lines).2 with unread := more }) := by
  induction lines generalizing s with
  | nil =>
    rw [pull] at h
    split at h <;> cases h
  | cons line lines ih =>
    obtain ⟨answer, s', hfeed⟩ : ∃ answer s', s.feed line = (answer, s') := ⟨_, _, rfl⟩
    rw [pull, hfeed] at h ⊢
    cases answer with
    | error why => cases h
    | ok ts =>
      cases ts with
      | nil =>
        obtain ⟨taken, hlines, hmore⟩ := ih h
        refine ⟨line :: taken, congrArg (line :: ·) hlines, fun more => ?_⟩
        rw [List.cons_append, pull, hfeed]
        exact hmore more
      | cons t waiting =>
        refine ⟨[line], rfl, fun more => ?_⟩
        rw [List.singleton_append, pull, hfeed]

theorem exists_next_append {stream : TokenStream} (h : stream.next.2.ended = false) :
    ∃ taken, stream.unread = taken ++ stream.next.2.unread ∧
      ∀ more, ({ stream with unread := taken ++ more } : TokenStream).next
        = (stream.next.1, { stream.next.2 with unread := more }) := by
  obtain ⟨s, waiting, unread, ended⟩ := stream
  cases ended with
  | true => cases h
  | false =>
    cases waiting with
    | nil => exact exists_pull_append h
    | cons t waiting => exact ⟨[], rfl, fun _ => rfl⟩

/-- Where a stream still goes on after calls, the lines that it has not taken played no part: over
any others in their place the calls have the same answers and leave it in the same state. -/
theorem exists_after_append {stream : TokenStream} {n : Nat} (h : (stream.after n).ended = false) :
    ∃ taken, stream.unread = taken ++ (stream.after n).unread ∧
      ∀ more, ({ stream with unread := taken ++ more } : TokenStream).answers n = stream.answers n ∧
        ({ stream with unread := taken ++ more } : TokenStream).after n
          = { stream.after n with unread := more } := by
  induction n generalizing stream with
  | zero => exact ⟨[], rfl, fun _ => ⟨rfl, rfl⟩⟩
  | succ n ih =>
    have hnext : stream.next.2.ended = false := by
      cases hended : stream.next.2.ended with
      | false => rfl
      | true =>
        rw [after, after_of_ended hended, hended] at h
        cases h
    obtain ⟨first, hfirst, hfirstMore⟩ := exists_next_append hnext
    obtain ⟨others, hothers, hothersMore⟩ := @ih stream.next.2 h
    refine ⟨first ++ others, ?_, fun more => ?_⟩
    · rw [hfirst, hothers, after, List.append_assoc]
    · obtain ⟨hanswers, hafter⟩ := hothersMore more
      rw [answers, answers, after, after, List.append_assoc, hfirstMore, hanswers, hafter]
      exact ⟨rfl, rfl⟩

/-! ## Delivery in time -/

/-- No answer but that the stream is over follows this one. -/
def Answer.isLast : Answer → Bool
  | .token t => t.kind = .endOfInput
  | .refused _ => true
  | .ended => true

/-- When the stream over lines takes a line, and what it delivers then. -/
structure OnTime (lines : List (List Char)) : Prop where
  /-- When a token that does not end the input is delivered, the lines up to its own have been taken
  and no other line has been. -/
  token : ∀ n t, ((ofLines lines).after n).next.1 = .token t → t.kind ≠ .endOfInput →
    ∃ taken, lines = taken ++ ((ofLines lines).after (n + 1)).unread ∧
      (taken.length : Int) = t.line
  /-- When a line is refused, for a stray character, the lines up to it have been taken and no other
  line has been.  None of its tokens is delivered, before or after. -/
  refused : ∀ n why, ((ofLines lines).after n).next.1 = .refused why →
    ∃ at_ taken, why = .stray at_ ∧
      lines = taken ++ ((ofLines lines).after (n + 1)).unread ∧ taken.length = at_.line ∧
      ∀ m t, .token t ∈ (ofLines lines).answers m → t.line < (at_.line : Int)
  /-- When the end of the input is delivered, all lines have been taken, and the tokens of all of
  them, one line after the other, are what has been delivered before. -/
  last : ∀ n t, ((ofLines lines).after n).next.1 = .token t → t.kind = .endOfInput →
    ((ofLines lines).after (n + 1)).unread = [] ∧
      ∃ ts s, Feeds {} lines ts s ∧ s.close.1 = .ok t ∧
        (ofLines lines).answers n = ts.map .token
  /-- After the end of the input or a refusal every call finds the stream over and leaves it as it
  is. -/
  over_ : ∀ n, ((ofLines lines).after n).next.1.isLast = true →
    ∀ m, ((ofLines lines).after (n + 1 + m)).next = (.ended, (ofLines lines).after (n + 1))
  /-- Where all lines can be scanned, their tokens and the end of the input are delivered. -/
  complete : ∀ ts s, Feeds {} lines ts s → ∃ last, s.close.1 = .ok last ∧ last.kind = .endOfInput ∧
    (ofLines lines).answers (ts.length + 1) = ts.map .token ++ [.token last]
  /-- Where a line is refused, the tokens of the lines before it and the refusal are delivered. -/
  stopped : ∀ taken line rest ts s why, lines = taken ++ line :: rest → Feeds {} taken ts s →
    (s.feed line).1 = .error why →
    (ofLines lines).answers (ts.length + 1) = ts.map .token ++ [.refused why]
  /-- As long as the stream goes on, the lines that it has not taken play no part: over any others
  in their place it has given the same answers and is in the same state. -/
  untaken : ∀ n, ((ofLines lines).after n).ended = false →
    ∃ taken, lines = taken ++ ((ofLines lines).after n).unread ∧
      ∀ more, (ofLines (taken ++ more)).answers n = (ofLines lines).answers n ∧
        (ofLines (taken ++ more)).after n = { (ofLines lines).after n with unread := more }

section OnTime

variable {lines : List (List Char)} {n : Nat}

/-- The tokens of lines of which one is refused stand before it. -/
theorem line_lt_of_refused {taken rest : List (List Char)} {line : List Char} {ts : List Token}
    {s : Scanner} {why : Scanner.Refusal} (hfeeds : Feeds {} taken ts s)
    (hline : (s.feed line).1 = .error why) {t : Token} {m : Nat}
    (ht : .token t ∈ (ofLines (taken ++ line :: rest)).answers m) :
    t.line < ((taken.length + 1 : Nat) : Int) := by
  have hdue := mem_due_of_mem_answers ht nofun
  rw [due_ofLines, hfeeds.deliveries_refused hline, List.mem_append] at hdue
  rcases hdue with hmem | hlast
  · obtain ⟨_, hu, ⟨⟩⟩ := List.mem_map.1 hmem
    obtain ⟨hle, -⟩ := hfeeds.mem t hu
    rw [Nat.zero_add] at hle
    omega
  · cases List.mem_singleton.1 hlast

namespace Step

variable {stream : TokenStream} {t : Token}

/-- A token that does not end the input stands on the last line that is taken. -/
theorem exists_taken (h : Step lines (.token t) stream) (hkind : t.kind ≠ .endOfInput) :
    ∃ taken, lines = taken ++ stream.unread ∧ (taken.length : Int) = t.line := by
  cases h with
  | token hgoing hline _ => exact ⟨_, hgoing.lines_eq, hline.symm⟩
  | last hfeeds hclose _ _ =>
    obtain ⟨last, hlast, hend, -, -⟩ := hfeeds.tokens_eq rfl
    cases hlast.symm.trans hclose
    exact absurd hend hkind

/-- Without breaks in the lines the last line that is taken is refused for a stray character on it,
and all tokens that are ever delivered stand before it. -/
theorem exists_stray {why : Scanner.Refusal} (h : Step lines (.refused why) stream)
    (hlines : ∀ line ∈ lines, OneLine line) :
    ∃ at_ taken, why = .stray at_ ∧ lines = taken ++ stream.unread ∧ taken.length = at_.line ∧
      ∀ m t, .token t ∈ (ofLines lines).answers m → t.line < (at_.line : Int) := by
  cases h with
  | @refused taken line _ _ _ _ hcut hfeeds hline _ =>
    have hmem : line ∈ lines := by
      rw [hcut]
      exact List.mem_append_right _ List.mem_cons_self
    obtain ⟨at_, rfl, hat, -⟩ := Scanner.feed_error (hfeeds.isOver rfl) (hlines line hmem) hline
    rw [hfeeds.lineNumber, Nat.zero_add] at hat
    refine ⟨at_, taken ++ [line], rfl, ?_, ?_, ?_⟩
    · rw [List.append_assoc]
      exact hcut
    · rw [List.length_append, hat, List.length_singleton]
    · intro m t ht
      rw [hcut] at ht
      rw [hat]
      exact line_lt_of_refused hfeeds hline ht

/-- The end of the input is the last answer that is due. -/
theorem exists_feeds (h : Step lines (.token t) stream) (hkind : t.kind = .endOfInput) :
    stream.unread = [] ∧ stream.ended = true ∧ ∃ ts s, Feeds {} lines ts s ∧ s.close.1 = .ok t ∧
      (ofLines lines).due = ts.map .token ++ [.token t] := by
  cases h with
  | token _ _ hne => exact absurd hkind hne
  | last hfeeds hclose hunread hended =>
    exact ⟨hunread, hended, _, _, hfeeds, hclose, hfeeds.deliveries_eq hclose⟩

/-- An answer behind which nothing is due ends the stream. -/
theorem ended_eq {answer : Answer} (h : Step lines answer stream) (hlast : answer.isLast = true) :
    stream.ended = true := by
  cases h with
  | token _ _ hkind => exact absurd (of_decide_eq_true hlast) hkind
  | last _ _ _ hended => exact hended
  | refused _ _ _ hended => exact hended

end Step

/-- A stream over lines that has given its last answer is over. -/
theorem ended_of_isLast (h : ((ofLines lines).after n).next.1.isLast = true) :
    ((ofLines lines).after (n + 1)).ended = true := by
  by_cases hover : ((ofLines lines).after n).next.1 = .ended
  · cases hended : ((ofLines lines).after n).ended with
    | true => rw [after_succ, next_of_ended hended, hended]
    | false =>
      obtain ⟨taken, ts, hgoing⟩ := exists_going hended
      have hstep := hgoing.step
      rw [hover] at hstep
      cases hstep
  · exact (step_after hover).2.ended_eq h

/-- Over lines without breaks every token is delivered in time. -/
theorem onTime_of_oneLine (h : ∀ line ∈ lines, OneLine line) : OnTime lines where
  token := by
    intro n t hnext hkind
    obtain ⟨-, hstep⟩ := step_after (by rw [hnext]; nofun)
    rw [hnext] at hstep
    exact hstep.exists_taken hkind
  refused := by
    intro n why hnext
    obtain ⟨-, hstep⟩ := step_after (by rw [hnext]; nofun)
    rw [hnext] at hstep
    exact hstep.exists_stray h
  last := by
    intro n t hnext hkind
    obtain ⟨hgoing, hstep⟩ := step_after (by rw [hnext]; nofun)
    rw [hnext] at hstep
    obtain ⟨hunread, hended, ts, s, hfeeds, hclose, hdue⟩ := hstep.exists_feeds hkind
    have hlength := length_due hgoing hended
    rw [hdue, List.length_append, List.length_singleton] at hlength
    exact ⟨hunread, ts, s, hfeeds, hclose, answers_of_due hdue (Nat.succ.inj hlength)⟩
  over_ := by
    intro n hlast m
    have hended := ended_of_isLast hlast
    rw [after_add, after_of_ended hended, next_of_ended hended]
  complete := by
    intro ts s hfeeds
    obtain ⟨last, hclose, hkind, -, -⟩ := hfeeds.tokens_eq rfl
    refine ⟨last, hclose, hkind, ?_⟩
    refine answers_of_due ((hfeeds.deliveries_eq hclose).trans (List.append_nil _).symm) ?_
    rw [List.length_append, List.length_map, List.length_singleton]
  stopped := by
    rintro taken line rest ts s why rfl hfeeds hline
    refine answers_of_due ((hfeeds.deliveries_refused hline rest).trans (List.append_nil _).symm) ?_
    rw [List.length_append, List.length_map, List.length_singleton]
  untaken := fun _ hgoing => exists_after_append hgoing

/-- The empty line is taken with the block of free text behind it, whose line with a question mark
is delivered as a text.  On the fifth line a question mark starts no token: the word before it is
not delivered, and the last line is not taken. -/
theorem onTime_of_oneLine_stray :
    ∃ lines : List (List Char),
      lines = ["".toList, "note".toList, "why?".toList, "end".toList, "A ?".toList, "B".toList] ∧
      OnTime lines ∧
      (ofLines lines).answers 5 =
        [.token ⟨.keyword .note, some "note", 2, 1⟩, .token ⟨.text, some "why?", 3, 1⟩,
          .token ⟨.keyword .end_, some "end", 4, 1⟩, .refused (.stray ⟨'?', "A ?".toList, 5, 3⟩),
          .ended] ∧
      ((ofLines lines).after 1).unread.length = 4 ∧
      ((ofLines lines).after 4).unread = ["B".toList] := by
  refine ⟨_, rfl, onTime_of_oneLine ?_, ?_, ?_, ?_⟩
  · unfold OneLine
    decide
  · decide +kernel
  · decide +kernel
  · decide +kernel

end OnTime

end TokenStream

end SequenceChart
