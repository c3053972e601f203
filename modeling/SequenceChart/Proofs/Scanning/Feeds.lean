import SequenceChart.Source.Scanner
set_option autoImplicit false

/-!
# Feeding lines to a scanner

The tokens of lines that a scanner takes one after the other.  Each token carries the number of its
line, and none of them ends the input.  A line without a break can only be refused for a stray
character, which stands on that line.
-/

namespace SequenceChart

namespace Scanner

/-- The scanner takes the lines, answers with these tokens in all and is left in a state. -/
inductive Feeds : Scanner → List (List Char) → List Token → Scanner → Prop where
  | nil (s : Scanner) : Feeds s [] [] s
  | cons {s s' s'' : Scanner} {line : List Char} {lines : List (List Char)} {ts us : List Token}
      (first : s.feed line = (.ok ts, s')) (rest : Feeds s' lines us s'') :
      Feeds s (line :: lines) (ts ++ us) s''

/-- Neither a line feed nor a carriage return stands in the line. -/
def OneLine (line : List Char) : Prop := '\n' ∉ line ∧ '\r' ∉ line

theorem oneLine_append {first second : List Char} :
    OneLine (first ++ second) ↔ OneLine first ∧ OneLine second := by
  simp only [OneLine, List.mem_append, not_or]
  exact and_and_and_comm

/-! ## One line -/

theorem lexeme?_ne_endOfInput {slot : Slot} {cs word rest : List Char} {kind : TokenKind}
    (h : lexeme? slot cs = some (kind, word, rest)) : kind ≠ .endOfInput := by
  have hword (cs : List Char) : wordKind cs ≠ .endOfInput := by
    unfold wordKind
    split <;> simp
  unfold lexeme? at h
  split at h <;> (try split at h) <;> (try split at h) <;> simp_all
  all_goals (obtain ⟨rfl, -⟩ := h; simp [hword])

theorem eq_ok_of_toOption {ε α : Type} {answer : Except ε α} {a : α}
    (h : answer.toOption = some a) : answer = .ok a := by
  cases answer with
  | error e => cases h
  | ok b => exact congrArg Except.ok (Option.some.inj h)

theorem eq_error_of_tryCatch {ε α : Type} {answer : Except ε α} {e : ε}
    (h : ((answer.map fun _ => none).tryCatch fun e => .ok (some e)).toOption = some (some e)) :
    answer = .error e := by
  cases answer with
  | error e' => exact congrArg Except.error (Option.some.inj (Option.some.inj h))
  | ok a => cases h

/-- The tokens of a text are its first token and those of the text after it. -/
theorem exists_more_of_ok {answer : Except (Char × Nat) (List Token)} {t : Token} {ts : List Token}
    (h : (do let more ← answer; return t :: more) = Except.ok ts) :
    ∃ more, answer = .ok more ∧ ts = t :: more := by
  cases answer with
  | error stray => cases h
  | ok more => exact ⟨more, rfl, (Except.ok.inj h).symm⟩

/-- A first token is followed by a stray character if the text after it has one. -/
theorem eq_error_of_more {answer : Except (Char × Nat) (List Token)} {t : Token} {stray : Char × Nat}
    (h : (do let more ← answer; return t :: more) = Except.error stray) : answer = .error stray := by
  cases answer with
  | error stray => exact congrArg Except.error (Except.error.inj h)
  | ok more => cases h

/-- The tokens of a statement line stand on it, do not end the input and have a text. -/
theorem mem_statementTokens {line column : Nat} {slot : Slot} {isFirst : Bool} {cs : List Char}
    {ts : List Token} (h : statementTokens line slot isFirst column cs = .ok ts) :
    ∀ t ∈ ts, t.line = line ∧ t.kind ≠ .endOfInput ∧ t.text = some t.content := by
  fun_induction statementTokens line slot isFirst column cs generalizing ts with
  | case1 =>
    cases h
    intro t ht
    cases ht
  | case2 _ _ _ _ _ _ ih => exact ih h
  | case3 =>
    cases h
    intro t ht
    rw [List.mem_singleton.1 ht]
    exact ⟨rfl, nofun, rfl⟩
  | case4 => cases h
  | case5 slot isFirst column c rest _ _ kind word after hlex ih =>
    obtain ⟨more, hmore, rfl⟩ := exists_more_of_ok h
    intro t ht
    rcases List.mem_cons.1 ht with rfl | ht
    · exact ⟨rfl, lexeme?_ne_endOfInput hlex, rfl⟩
    · exact ih hmore t ht

theorem isOver_afterStatement (ts : List Token) : (Mode.afterStatement ts).isOver = false := by
  unfold Mode.afterStatement
  split
  · rfl
  · split <;> rfl

/-- A scanner looks for breaks character by character. -/
theorem any_break_eq_false_iff (line : List Char) :
    (line.any fun c => c = '\n' || c = '\r') = false ↔ OneLine line := by
  simp only [List.any_eq_false, Bool.or_eq_true, decide_eq_true_eq, not_or, OneLine]
  constructor
  · intro h
    exact ⟨fun hc => (h _ hc).1 rfl, fun hc => (h _ hc).2 rfl⟩
  · rintro ⟨hfeed, hreturn⟩ c hc
    exact ⟨fun he => hfeed (he ▸ hc), fun he => hreturn (he ▸ hc)⟩

/-- The scanner reads the line as a statement: in statement mode, or as the one that ends a block of
free text. -/
structure ReadsStatement (s : Scanner) (line : List Char) : Prop where
  oneLine : OneLine line
  mode : s.mode = .statement ∨ s.mode = .textBlock ∧ isBlockEnd line

/-- A line without a break that is no text is read as a statement. -/
theorem ReadsStatement.of_not_text {s : Scanner} {line : List Char} (hopen : ¬s.mode.isOver = true)
    (hline : OneLine line) (htext : ¬(s.mode = .textBlock && !isBlockEnd line) = true) :
    s.ReadsStatement line := by
  refine ⟨hline, ?_⟩
  cases hmode : s.mode with
  | statement => exact .inl rfl
  | textBlock => exact .inr ⟨rfl, by simpa [hmode] using htext⟩
  | failed | closed => exact absurd (by rw [hmode]; rfl) hopen

theorem ReadsStatement.isOver_eq {s : Scanner} {line : List Char} (h : s.ReadsStatement line) :
    s.mode.isOver = false := by
  rcases h.mode with hmode | ⟨hmode, -⟩ <;> rw [hmode] <;> rfl

theorem ReadsStatement.feed_eq {s : Scanner} {line : List Char} (h : s.ReadsStatement line) :
    s.feed line = s.feedStatement line := by
  rw [feed, h.isOver_eq, (any_break_eq_false_iff line).2 h.oneLine]
  rcases h.mode with hmode | ⟨hmode, hend⟩
  · simp [hmode]
  · simp [hmode, hend]

/-- What a line that is read as a statement and taken leaves. -/
theorem ReadsStatement.of_feed {s s' : Scanner} {line : List Char} {ts : List Token}
    (h : s.ReadsStatement line) (hfeed : s.feed line = (.ok ts, s')) :
    statementTokens (s.lineNumber + 1) .plain true 1 line = .ok ts ∧
      s' = ⟨Mode.afterStatement ts, s.lineNumber + 1, line.length⟩ := by
  rw [h.feed_eq, feedStatement] at hfeed
  split at hfeed
  · next htokens =>
    cases hfeed
    exact ⟨htokens, rfl⟩
  · cases hfeed

/-- What a line that is read as a statement leaves if all of it can be scanned. -/
theorem ReadsStatement.feed_of_ok {s : Scanner} {line : List Char} {ts : List Token}
    (h : s.ReadsStatement line)
    (htokens : statementTokens (s.lineNumber + 1) .plain true 1 line = .ok ts) :
    s.feed line = (.ok ts, ⟨Mode.afterStatement ts, s.lineNumber + 1, line.length⟩) := by
  rw [h.feed_eq, feedStatement, htokens]

/-- What a line that is read as a statement leaves if a character on it starts no token. -/
theorem ReadsStatement.feed_of_error {s : Scanner} {line : List Char} {c : Char} {column : Nat}
    (h : s.ReadsStatement line)
    (hstray : statementTokens (s.lineNumber + 1) .plain true 1 line = .error (c, column)) :
    s.feed line = (.error (.stray ⟨c, line, s.lineNumber + 1, column⟩),
      ⟨.failed, s.lineNumber + 1, line.length⟩) := by
  rw [h.feed_eq, feedStatement, hstray]

/-- A stray character is found on a line that is read as a statement. -/
theorem stray_of_feed {s s' : Scanner} {line : List Char} {at_ : Stray}
    (h : s.feed line = (.error (.stray at_), s')) :
    s.ReadsStatement line ∧ at_.line = s.lineNumber + 1 ∧
      statementTokens (s.lineNumber + 1) .plain true 1 line = .error (at_.char, at_.column) := by
  have hfeed := h
  unfold feed at h
  split at h
  · cases h
  next hopen =>
  split at h
  · cases h
  next hbreak =>
  split at h
  · cases h
  next htext =>
  have hline := (any_break_eq_false_iff line).1 (eq_false_of_ne_true hbreak)
  unfold feedStatement at h
  dsimp only at h
  split at h
  · cases h
  · next hstray =>
    cases h
    exact ⟨.of_not_text hopen hline htext, rfl, hstray⟩

/-- A line that is taken is one text token of a block of free text, or it is read as a statement. -/
theorem feed_ok_cases {s s' : Scanner} {line : List Char} {ts : List Token}
    (h : s.feed line = (.ok ts, s')) :
    (s.mode = .textBlock ∧ ts = [⟨.text, some (String.ofList line), (s.lineNumber + 1 : Nat), 1⟩] ∧
        s' = ⟨.textBlock, s.lineNumber + 1, line.length⟩) ∨
      (s.ReadsStatement line ∧ statementTokens (s.lineNumber + 1) .plain true 1 line = .ok ts ∧
        s' = ⟨Mode.afterStatement ts, s.lineNumber + 1, line.length⟩) := by
  have hfeed := h
  unfold feed at h
  split at h
  · cases h
  next hopen =>
  split at h
  · cases h
  next hbreak =>
  split at h
  · next htext =>
    cases h
    exact .inl ⟨(Bool.and_eq_true_iff.1 htext).1 |> of_decide_eq_true, rfl, rfl⟩
  · next htext =>
    have hline := (any_break_eq_false_iff line).1 (eq_false_of_ne_true hbreak)
    have hreads : s.ReadsStatement line := .of_not_text hopen hline htext
    exact .inr ⟨hreads, hreads.of_feed hfeed⟩

/-- What a line that is taken leaves: the next number, a scanner that goes on, and tokens with a
text that stand on the line. -/
theorem feed_ok {s s' : Scanner} {line : List Char} {ts : List Token}
    (h : s.feed line = (.ok ts, s')) :
    s'.lineNumber = s.lineNumber + 1 ∧ s'.mode.isOver = false ∧
      ∀ t ∈ ts, t.line = (s.lineNumber + 1 : Nat) ∧ t.kind ≠ .endOfInput ∧
        t.text = some t.content := by
  rcases feed_ok_cases h with ⟨-, rfl, rfl⟩ | ⟨-, htokens, rfl⟩
  · exact ⟨rfl, rfl, List.forall_mem_singleton.2 ⟨rfl, nofun, rfl⟩⟩
  · exact ⟨rfl, isOver_afterStatement _, mem_statementTokens htokens⟩

/-- In statement mode a line that is taken is scanned as a statement. -/
theorem statementTokens_of_feed {s s' : Scanner} (hmode : s.mode = .statement) {line : List Char}
    {ts : List Token} (h : s.feed line = (.ok ts, s')) :
    statementTokens (s.lineNumber + 1) .plain true 1 line = .ok ts ∧
      s' = ⟨Mode.afterStatement ts, s.lineNumber + 1, line.length⟩ := by
  rcases feed_ok_cases h with ⟨htext, -⟩ | ⟨-, hstatement⟩
  · cases hmode.symm.trans htext
  · exact hstatement

/-- Only the word `note` opens a block of free text. -/
theorem afterStatement_of_no_note {ts : List Token} (h : ∀ t ∈ ts, t.kind ≠ .keyword .note) :
    Mode.afterStatement ts = .statement := by
  cases ts with
  | nil => rfl
  | cons t ts =>
    have hopens : t.kind.opensTextBlock = false := decide_eq_false (h t List.mem_cons_self)
    rw [Mode.afterStatement, hopens]
    rfl

/-- A line without a break can only be refused for a stray character on it, which fails the
scanner. -/
theorem feed_error {s : Scanner} (hmode : s.mode.isOver = false) {line : List Char}
    (hline : OneLine line) {why : Refusal} (h : (s.feed line).1 = .error why) :
    ∃ at_ : Stray, why = .stray at_ ∧ at_.line = s.lineNumber + 1 ∧
      (s.feed line).2 = ⟨.failed, s.lineNumber + 1, line.length⟩ := by
  rw [feed, hmode, (any_break_eq_false_iff line).2 hline] at h ⊢
  simp only [Bool.false_eq_true, if_false] at h ⊢
  split at h
  · cases h
  · next htext =>
    rw [if_neg htext]
    unfold feedStatement at h ⊢
    dsimp only at h ⊢
    split at h
    · cases h
    · cases h
      exact ⟨_, rfl, rfl, rfl⟩

/-! ## Several lines -/

namespace Feeds

variable {s s' : Scanner} {lines : List (List Char)} {ts : List Token}

theorem lineNumber (h : Feeds s lines ts s') :
    s'.lineNumber = s.lineNumber + lines.length := by
  induction h with
  | nil => rfl
  | cons first _ ih =>
    rw [ih, (feed_ok first).1, List.length_cons]
    omega

theorem isOver (h : Feeds s lines ts s') (hmode : s.mode.isOver = false) :
    s'.mode.isOver = false := by
  induction h with
  | nil => exact hmode
  | cons first _ ih => exact ih (feed_ok first).2.1

/-- Without the word `note`, lines that are taken in statement mode leave the scanner in it. -/
theorem mode (h : Feeds s lines ts s') (hmode : s.mode = .statement)
    (hnote : ∀ t ∈ ts, t.kind ≠ .keyword .note) : s'.mode = .statement := by
  induction h with
  | nil => exact hmode
  | cons first _ ih =>
    obtain ⟨hline, hrest⟩ := List.forall_mem_append.1 hnote
    refine ih ?_ hrest
    rw [(statementTokens_of_feed hmode first).2]
    exact afterStatement_of_no_note hline

/-- Every token stands on one of the lines and does not end the input. -/
theorem mem (h : Feeds s lines ts s') :
    ∀ t ∈ ts, t.line ≤ (s.lineNumber + lines.length : Nat) ∧ t.kind ≠ .endOfInput := by
  induction h with
  | nil =>
    intro t ht
    cases ht
  | cons first _ ih =>
    obtain ⟨hnumber, -, hfirst⟩ := feed_ok first
    intro t ht
    rw [List.length_cons]
    rcases List.mem_append.1 ht with ht | ht
    · obtain ⟨hline, hkind, -⟩ := hfirst t ht
      exact ⟨by omega, hkind⟩
    · obtain ⟨hline, hkind⟩ := ih t ht
      exact ⟨by omega, hkind⟩

/-- Every token has a text. -/
theorem text (h : Feeds s lines ts s') : ∀ t ∈ ts, t.text = some t.content := by
  induction h with
  | nil => nofun
  | cons first _ ih =>
    exact List.forall_mem_append.2 ⟨fun t ht => ((feed_ok first).2.2 t ht).2.2, ih⟩

/-- Lines are taken in one way. -/
theorem unique (h : Feeds s lines ts s') {us : List Token} {s'' : Scanner}
    (h' : Feeds s lines us s'') : ts = us ∧ s' = s'' := by
  induction h generalizing us with
  | nil => cases h' with | nil => exact ⟨rfl, rfl⟩
  | cons first _ ih =>
    cases h' with
    | cons first' rest' =>
      cases first.symm.trans first'
      obtain ⟨rfl, hs⟩ := ih rest'
      exact ⟨rfl, hs⟩

/-- Lines that are taken, more lines that are taken after them, and the tokens of both. -/
theorem append (h : Feeds s lines ts s') {s'' : Scanner} {more : List (List Char)}
    {us : List Token} (hmore : Feeds s' more us s'') : Feeds s (lines ++ more) (ts ++ us) s'' := by
  induction h with
  | nil => exact hmore
  | cons first _ ih =>
    rw [List.cons_append, List.append_assoc]
    exact .cons first (ih hmore)

/-- Lines that are taken, one more that is, and their tokens. -/
theorem concat (h : Feeds s lines ts s') {s'' : Scanner} {line : List Char} {us : List Token}
    (hline : s'.feed line = (.ok us, s'')) : Feeds s (lines ++ [line]) (ts ++ us) s'' := by
  have hlast := h.append (.cons hline (.nil s''))
  rw [List.append_nil] at hlast
  exact hlast

/-- The lines are scanned as a whole if all of them are taken. -/
theorem tokens_eq (h : Feeds s lines ts s') (hmode : s.mode.isOver = false) :
    ∃ last, s'.close.1 = .ok last ∧ last.kind = .endOfInput ∧
      last.line = (max s'.lineNumber 1 : Nat) ∧ s.tokens lines = .ok (ts ++ [last]) := by
  induction h with
  | nil s =>
    refine ⟨_, by rw [close, hmode]; rfl, rfl, rfl, ?_⟩
    rw [tokens, close, hmode]
    rfl
  | cons first _ ih =>
    obtain ⟨last, hclose, hkind, hline, htokens⟩ := ih (feed_ok first).2.1
    refine ⟨last, hclose, hkind, hline, ?_⟩
    rw [tokens, first, htokens, List.append_assoc]
    rfl

/-- The lines are not scanned as a whole if one of them is refused. -/
theorem tokens_error (h : Feeds s lines ts s') {line : List Char} {why : Refusal}
    (hline : (s'.feed line).1 = .error why) (rest : List (List Char)) :
    s.tokens (lines ++ line :: rest) = .error why := by
  induction h with
  | nil s =>
    rw [List.nil_append, tokens, hline]
    rfl
  | cons first _ ih =>
    rw [List.cons_append, tokens, first, ih hline]
    rfl

end Feeds

/-- A scanner takes all lines, or it takes lines up to the first one that it refuses. -/
theorem feeds_or_refuses (s : Scanner) (lines : List (List Char)) :
    (∃ ts s', Feeds s lines ts s') ∨
    ∃ taken line rest ts s' why, lines = taken ++ line :: rest ∧ Feeds s taken ts s' ∧
      (s'.feed line).1 = .error why := by
  induction lines generalizing s with
  | nil => exact .inl ⟨[], s, .nil s⟩
  | cons line lines ih =>
    obtain ⟨answer, s', hfeed⟩ : ∃ answer s', s.feed line = (answer, s') := ⟨_, _, rfl⟩
    cases answer with
    | error why => exact .inr ⟨[], line, lines, [], s, why, rfl, .nil s, by rw [hfeed]⟩
    | ok ts =>
      rcases ih s' with ⟨us, s'', hall⟩ | ⟨taken, refused, rest, us, s'', why, rfl, htaken, hrefused⟩
      · exact .inl ⟨ts ++ us, s'', .cons hfeed hall⟩
      · exact .inr ⟨line :: taken, refused, rest, ts ++ us, s'', why, rfl, .cons hfeed htaken,
          hrefused⟩

/-- Lines that are scanned as a whole are taken one after the other. -/
theorem feeds_of_tokens {lines : List (List Char)} {tokens : List Token}
    (h : ({} : Scanner).tokens lines = .ok tokens) :
    ∃ ts s' last, Feeds {} lines ts s' ∧ last.kind = .endOfInput ∧ tokens = ts ++ [last] := by
  rcases feeds_or_refuses {} lines with
    ⟨ts, s', hfeeds⟩ | ⟨taken, line, rest, ts, s', refusal, rfl, hfeeds, hline⟩
  · obtain ⟨last, -, hlast, -, htokens⟩ := hfeeds.tokens_eq rfl
    exact ⟨ts, s', last, hfeeds, hlast, Except.ok.inj (h.symm.trans htokens)⟩
  · cases (hfeeds.tokens_error hline rest).symm.trans h

/-- Lines without breaks that cannot be scanned as a whole have a first one that is refused, for a
stray character on it. -/
theorem exists_stray {lines : List (List Char)} (h : ∀ line ∈ lines, OneLine line) {why : Refusal}
    (hscan : ({} : Scanner).tokens lines = .error why) :
    ∃ taken line rest ts s', ∃ at_ : Stray, lines = taken ++ line :: rest ∧ Feeds {} taken ts s' ∧
      (s'.feed line).1 = .error why ∧ why = .stray at_ ∧ at_.line = taken.length + 1 := by
  rcases feeds_or_refuses {} lines with
    ⟨ts, s', hfeeds⟩ | ⟨taken, line, rest, ts, s', refusal, rfl, hfeeds, hline⟩
  · obtain ⟨_, -, -, -, htokens⟩ := hfeeds.tokens_eq rfl
    cases htokens.symm.trans hscan
  · cases (hfeeds.tokens_error hline rest).symm.trans hscan
    obtain ⟨at_, rfl, hat, -⟩ := feed_error (hfeeds.isOver rfl) (h line (by simp)) hline
    rw [hfeeds.lineNumber, Nat.zero_add] at hat
    exact ⟨taken, line, rest, ts, s', at_, rfl, hfeeds, hline, rfl, hat⟩

end Scanner

end SequenceChart
