import SequenceChart.Proofs.Scanning.Piece
set_option autoImplicit false

/-!
# Scanning a text line by line

A text that is written in unbroken lines is cut into these lines again.  As long as no line opens a
block of free text, the tokens of the text say the pieces of its lines, one line after the other.
-/

namespace SequenceChart

namespace Text

/-- No character of the line ends it. -/
def Unbroken (line : List Char) : Prop := ∀ c ∈ line, isLineBoundary c = false

instance (line : List Char) : Decidable (Unbroken line) :=
  decidable_of_iff (line.all fun c => !isLineBoundary c) (by simp [Unbroken])

theorem unbroken_append {first second : List Char} :
    Unbroken (first ++ second) ↔ Unbroken first ∧ Unbroken second := List.forall_mem_append

theorem lines_cons {c : Char} (hne : c ≠ '\r') (cs : List Char) :
    lines (c :: cs) = if isLineBoundary c then [] :: lines cs else extendFirst c (lines cs) := by
  rw [lines.eq_def]
  split
  · next heq => cases heq
  · next heq => exact absurd (List.cons.inj heq).1 hne
  · next heq =>
    cases heq
    rfl

theorem lines_cons_of_unbroken {c : Char} (h : isLineBoundary c = false) (cs : List Char) :
    lines (c :: cs) = extendFirst c (lines cs) := by
  have hne : c ≠ '\r' := fun he => by
    rw [he] at h
    cases h
  rw [lines_cons hne, h, if_neg Bool.false_ne_true]

/-- What can stand between two lines: one boundary, or a carriage return and a line feed. -/
def IsTerminator (t : List Char) : Prop :=
  t = ['\r', '\n'] ∨ ∃ c, isLineBoundary c = true ∧ t = [c]

/-- The terminator does not run into the text behind it: a carriage return before a line feed would
be half of one. -/
def Splits (t rest : List Char) : Prop := t = ['\r'] → rest.head? ≠ some '\n'

/-- A terminator in front of a text ends an empty line. -/
theorem lines_terminator_append {t : List Char} (ht : IsTerminator t) {rest : List Char}
    (hsplits : Splits t rest) : lines (t ++ rest) = [] :: lines rest := by
  rcases ht with rfl | ⟨c, hc, rfl⟩
  · rfl
  · by_cases hreturn : c = '\r'
    · subst hreturn
      rw [List.singleton_append, lines.eq_def]
      split
      · next heq => cases heq
      · next heq =>
        obtain rfl := (List.cons.inj heq).2
        exact absurd rfl (hsplits rfl)
      · next heq =>
        cases heq
        rfl
    · rw [List.singleton_append, lines_cons hreturn, if_pos hc]

/-- A line with a terminator behind it is the first of the lines. -/
theorem lines_append_terminator {line t : List Char} (h : Unbroken line) (ht : IsTerminator t)
    {rest : List Char} (hsplits : Splits t rest) :
    lines (line ++ (t ++ rest)) = line :: lines rest := by
  induction line with
  | nil => exact lines_terminator_append ht hsplits
  | cons c line ih =>
    obtain ⟨hc, hline⟩ := List.forall_mem_cons.1 h
    rw [List.cons_append, lines_cons_of_unbroken hc, ih hline]
    rfl

/-- A last line needs no terminator, unless it is empty. -/
theorem lines_of_unbroken {line : List Char} (h : Unbroken line) (hne : line ≠ []) :
    lines line = [line] := by
  induction line with
  | nil => exact absurd rfl hne
  | cons c line ih =>
    obtain ⟨hc, hline⟩ := List.forall_mem_cons.1 h
    rw [lines_cons_of_unbroken hc]
    cases line with
    | nil => rfl
    | cons d line => rw [ih hline (List.cons_ne_nil d line)]; rfl

/-- The lines of a text are unbroken. -/
theorem unbroken_lines (cs : List Char) : ∀ line ∈ lines cs, Unbroken line := by
  fun_induction lines cs with
  | case1 => nofun
  | case2 rest ih => exact List.forall_mem_cons.2 ⟨nofun, ih⟩
  | case3 c rest _ _ ih => exact List.forall_mem_cons.2 ⟨nofun, ih⟩
  | case4 c rest _ hc ih =>
    have hc : isLineBoundary c = false := eq_false_of_ne_true hc
    cases hlines : lines rest with
    | nil =>
      refine List.forall_mem_singleton.2 ?_
      exact List.forall_mem_singleton.2 hc
    | cons line more =>
      rw [hlines] at ih
      obtain ⟨hline, hmore⟩ := List.forall_mem_cons.1 ih
      exact List.forall_mem_cons.2 ⟨List.forall_mem_cons.2 ⟨hc, hline⟩, hmore⟩

/-- A terminator and the unbroken lines behind it do not run into each other. -/
theorem splits_intercalate {t : List Char} {written : List (List Char)}
    (h : ∀ line ∈ written, Unbroken line) {ending : List Char} (hending : ending = [] ∨ ending = t) :
    Splits t (t.intercalate written ++ ending) := by
  rintro rfl
  cases written with
  | nil => rcases hending with rfl | rfl <;> decide
  | cons line written =>
    cases line with
    | nil =>
      cases written with
      | nil => rcases hending with rfl | rfl <;> decide
      | cons next written =>
        rw [List.intercalate_cons_cons]
        show some '\r' ≠ some '\n'
        decide
    | cons c line =>
      have hc : isLineBoundary c = false := h _ List.mem_cons_self c List.mem_cons_self
      have hhead : (['\r'].intercalate ((c :: line) :: written) ++ ending).head? = some c := by
        cases written with
        | nil => rw [List.intercalate_singleton]; rfl
        | cons next written => rw [List.intercalate_cons_cons]; rfl
      rw [hhead]
      rintro ⟨⟩
      cases hc

/-- Unbroken lines with a terminator between them, and perhaps one behind them, are read again if
the last of them is not empty.  Without lines the one behind them ends an empty line. -/
theorem lines_intercalate {t : List Char} (ht : IsTerminator t) {written : List (List Char)}
    (h : ∀ line ∈ written, Unbroken line) (hlast : ∀ last ∈ written.getLast?, last ≠ [])
    {ending : List Char} (hending : ending = [] ∨ ending = t) :
    ∃ n, lines (t.intercalate written ++ ending) = written ++ List.replicate n [] ∧
      (n = 0 ∨ written = [] ∧ n = 1) := by
  induction written with
  | nil =>
    rcases hending with rfl | rfl
    · exact ⟨0, rfl, .inl rfl⟩
    · refine ⟨1, ?_, .inr ⟨rfl, rfl⟩⟩
      have hempty : lines (ending ++ []) = [[]] := lines_terminator_append ht nofun
      rw [List.append_nil] at hempty
      exact hempty
  | cons line written ih =>
    obtain ⟨hline, hwritten⟩ := List.forall_mem_cons.1 h
    refine ⟨0, ?_, .inl rfl⟩
    rw [List.replicate_zero, List.append_nil]
    cases written with
    | nil =>
      rw [List.intercalate_singleton]
      rcases hending with rfl | rfl
      · rw [List.append_nil]
        exact lines_of_unbroken hline (hlast line rfl)
      · have hended : lines (line ++ (ending ++ [])) = [line] :=
          lines_append_terminator hline ht nofun
        rw [List.append_nil] at hended
        exact hended
    | cons next written =>
      obtain ⟨n, hn, rfl | ⟨hnil, -⟩⟩ := ih hwritten fun last h => hlast last h
      · rw [List.replicate_zero, List.append_nil] at hn
        rw [List.intercalate_cons_cons, List.append_assoc, List.append_assoc,
          lines_append_terminator hline ht (splits_intercalate hwritten hending), hn]
      · cases hnil

end Text

namespace Scanner

/-- The pieces of a line do not open a block of free text. -/
def StaysPlain (pieces : List Piece) : Prop := ∀ p ∈ pieces.head?, p.1.opensTextBlock = false

theorem afterStatement_of_staysPlain {ts : List Token} (h : StaysPlain (ts.map Token.piece)) :
    Mode.afterStatement ts = .statement := by
  cases ts with
  | nil => rfl
  | cons t ts =>
    have hkind : t.kind.opensTextBlock = false := h t.piece rfl
    rw [Mode.afterStatement, hkind]
    rfl

/-- What a line says as a statement that opens no block of free text. -/
structure Says (line : List Char) (pieces : List Piece) : Prop where
  oneLine : OneLine line
  scans : Scans .plain true line pieces
  staysPlain : StaysPlain pieces

theorem oneLine_of_unbroken {line : List Char} (h : Text.Unbroken line) : OneLine line :=
  ⟨fun hbreak => (nomatch h _ hbreak), fun hbreak => (nomatch h _ hbreak)⟩

theorem oneLine_lines (source : String) : ∀ line ∈ Text.lines source.toList, OneLine line :=
  fun line hline => oneLine_of_unbroken (Text.unbroken_lines source.toList line hline)

theorem Says.feed {s : Scanner} (hs : s.mode = .statement) {line : List Char}
    {pieces : List Piece} (h : Says line pieces) :
    ∃ ts s', s.feed line = (.ok ts, s') ∧ s'.mode = .statement ∧ ts.map Token.piece = pieces := by
  obtain ⟨ts, hts, rfl⟩ := h.scans (s.lineNumber + 1) 1
  refine ⟨ts, ⟨.statement, s.lineNumber + 1, line.length⟩, ?_, rfl, rfl⟩
  rw [Scanner.feed, hs, (any_break_eq_false_iff line).2 h.oneLine, feedStatement, hts]
  simp [Mode.isOver, afterStatement_of_staysPlain h.staysPlain]

/-- Lines that say something are taken one after the other, and their tokens say it. -/
theorem Says.feeds {s : Scanner} (hs : s.mode = .statement)
    {lines : List (List Char × List Piece)} (h : ∀ line ∈ lines, Says line.1 line.2) :
    ∃ ts s', Feeds s (lines.map Prod.fst) ts s' ∧ s'.mode = .statement ∧
      ts.map Token.piece = lines.flatMap Prod.snd := by
  induction lines generalizing s with
  | nil => exact ⟨[], s, .nil s, hs, rfl⟩
  | cons line lines ih =>
    obtain ⟨hline, hlines⟩ := List.forall_mem_cons.1 h
    obtain ⟨ts, s₁, hfeed, hmode, hpieces⟩ := hline.feed hs
    obtain ⟨more, s', hmore, hmode', hmorePieces⟩ := ih hmode hlines
    refine ⟨ts ++ more, s', .cons hfeed hmore, hmode', ?_⟩
    rw [List.map_append, hpieces, hmorePieces, List.flatMap_cons]

/-- The tokens of lines that scan to pieces, and the end of the input after them. -/
theorem tokens_of_scans {s : Scanner} (hs : s.mode = .statement)
    {lines : List (List Char × List Piece)}
    (hlines : ∀ line ∈ lines,
      Text.Unbroken line.1 ∧ Scans .plain true line.1 line.2 ∧ StaysPlain line.2) :
    ∃ ts last, s.tokens (lines.map Prod.fst) = .ok (ts ++ [last]) ∧
      last.kind = .endOfInput ∧ ts.map Token.piece = lines.flatMap Prod.snd := by
  have hall (line : List Char × List Piece) (hline : line ∈ lines) : Says line.1 line.2 := by
    obtain ⟨hunbroken, hscans, hplain⟩ := hlines line hline
    exact ⟨oneLine_of_unbroken hunbroken, hscans, hplain⟩
  obtain ⟨ts, s', hfeeds, -, hpieces⟩ := Says.feeds hs hall
  obtain ⟨last, -, hlast, -, htokens⟩ := hfeeds.tokens_eq (by rw [hs]; rfl)
  exact ⟨ts, last, htokens, hlast, hpieces⟩

/-! ## Lines that are taken -/

theorem oneLine_of_feed {s s' : Scanner} {line : List Char} {ts : List Token}
    (h : s.feed line = (.ok ts, s')) : OneLine line := by
  unfold feed at h
  split at h
  · cases h
  split at h
  · cases h
  · next hbreak => exact (any_break_eq_false_iff line).1 (eq_false_of_ne_true hbreak)

/-- In statement mode a line that is taken says what its tokens say, unless it has the word
`note`. -/
theorem says_of_feed {s s' : Scanner} (hs : s.mode = .statement) {line : List Char}
    {ts : List Token} (h : s.feed line = (.ok ts, s')) (hnote : ∀ t ∈ ts, t.kind ≠ .keyword .note) :
    Says line (ts.map Token.piece) := by
  refine ⟨oneLine_of_feed h, .of_ok (statementTokens_of_feed hs h).1, fun p hp => ?_⟩
  obtain ⟨t, ht, rfl⟩ := List.mem_map.1 (List.mem_of_mem_head? hp)
  exact decide_eq_false (hnote t ht)

/-- Lines that are taken in statement mode say what their tokens say, unless one of them has the
word `note`. -/
theorem Feeds.exists_said {s s' : Scanner} {lines : List (List Char)} {ts : List Token}
    (h : Feeds s lines ts s') (hs : s.mode = .statement)
    (hnote : ∀ t ∈ ts, t.kind ≠ .keyword .note) :
    ∃ said : List (List Char × List Piece), said.map Prod.fst = lines ∧
      (∀ line ∈ said, Says line.1 line.2) ∧ said.flatMap Prod.snd = ts.map Token.piece := by
  induction h with
  | nil => exact ⟨[], rfl, nofun, rfl⟩
  | @cons s s₁ s' line lines ts us first _ ih =>
    obtain ⟨hfirst, hrest⟩ := List.forall_mem_append.1 hnote
    have hmode : s₁.mode = .statement := by
      rw [(statementTokens_of_feed hs first).2]
      exact afterStatement_of_no_note hfirst
    obtain ⟨said, hsaid, hall, hpieces⟩ := ih hmode hrest
    refine ⟨(line, ts.map Token.piece) :: said, ?_, ?_, ?_⟩
    · rw [List.map_cons, hsaid]
    · exact List.forall_mem_cons.2 ⟨says_of_feed hs first hfirst, hall⟩
    · rw [List.flatMap_cons, hpieces, List.map_append]

end Scanner

end SequenceChart
