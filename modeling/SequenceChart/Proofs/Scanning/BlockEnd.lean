import SequenceChart.Proofs.Scanning.Earliest
set_option autoImplicit false

/-!
# The line that ends a block of free text

Two notions of a line's first word meet here: a block of free text ends at a line that starts with
`end` behind any white space, in letters of either case and up to the end of a word of any script,
and the line is then scanned as a statement, where only spaces and tabs are skipped and a word has
letters, digits and low lines of ASCII.  Main statement: every other line is one text, and the scanner
finds the same word at the same place, unless there is other white space before it than spaces and
tabs.  The first character of that kind is stray.
-/

namespace SequenceChart

namespace Scanner

/-- The line ends a block of free text: behind white space it has the word `end`, in letters of
either case. -/
structure EndsBlock (line indent word rest : List Char) : Prop where
  line_eq : line = indent ++ (word ++ rest)
  blank : ∀ c ∈ indent, Text.isWhiteSpace c
  spelled : word.map Char.toLower = "end".toList
  wordEnd : Text.atWordEnd rest

/-- The scanner finds this token first on a line: it comes first in the answer, and the next line is
read as a statement; or a character starts no token, and it stands behind this one. -/
structure FindsFirst (s : Scanner) (line : List Char) (t : Token) : Prop where
  answered : ∀ ts s', s.feed line = (.ok ts, s') → ts.head? = some t ∧ s'.mode = .statement
  refused : ∀ why s', s.feed line = (.error why, s') →
    ∃ at_ : Stray, why = .stray at_ ∧ t.column + t.content.length ≤ at_.column

/-! ## The characters of both notions -/

theorem isUpper_iff {c : Char} : c.isUpper ↔ 65 ≤ c.toNat ∧ c.toNat ≤ 90 := by
  show decide ('A'.val ≤ c.val ∧ c.val ≤ 'Z'.val) = true ↔ _
  rw [decide_eq_true_iff]
  exact Iff.rfl

theorem isLower_iff {c : Char} : c.isLower ↔ 97 ≤ c.toNat ∧ c.toNat ≤ 122 := by
  show (decide ('a'.val ≤ c.val) && decide (c.val ≤ 'z'.val)) = true ↔ _
  rw [Bool.and_eq_true, decide_eq_true_iff, decide_eq_true_iff]
  exact Iff.rfl

theorem isWordStart_iff {c : Char} :
    isWordStart c ↔ 65 ≤ c.toNat ∧ c.toNat ≤ 90 ∨ 97 ≤ c.toNat ∧ c.toNat ≤ 122 := by
  show (c.isUpper || c.isLower) = true ↔ _
  rw [Bool.or_eq_true, isUpper_iff, isLower_iff]

theorem isDigit_iff {c : Char} : c.isDigit ↔ 48 ≤ c.toNat ∧ c.toNat ≤ 57 := by
  simp only [Char.isDigit, Bool.and_eq_true, decide_eq_true_eq]
  exact Iff.rfl

/-- No letter is white space. -/
theorem isWhiteSpace_of_isWordStart {c : Char} (h : isWordStart c) :
    Text.isWhiteSpace c = false := by
  rw [isWordStart_iff] at h
  refine eq_false_of_ne_true fun hblank => ?_
  simp only [Text.isWhiteSpace, Text.whiteSpaceRanges, Text.inRanges, Bool.and_eq_true,
    Bool.or_eq_true, decide_eq_true_eq, Bool.false_eq_true, or_false] at hblank
  omega

/-- White space starts no token. -/
theorem not_startsToken_of_isWhiteSpace {c : Char} (h : Text.isWhiteSpace c) (slot : Slot) :
    startsToken slot c = false := by
  refine eq_false_of_ne_true fun hstarts => ?_
  simp only [startsToken, Bool.or_eq_true, Bool.and_eq_true, decide_eq_true_eq] at hstarts
  rcases hstarts with (hsymbol | ⟨rfl, -⟩) | hword
  · have hnone : ∀ d ∈ ['<', '>', '-', '*', ':', ','], !Text.isWhiteSpace d :=
      List.all_eq_true.1 (by decide)
    have hc := hnone c hsymbol
    rw [h] at hc
    cases hc
  · cases h
  · rw [isWhiteSpace_of_isWordStart hword] at h
    cases h

/-- What continues a word for the scanner continues a word of any script. -/
theorem isWordChar_of_isWordRest {c : Char} (h : isWordRest c) : Text.isWordChar c := by
  obtain ⟨more, hranges⟩ : ∃ more, Text.wordRanges
      = (0x30, 0x39) :: (0x41, 0x5a) :: (0x5f, 0x5f) :: (0x61, 0x7a) :: more := ⟨_, rfl⟩
  have hbounds : 48 ≤ c.toNat ∧ c.toNat ≤ 57 ∨ 65 ≤ c.toNat ∧ c.toNat ≤ 90 ∨ c.toNat = 95 ∨
      97 ≤ c.toNat ∧ c.toNat ≤ 122 := by
    simp only [isWordRest, Char.isAlphanum, Bool.or_eq_true, decide_eq_true_eq] at h
    rcases h with (hletter | hdigit) | rfl
    · have hletter := isWordStart_iff.1 hletter
      omega
    · have hdigit := isDigit_iff.1 hdigit
      omega
    · decide
  simp only [Text.isWordChar, hranges, Text.inRanges, Bool.and_eq_true, Bool.or_eq_true,
    decide_eq_true_eq]
  omega

/-- Where a word of any script ends, a word of the scanner ends. -/
theorem stops_of_atWordEnd {rest : List Char} (h : Text.atWordEnd rest) : Stops isWordRest rest := by
  cases rest with
  | nil => exact stops_nil isWordRest
  | cons c rest =>
    refine stops_cons.2 (eq_false_of_ne_true fun hrest => ?_)
    rw [Text.atWordEnd, isWordChar_of_isWordRest hrest] at h
    cases h

/-- A character that is a letter in the other case is a letter. -/
theorem isWordStart_of_toLower {c : Char} (h : isWordStart c.toLower) : isWordStart c := by
  by_cases hupper : 'A'.val ≤ c.val ∧ c.val ≤ 'Z'.val
  · exact isWordStart_iff.2 (.inl hupper)
  · have hsame : c.toLower = c := dif_neg hupper
    rwa [hsame] at h

/-! ## The word -/

section Word

variable {word : List Char} (h : word.map Char.toLower = "end".toList)

include h

theorem isWordStart_of_spelled : ∀ c ∈ word, isWordStart c := by
  intro c hc
  have hletters : ∀ d ∈ "end".toList, isWordStart d := List.all_eq_true.1 (by decide)
  have hmem : c.toLower ∈ "end".toList := h ▸ List.mem_map_of_mem hc
  exact isWordStart_of_toLower (hletters _ hmem)

theorem isWord_of_spelled : isWord (String.ofList word) := by
  have hall := isWordStart_of_spelled h
  rw [isWord, String.toList_ofList]
  cases word with
  | nil => cases h
  | cons c more =>
    obtain ⟨hc, hmore⟩ := List.forall_mem_cons.1 hall
    refine Bool.and_eq_true_iff.2 ⟨hc, List.all_eq_true.2 fun d hd => ?_⟩
    have hletter : d.isAlpha := hmore d hd
    simp [isWordRest, Char.isAlphanum, hletter]

/-- In small letters the word is the keyword, in others it is a name. -/
theorem wordKind_of_spelled :
    wordKind word = if word = "end".toList then .keyword .end_ else .identifier := by
  split
  · next hsmall =>
    rw [hsmall]
    exact wordKind_keyword .end_
  · next hother =>
    cases hkind : wordKind word with
    | keyword k =>
      have hsmall : k.text.toList.map Char.toLower = k.text.toList := by cases k <;> decide
      have hword : k.text.toList = word := by
        rw [← wordKind_eq_keyword_iff.1 hkind, String.toList_ofList]
      rw [hword, h] at hsmall
      exact absurd hsmall.symm hother
    | identifier => rfl
    | _ =>
      unfold wordKind at hkind
      split at hkind <;> cases hkind

end Word

/-! ## The line -/

theorem isBlockEnd_iff {line : List Char} :
    isBlockEnd line ↔ ∃ indent word rest, EndsBlock line indent word rest := by
  constructor
  · intro h
    unfold isBlockEnd at h
    split at h
    · next e n d rest hline =>
      simp only [Bool.and_eq_true, decide_eq_true_eq] at h
      obtain ⟨⟨⟨he, hn⟩, hd⟩, hend⟩ := h
      refine ⟨line.takeWhile Text.isWhiteSpace, [e, n, d], rest, ?_, ?_, ?_, hend⟩
      · rw [List.cons_append, List.cons_append, List.cons_append, List.nil_append, ← hline,
          List.takeWhile_append_dropWhile]
      · exact List.all_eq_true.1 List.all_takeWhile
      · rw [List.map_cons, List.map_cons, List.map_cons, he, hn, hd]
        rfl
    · cases h
  · rintro ⟨indent, word, rest, rfl, hblank, hspelled, hend⟩
    have hletters := isWordStart_of_spelled hspelled
    have hword : word.map Char.toLower = ['e', 'n', 'd'] := hspelled
    obtain ⟨e, word, rfl, he, hword⟩ := List.map_eq_cons_iff.1 hword
    obtain ⟨n, word, rfl, hn, hword⟩ := List.map_eq_cons_iff.1 hword
    obtain ⟨d, word, rfl, hd, hword⟩ := List.map_eq_cons_iff.1 hword
    obtain rfl : word = [] := List.map_eq_nil_iff.1 hword
    have hstops : Stops Text.isWhiteSpace ([e, n, d] ++ rest) :=
      stops_cons.2 (isWhiteSpace_of_isWordStart (hletters e List.mem_cons_self))
    rw [isBlockEnd, dropWhile_append_of_stops hblank hstops]
    simp [he, hn, hd, hend]

namespace EndsBlock

variable {s : Scanner} {line indent word rest : List Char}

theorem readsStatement (h : EndsBlock line indent word rest) (hmode : s.mode = .textBlock)
    (hline : OneLine line) : s.ReadsStatement line :=
  ⟨hline, .inr ⟨hmode, isBlockEnd_iff.2 ⟨indent, word, rest, h⟩⟩⟩

/-- Behind spaces and tabs the word is the first token. -/
theorem statementTokens_eq (h : EndsBlock line indent word rest)
    (hgap : ∀ c ∈ indent, Text.isGap c) (number : Nat) :
    statementTokens number .plain true 1 line = do
      let more ← statementTokens number .plain false (1 + indent.length + word.length) rest
      return ⟨if word = "end".toList then .keyword .end_ else .identifier,
        some (String.ofList word), number, (1 + indent.length : Nat)⟩ :: more := by
  have hlexeme : lexeme? .plain (word ++ rest) = some (wordKind word, word, rest) := by
    rw [← String.toList_ofList (l := word)]
    exact lexeme?_word (isWord_of_spelled h.spelled) (stops_of_atWordEnd h.wordEnd)
  have hplain : Slot.after (wordKind word) true = .plain := by
    rw [wordKind_of_spelled h.spelled]
    split <;> rfl
  rw [h.line_eq, statementTokens_gap_append hgap,
    statementTokens_of_lexeme? Slot.plain_ne_text hlexeme, hplain, wordKind_of_spelled h.spelled]

/-- Behind spaces and tabs the scanner finds the word first. -/
theorem findsFirst (h : EndsBlock line indent word rest) (hreads : s.ReadsStatement line)
    (hgap : ∀ c ∈ indent, Text.isGap c) :
    s.FindsFirst line ⟨if word = "end".toList then .keyword .end_ else .identifier,
      some (String.ofList word), (s.lineNumber + 1 : Nat), (indent.length + 1 : Nat)⟩ := by
  have htokens := h.statementTokens_eq hgap (s.lineNumber + 1)
  rw [Nat.add_comm 1 indent.length] at htokens
  constructor
  · intro ts s' hfeed
    obtain ⟨hts, rfl⟩ := hreads.of_feed hfeed
    obtain ⟨more, -, rfl⟩ := exists_more_of_ok (htokens.symm.trans hts)
    refine ⟨rfl, ?_⟩
    dsimp only [Mode.afterStatement]
    split <;> rfl
  · intro why s' hfeed
    obtain ⟨at_, rfl, -⟩ := feed_error hreads.isOver_eq hreads.oneLine (congrArg Prod.fst hfeed)
    obtain ⟨-, -, hstray⟩ := stray_of_feed hfeed
    refine ⟨at_, rfl, ?_⟩
    rw [htokens] at hstray
    obtain ⟨front, -, -, hcolumn, -⟩ :=
      statementTokens_error (eq_error_of_more hstray)
    have hlength : (Token.content ⟨if word = "end".toList then .keyword .end_ else .identifier,
      some (String.ofList word), (s.lineNumber + 1 : Nat), (indent.length + 1 : Nat)⟩).length
        = word.length := String.length_ofList
    rw [hlength, hcolumn]
    dsimp only
    omega

/-- White space that is no space and no tab is stray where it comes first. -/
theorem feed_eq_stray (h : EndsBlock line indent word rest) (hreads : s.ReadsStatement line)
    {front back : List Char} {c : Char} (hindent : indent = front ++ c :: back)
    (hfront : ∀ d ∈ front, Text.isGap d) (hc : ¬Text.isGap c) :
    s.feed line = (.error (.stray ⟨c, line, s.lineNumber + 1, front.length + 1⟩),
      ⟨.failed, s.lineNumber + 1, line.length⟩) := by
  have hblank : Text.isWhiteSpace c := h.blank c (by simp [hindent])
  refine hreads.feed_of_error ?_
  rw [h.line_eq, hindent, List.append_assoc, List.cons_append, statementTokens_gap_append hfront,
    statementTokens_of_not_startsToken Slot.plain_ne_text hc
      (not_startsToken_of_isWhiteSpace hblank .plain), Nat.add_comm]

end EndsBlock

/-- In a block of free text every line is one text, but for those that end the block.  On such a
line the scanner finds the word `end` first, as the keyword or as a name, if only spaces and tabs
stand before it; otherwise the first other white space is stray. -/
theorem feed_textBlock (s : Scanner) (line : List Char) (hmode : s.mode = .textBlock)
    (hline : OneLine line) :
    ((¬∃ indent word rest, EndsBlock line indent word rest) →
      s.feed line = (.ok [⟨.text, some (String.ofList line), (s.lineNumber + 1 : Nat), 1⟩],
        ⟨.textBlock, s.lineNumber + 1, line.length⟩)) ∧
    ∀ indent word rest, EndsBlock line indent word rest →
      ((∀ c ∈ indent, Text.isGap c) →
        s.FindsFirst line ⟨if word = "end".toList then .keyword .end_ else .identifier,
          some (String.ofList word), (s.lineNumber + 1 : Nat), (indent.length + 1 : Nat)⟩) ∧
      ∀ front c back, indent = front ++ c :: back → (∀ d ∈ front, Text.isGap d) → ¬Text.isGap c →
        s.feed line = (.error (.stray ⟨c, line, s.lineNumber + 1, front.length + 1⟩),
          ⟨.failed, s.lineNumber + 1, line.length⟩) := by
  refine ⟨fun hnone => ?_, fun indent word rest h => ?_⟩
  · have hend : isBlockEnd line = false :=
      eq_false_of_ne_true fun h => hnone (isBlockEnd_iff.1 h)
    rw [feed, hmode, (any_break_eq_false_iff line).2 hline, hend]
    rfl
  · have hreads := h.readsStatement hmode hline
    exact ⟨h.findsFirst hreads, fun front c back => h.feed_eq_stray hreads⟩

/-- A line in capital letters ends the block, and what is stray on it stands behind the word; an
ideographic space before the word is stray itself. -/
theorem feed_textBlock_capitals :
    (⟨.textBlock, 1, 4⟩ : Scanner).FindsFirst "\t END?".toList
        ⟨.identifier, some "END", 2, 3⟩ ∧
      (⟨.textBlock, 1, 4⟩ : Scanner).feed " \u3000end".toList
        = (.error (.stray ⟨'\u3000', " \u3000end".toList, 2, 2⟩), ⟨.failed, 2, 5⟩) := by
  have hcapitals : EndsBlock "\t END?".toList "\t ".toList "END".toList ['?'] :=
    ⟨rfl, List.all_eq_true.1 (by decide), by decide, by decide +kernel⟩
  have hwide : EndsBlock " \u3000end".toList " \u3000".toList "end".toList [] :=
    ⟨rfl, List.all_eq_true.1 (by decide), by decide, rfl⟩
  obtain ⟨-, hline⟩ := feed_textBlock ⟨.textBlock, 1, 4⟩ "\t END?".toList rfl ⟨by decide, by decide⟩
  obtain ⟨-, hspace⟩ :=
    feed_textBlock ⟨.textBlock, 1, 4⟩ " \u3000end".toList rfl ⟨by decide, by decide⟩
  have hgap : ∀ c ∈ "\t ".toList, Text.isGap c := List.all_eq_true.1 (by decide)
  have hfront : ∀ c ∈ [' '], Text.isGap c := List.all_eq_true.1 (by decide)
  exact ⟨(hline _ _ _ hcapitals).1 hgap,
    (hspace _ _ _ hwide).2 [' '] '\u3000' [] rfl hfront (by decide)⟩

/-- Behind a no-break space a line ends the block, and yet the scanner does not find its word: what
is stray stands before the word. -/
theorem not_findsFirst_noBreakSpace :
    OneLine "\u00a0end".toList ∧ ∃ indent word rest, EndsBlock "\u00a0end".toList indent word rest ∧
      ∀ t : Token, t.column = (indent.length + 1 : Nat) →
        ¬(⟨.textBlock, 1, 4⟩ : Scanner).FindsFirst "\u00a0end".toList t := by
  have hends : EndsBlock "\u00a0end".toList ['\u00a0'] "end".toList [] :=
    ⟨rfl, List.all_eq_true.1 (by decide), by decide, rfl⟩
  refine ⟨⟨by decide, by decide⟩, _, _, _, hends, fun t ht h => ?_⟩
  have hindent : ['\u00a0'] = [] ++ '\u00a0' :: [] := rfl
  have hstray := hends.feed_eq_stray (s := ⟨.textBlock, 1, 4⟩)
    (hends.readsStatement rfl ⟨by decide, by decide⟩) hindent (by simp) (by decide)
  obtain ⟨at_, hat, hle⟩ := h.refused _ _ hstray
  cases hat
  rw [ht] at hle
  simp only [List.length_cons, List.length_nil] at hle
  omega

end Scanner

end SequenceChart
