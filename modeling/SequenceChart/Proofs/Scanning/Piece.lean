import SequenceChart.Proofs.Scanning.Feeds
set_option autoImplicit false

/-!
# Scanning a line piece by piece

What a token says is its kind and its text; where it stands is another matter.  A text scans to
some pieces when its tokens say them wherever the text stands, and then gaps may be put in front of
it, and a lexeme that is as long as it can be.
-/

namespace SequenceChart

theorem Slot.plain_ne_text : Slot.plain ≠ .text := by decide

/-- What a token says: its kind and its text. -/
abbrev Piece : Type := TokenKind × String

/-- What a token says, without its place. -/
def Token.piece (t : Token) : Piece := (t.kind, t.content)

namespace Scanner

/-- A text does not begin with a character of a class. -/
def Stops (p : Char → Bool) (cs : List Char) : Prop := ∀ c ∈ cs.head?, p c = false

theorem stops_nil (p : Char → Bool) : Stops p [] := by
  intro c hc
  cases hc

theorem stops_cons {p : Char → Bool} {c : Char} {cs : List Char} :
    Stops p (c :: cs) ↔ p c = false := by
  simp [Stops]

theorem Stops.append {p : Char → Bool} {cs ds : List Char} (h₁ : Stops p cs) (h₂ : Stops p ds) :
    Stops p (cs ++ ds) := by
  cases cs with
  | nil => exact h₂
  | cons c cs => exact stops_cons.2 (stops_cons.1 h₁)

theorem stops_of_forall {p : Char → Bool} {cs : List Char} (h : ∀ c ∈ cs, p c = false) :
    Stops p cs := fun c hc => h c (List.mem_of_mem_head? hc)

theorem takeWhile_append_of_stops {p : Char → Bool} {word rest : List Char}
    (hword : ∀ c ∈ word, p c) (hrest : Stops p rest) : (word ++ rest).takeWhile p = word := by
  rw [List.takeWhile_append_of_pos hword]
  cases rest with
  | nil => rw [List.takeWhile_nil, List.append_nil]
  | cons c rest =>
    rw [List.takeWhile_cons, stops_cons.1 hrest]
    exact List.append_nil word

theorem dropWhile_append_of_stops {p : Char → Bool} {word rest : List Char}
    (hword : ∀ c ∈ word, p c) (hrest : Stops p rest) : (word ++ rest).dropWhile p = rest := by
  rw [List.dropWhile_append_of_pos hword]
  cases rest with
  | nil => rfl
  | cons c rest => rw [List.dropWhile_cons, stops_cons.1 hrest]; rfl

/-! ## Lexemes -/

/-- The spelling of a piece of an arrow, of a mark or of punctuation. -/
def symbol : TokenKind → String
  | .shaft false => "-"
  | .shaft true => "--"
  | .tail .closed => "<"
  | .tail .open_ => "<<"
  | .head .closed => ">"
  | .head .open_ => ">>"
  | .activateMark => "+"
  | .deactivateMark => "-"
  | .createMark => "*"
  | .colon => ":"
  | .comma => ","
  | _ => ""

/-- The characters with which a piece of an arrow would be a longer one. -/
def symbolGoesOn : TokenKind → Char → Bool
  | .shaft false => fun c => c = '-'
  | .tail .closed => fun c => c = '<'
  | .head .closed => fun c => c = '>'
  | _ => fun _ => false

/-- A symbol may come next in a slot: marks have one of their own, which no shaft takes. -/
def admits (slot : Slot) : TokenKind → Bool
  | .shaft _ => slot ≠ .mark
  | .activateMark | .deactivateMark => slot = .mark
  | _ => true

theorem eq_of_isGap {c : Char} (h : Text.isGap c) : c = ' ' ∨ c = '\t' := by
  simpa [Text.isGap] using h

/-- No token starts with a gap. -/
theorem lexeme?_of_isGap {c : Char} (h : Text.isGap c) (slot : Slot) (rest : List Char) :
    lexeme? slot (c :: rest) = none := by
  rcases eq_of_isGap h with rfl | rfl <;> rfl

theorem lexeme?_symbol {slot : Slot} {kind : TokenKind} {rest : List Char}
    (hsymbol : symbol kind ≠ "") (hslot : admits slot kind)
    (hstops : Stops (symbolGoesOn kind) rest) :
    lexeme? slot ((symbol kind).toList ++ rest) = some (kind, (symbol kind).toList, rest) := by
  cases kind with
  | shaft dotted =>
    cases dotted with
    | true => cases slot <;> first | rfl | cases hslot
    | false =>
      cases rest with
      | nil => cases slot <;> first | rfl | cases hslot
      | cons c rest =>
        have hc : c ≠ '-' := of_decide_eq_false (stops_cons.1 hstops)
        have hslot : ¬slot = .mark := by simpa [admits] using hslot
        show lexeme? slot ('-' :: c :: rest) = some (.shaft false, ['-'], c :: rest)
        rw [lexeme?, if_neg hslot]
        exact fun rest' heq => hc (List.cons.inj heq).1
  | tail shape =>
    cases shape with
    | open_ => rfl
    | closed =>
      cases rest with
      | nil => rfl
      | cons c rest =>
        have hc : c ≠ '<' := of_decide_eq_false (stops_cons.1 hstops)
        show lexeme? slot ('<' :: c :: rest) = some (.tail .closed, ['<'], c :: rest)
        rw [lexeme?]
        exact fun rest' heq => hc (List.cons.inj heq).1
  | head shape =>
    cases shape with
    | open_ => rfl
    | closed =>
      cases rest with
      | nil => rfl
      | cons c rest =>
        have hc : c ≠ '>' := of_decide_eq_false (stops_cons.1 hstops)
        show lexeme? slot ('>' :: c :: rest) = some (.head .closed, ['>'], c :: rest)
        rw [lexeme?]
        exact fun rest' heq => hc (List.cons.inj heq).1
  | activateMark => cases slot <;> first | rfl | cases hslot
  | deactivateMark => cases slot <;> first | rfl | cases hslot
  | createMark => rfl
  | colon => rfl
  | comma => rfl
  | identifier | text | keyword word | endOfInput => exact absurd rfl hsymbol

/-- A word: its first character starts one, the others continue it. -/
def isWord (s : String) : Bool :=
  match s.toList with
  | [] => false
  | c :: rest => isWordStart c && rest.all isWordRest

theorem wordKind_keyword (word : Keyword) : wordKind word.text.toList = .keyword word := by
  rw [wordKind, String.ofList_toList]
  cases word <;> rfl

/-- A word is a keyword exactly if it is spelled as one. -/
theorem wordKind_eq_keyword_iff {word : List Char} {k : Keyword} :
    wordKind word = .keyword k ↔ String.ofList word = k.text := by
  constructor
  · intro h
    unfold wordKind at h
    split at h
    · next hfound =>
      cases h
      have hspelled := List.find?_some hfound
      exact (of_decide_eq_true hspelled).symm
    · cases h
  · intro h
    rw [← wordKind_keyword k, ← h, String.toList_ofList]

theorem isWordRest_of_isGap {c : Char} (h : Text.isGap c) : isWordRest c = false := by
  rcases eq_of_isGap h with rfl | rfl <;> rfl

/-- A word that is as long as it can be is a lexeme in every slot. -/
theorem lexeme?_word {slot : Slot} {s : String} {rest : List Char} (hword : isWord s)
    (hstops : Stops isWordRest rest) :
    lexeme? slot (s.toList ++ rest) = some (wordKind s.toList, s.toList, rest) := by
  unfold isWord at hword
  cases hs : s.toList with
  | nil =>
    rw [hs] at hword
    cases hword
  | cons c more =>
    rw [hs] at hword
    obtain ⟨hstart, hmore⟩ := Bool.and_eq_true_iff.1 hword
    have hall : ∀ c ∈ more, isWordRest c := List.all_eq_true.1 hmore
    have htake := takeWhile_append_of_stops hall hstops
    have hdrop := dropWhile_append_of_stops hall hstops
    have hne (d : Char) (hd : isWordStart d = false) : c ≠ d := fun he => by
      rw [he, hd] at hstart
      cases hstart
    have hplus : (decide (c = '+') && decide (slot = .mark)) = false := by
      simp [hne '+' rfl]
    rw [List.cons_append, lexeme?, hplus, if_neg Bool.false_ne_true, if_pos hstart, htake, hdrop]
    -- What is left are the patterns that come before the word's.
    · exact fun _ h _ => hne '<' rfl h
    · exact hne '<' rfl
    · exact fun _ h _ => hne '>' rfl h
    · exact hne '>' rfl
    · exact hne '-' rfl
    · exact hne '*' rfl
    · exact hne ':' rfl
    · exact hne ',' rfl

theorem stops_dropWhile (p : Char → Bool) (cs : List Char) : Stops p (cs.dropWhile p) := by
  intro c hc
  have h := List.head?_dropWhile_not p cs
  rw [hc] at h
  exact h

theorem stops_of_not_cons {d : Char} {rest : List Char} (h : ∀ more, rest = d :: more → False) :
    Stops (fun c => c = d) rest := by
  intro c hc
  refine decide_eq_false fun he => ?_
  obtain ⟨more, rfl⟩ := List.head?_eq_some_iff.1 hc
  exact h more (he ▸ rfl)

/-- A lexeme is a symbol or a word, and it is as long as it can be. -/
theorem lexeme?_cases {slot : Slot} {cs word rest : List Char} {kind : TokenKind}
    (h : lexeme? slot cs = some (kind, word, rest)) :
    (symbol kind ≠ "" ∧ word = (symbol kind).toList ∧ admits slot kind ∧
        Stops (symbolGoesOn kind) rest) ∨
      (isWord (String.ofList word) ∧ kind = wordKind word ∧ Stops isWordRest rest) := by
  have hends (kind : TokenKind) (hkind : symbolGoesOn kind = fun _ => false) :
      Stops (symbolGoesOn kind) rest := fun c _ => by rw [hkind]
  unfold lexeme? at h
  split at h
  case h_1 => cases h
  case h_3 hnext =>
    cases h
    exact .inl ⟨by decide, rfl, rfl, stops_of_not_cons hnext⟩
  case h_5 hnext =>
    cases h
    exact .inl ⟨by decide, rfl, rfl, stops_of_not_cons hnext⟩
  case h_6 =>
    split at h
    · next hslot =>
      cases h
      exact .inl ⟨by decide, rfl, decide_eq_true hslot, hends _ rfl⟩
    · next hslot =>
      split at h
      · cases h
        exact .inl ⟨by decide, rfl, decide_eq_true hslot, hends _ rfl⟩
      · next hnext =>
        cases h
        exact .inl ⟨by decide, rfl, decide_eq_true hslot, stops_of_not_cons hnext⟩
  case h_10 c more _ _ _ _ _ _ _ _ =>
    split at h
    · next hplus =>
      cases h
      exact .inl ⟨by decide, rfl, (Bool.and_eq_true_iff.1 hplus).2, hends _ rfl⟩
    split at h
    · next hstart =>
      cases h
      refine .inr ⟨?_, rfl, stops_dropWhile _ _⟩
      rw [isWord, String.toList_ofList]
      exact Bool.and_eq_true_iff.2 ⟨hstart, List.all_takeWhile⟩
    · cases h
  -- The other characters are symbols that nothing makes longer.
  all_goals
    cases h
    exact .inl ⟨by decide, rfl, rfl, hends _ rfl⟩

theorem symbolGoesOn_of_isGap {c : Char} (h : Text.isGap c) (kind : TokenKind) :
    symbolGoesOn kind c = false := by
  unfold symbolGoesOn
  rcases eq_of_isGap h with rfl | rfl <;> split <;> rfl

/-- A lexeme stays one before a gap, and before any text that begins as the one after it. -/
theorem lexeme?_of_follows {slot : Slot} {word rest rest' : List Char} {kind : TokenKind}
    (h : lexeme? slot (word ++ rest) = some (kind, word, rest))
    (hrest : ∀ c ∈ rest'.head?, Text.isGap c ∨ c ∈ rest.head?) :
    lexeme? slot (word ++ rest') = some (kind, word, rest') := by
  have hstops {p : Char → Bool} (hgap : ∀ c, Text.isGap c → p c = false) (hstops : Stops p rest) :
      Stops p rest' := fun c hc => (hrest c hc).elim (hgap c) (hstops c)
  rcases lexeme?_cases h with ⟨hsymbol, rfl, hadmits, hends⟩ | ⟨hword, rfl, hends⟩
  · exact lexeme?_symbol hsymbol hadmits (hstops (fun c hc => symbolGoesOn_of_isGap hc kind) hends)
  · have hlexeme : lexeme? slot ((String.ofList word).toList ++ rest') = _ :=
      lexeme?_word hword (hstops (fun c hc => isWordRest_of_isGap hc) hends)
    rwa [String.toList_ofList] at hlexeme

/-- The characters with which a token starts in a slot. -/
def startsToken (slot : Slot) (c : Char) : Bool :=
  c ∈ ['<', '>', '-', '*', ':', ','] || c = '+' && slot = .mark || isWordStart c

/-- Whether a token starts with a character does not depend on what follows it. -/
theorem lexeme?_eq_none_iff {slot : Slot} {c : Char} {rest : List Char} :
    lexeme? slot (c :: rest) = none ↔ startsToken slot c = false := by
  constructor
  · intro h
    unfold lexeme? at h
    split at h
    case h_1 heq => cases heq
    case h_6 =>
      split at h
      · cases h
      · split at h <;> cases h
    case h_10 d more _ hless _ hgreater hminus hstar hcolon hcomma heq =>
      obtain ⟨rfl, rfl⟩ := List.cons.inj heq
      split at h
      · cases h
      next hplus =>
      split at h
      · cases h
      next hword => simp_all [startsToken]
    all_goals cases h
  · intro h
    simp only [startsToken, Bool.or_eq_false_iff, decide_eq_false_iff_not] at h
    obtain ⟨⟨hsymbol, hplus⟩, hword⟩ := h
    have hne (d : Char) (hd : d ∈ ['<', '>', '-', '*', ':', ',']) : c ≠ d := by
      rintro rfl
      exact hsymbol hd
    rw [lexeme?, hplus, if_neg Bool.false_ne_true, hword, if_neg Bool.false_ne_true]
    -- What is left are the patterns of the symbols.
    · exact fun _ h _ => hne '<' (by simp) h
    · exact hne '<' (by simp)
    · exact fun _ h _ => hne '>' (by simp) h
    · exact hne '>' (by simp)
    · exact hne '-' (by simp)
    · exact hne '*' (by simp)
    · exact hne ':' (by simp)
    · exact hne ',' (by simp)

/-- Behind a gap a text is scanned as it is without the gap, so much further on. -/
theorem statementTokens_gap_append {gap : List Char} (hgap : ∀ c ∈ gap, Text.isGap c)
    (line column : Nat) (slot : Slot) (isFirst : Bool) (cs : List Char) :
    statementTokens line slot isFirst column (gap ++ cs)
      = statementTokens line slot isFirst (column + gap.length) cs := by
  induction gap generalizing column with
  | nil => rfl
  | cons c gap ih =>
    obtain ⟨hc, hgap⟩ := List.forall_mem_cons.1 hgap
    rw [List.cons_append, statementTokens, if_pos hc, ih hgap, List.length_cons, Nat.add_right_comm,
      Nat.add_assoc]

/-- Where no text is announced, the first lexeme is the first token. -/
theorem statementTokens_of_lexeme? {slot : Slot} (hslot : slot ≠ .text) {cs word rest : List Char}
    {kind : TokenKind} (h : lexeme? slot cs = some (kind, word, rest)) (line column : Nat)
    (isFirst : Bool) :
    statementTokens line slot isFirst column cs = do
      let more ← statementTokens line (Slot.after kind isFirst) false (column + word.length) rest
      return ⟨kind, some (String.ofList word), line, column⟩ :: more := by
  cases cs with
  | nil => cases h
  | cons c cs =>
    have hc : ¬Text.isGap c := fun hgap => by
      rw [lexeme?_of_isGap hgap] at h
      cases h
    rw [statementTokens, if_neg hc, if_neg hslot]
    split
    · next hnone =>
      rw [h] at hnone
      cases hnone
    · next hsome =>
      rw [h] at hsome
      cases hsome
      rfl

/-- Where no text is announced, a character with which no token starts is stray. -/
theorem statementTokens_of_not_startsToken {slot : Slot} (hslot : slot ≠ .text) {c : Char}
    (hgap : ¬Text.isGap c) (hc : startsToken slot c = false) (line column : Nat) (isFirst : Bool)
    (rest : List Char) :
    statementTokens line slot isFirst column (c :: rest) = .error (c, column) := by
  rw [statementTokens, if_neg hgap, if_neg hslot]
  split
  · rfl
  · next hsome =>
    rw [lexeme?_eq_none_iff.2 hc] at hsome
    cases hsome

/-! ## Texts that scan to pieces -/

/-- From a slot on, a text scans to tokens that say these pieces, wherever it stands. -/
def Scans (slot : Slot) (isFirst : Bool) (cs : List Char) (pieces : List Piece) : Prop :=
  ∀ line column, ∃ ts,
    statementTokens line slot isFirst column cs = .ok ts ∧ ts.map Token.piece = pieces

namespace Scans

theorem nil (slot : Slot) (isFirst : Bool) : Scans slot isFirst [] [] := fun line column =>
  ⟨[], by rw [statementTokens], rfl⟩

theorem gap_cons {slot : Slot} {isFirst : Bool} {c : Char} {cs : List Char} {pieces : List Piece}
    (hc : Text.isGap c) (h : Scans slot isFirst cs pieces) :
    Scans slot isFirst (c :: cs) pieces := by
  intro line column
  obtain ⟨ts, hts, hpieces⟩ := h line (column + 1)
  refine ⟨ts, ?_, hpieces⟩
  rw [statementTokens, if_pos hc]
  exact hts

theorem gap_append {slot : Slot} {isFirst : Bool} {gap cs : List Char} {pieces : List Piece}
    (hgap : ∀ c ∈ gap, Text.isGap c) (h : Scans slot isFirst cs pieces) :
    Scans slot isFirst (gap ++ cs) pieces := by
  intro line column
  rw [statementTokens_gap_append hgap]
  exact h line (column + gap.length)

/-- A lexeme is one piece; what follows it scans from the slot after it. -/
theorem lexeme {slot : Slot} {isFirst : Bool} {cs word rest : List Char} {kind : TokenKind}
    {pieces : List Piece} (hslot : slot ≠ .text) (h : lexeme? slot cs = some (kind, word, rest))
    (hrest : Scans (Slot.after kind isFirst) false rest pieces) :
    Scans slot isFirst cs ((kind, String.ofList word) :: pieces) := by
  intro line column
  obtain ⟨ts, hts, hpieces⟩ := hrest line (column + word.length)
  refine ⟨⟨kind, some (String.ofList word), line, column⟩ :: ts, ?_, ?_⟩
  · rw [statementTokens_of_lexeme? hslot h, hts]
    rfl
  · rw [List.map_cons, hpieces]
    rfl

/-- A text that does not begin with a gap is one piece. -/
theorem text {isFirst : Bool} {s : String} (hne : s ≠ "") (hgap : Stops Text.isGap s.toList) :
    Scans .text isFirst s.toList [(.text, s)] := by
  intro line column
  cases hs : s.toList with
  | nil => exact absurd (String.toList_eq_nil_iff.1 hs) hne
  | cons c cs =>
    rw [hs, stops_cons] at hgap
    refine ⟨_, by rw [statementTokens, hgap, if_neg Bool.false_ne_true, if_pos rfl], ?_⟩
    rw [← hs, String.ofList_toList]
    rfl

theorem symbol {slot : Slot} {isFirst : Bool} {kind : TokenKind} {rest : List Char}
    {pieces : List Piece} (hsymbol : symbol kind ≠ "") (hslot : slot ≠ .text)
    (hadmits : admits slot kind) (hstops : Stops (symbolGoesOn kind) rest)
    (hrest : Scans (Slot.after kind isFirst) false rest pieces) :
    Scans slot isFirst ((Scanner.symbol kind).toList ++ rest)
      ((kind, Scanner.symbol kind) :: pieces) := by
  have h := lexeme hslot (lexeme?_symbol hsymbol hadmits hstops) hrest
  rwa [String.ofList_toList] at h

theorem word {slot : Slot} {isFirst : Bool} {s : String} {rest : List Char} {pieces : List Piece}
    (hword : isWord s) (hslot : slot ≠ .text) (hstops : Stops isWordRest rest)
    (hrest : Scans (Slot.after (wordKind s.toList) isFirst) false rest pieces) :
    Scans slot isFirst (s.toList ++ rest) ((wordKind s.toList, s) :: pieces) := by
  have h := lexeme hslot (lexeme?_word hword hstops) hrest
  rwa [String.ofList_toList] at h

/-- A text that is scanned somewhere says the same everywhere. -/
theorem of_ok {line column : Nat} {slot : Slot} {isFirst : Bool} {cs : List Char} {ts : List Token}
    (h : statementTokens line slot isFirst column cs = .ok ts) :
    Scans slot isFirst cs (ts.map Token.piece) := by
  fun_induction statementTokens line slot isFirst column cs generalizing ts with
  | case1 slot isFirst =>
    cases h
    exact nil slot isFirst
  | case2 slot isFirst column c rest hgap ih =>
    exact (ih h).gap_cons hgap
  | case3 isFirst column c rest hgap =>
    cases h
    intro line column
    refine ⟨[⟨.text, some (String.ofList (c :: rest)), line, column⟩], ?_, rfl⟩
    rw [statementTokens, if_neg hgap, if_pos rfl]
  | case4 => cases h
  | case5 slot isFirst column c rest hgap htext kind word after hlex ih =>
    obtain ⟨more, hmore, rfl⟩ := exists_more_of_ok h
    exact lexeme htext hlex (ih hmore)

theorem of_gap_cons {slot : Slot} {isFirst : Bool} {c : Char} {cs : List Char}
    {pieces : List Piece} (hc : Text.isGap c) (h : Scans slot isFirst (c :: cs) pieces) :
    Scans slot isFirst cs pieces := by
  obtain ⟨ts, hts, rfl⟩ := h 1 1
  rw [statementTokens, if_pos hc] at hts
  exact of_ok hts

/-- A gap in front of a text may be left out. -/
theorem of_gap_append {slot : Slot} {isFirst : Bool} {gap cs : List Char} {pieces : List Piece}
    (hgap : ∀ c ∈ gap, Text.isGap c) (h : Scans slot isFirst (gap ++ cs) pieces) :
    Scans slot isFirst cs pieces := by
  induction gap with
  | nil => exact h
  | cons c gap ih =>
    obtain ⟨hc, hgap⟩ := List.forall_mem_cons.1 hgap
    exact ih hgap (of_gap_cons hc h)

end Scans

end Scanner

end SequenceChart
