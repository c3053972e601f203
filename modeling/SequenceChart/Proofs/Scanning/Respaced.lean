import Mathlib.Logic.Relation
import SequenceChart.Proofs.Scanning.Lines
set_option autoImplicit false

/-!
# Lines that are spaced differently

Spaces and tabs only keep tokens apart.  Lines without tokens may come and go, a line may be
indented at will, and where one token ends and the next one starts any gap may stand.  Main
statement: lines that are taken are taken however they are spaced, and their tokens say the same.
-/

namespace SequenceChart

namespace Scanner

/-- The line with another gap between two tokens of it. -/
def respaced (line : List Char) (t u : Token) (gap : List Char) : List Char :=
  line.take (t.column - 1 + t.content.length).toNat ++ gap ++ line.drop (u.column - 1).toNat

/-- One change of the space in a list of lines. -/
inductive Respaces : List (List Char) → List (List Char) → Prop where
  /-- a line of spaces and tabs is inserted -/
  | insert (before after : List (List Char)) {blank : List Char}
      (hblank : ∀ c ∈ blank, Text.isGap c) : Respaces (before ++ after) (before ++ blank :: after)
  /-- a line of spaces and tabs is deleted -/
  | delete (before after : List (List Char)) {blank : List Char}
      (hblank : ∀ c ∈ blank, Text.isGap c) : Respaces (before ++ blank :: after) (before ++ after)
  /-- the indentation of a line is replaced -/
  | indent (before after : List (List Char)) (line : List Char) {gap : List Char}
      (hgap : ∀ c ∈ gap, Text.isGap c) :
      Respaces (before ++ line :: after)
        (before ++ (gap ++ line.dropWhile Text.isGap) :: after)
  /-- what stands between two consecutive tokens of a line is replaced by some spaces and tabs -/
  | part {before : List (List Char)} {ts : List Token} {s : Scanner}
      (hbefore : Feeds {} before ts s) {line : List Char} {first : List Token} {t u : Token}
      {last : List Token} (hline : (s.feed line).1 = .ok (first ++ t :: u :: last))
      {gap : List Char} (hne : gap ≠ []) (hgap : ∀ c ∈ gap, Text.isGap c)
      (after : List (List Char)) :
      Respaces (before ++ line :: after) (before ++ respaced line t u gap :: after)

/-! ## One line -/

theorem oneLine_of_gaps {gap : List Char} (h : ∀ c ∈ gap, Text.isGap c) : OneLine gap :=
  ⟨fun hc => (nomatch h _ hc), fun hc => (nomatch h _ hc)⟩

/-- The first token of a text stands behind the gap at its start. -/
theorem exists_gap_of_statementTokens {line column : Nat} {slot : Slot} {isFirst : Bool}
    {cs : List Char} {u : Token} {last : List Token}
    (h : statementTokens line slot isFirst column cs = .ok (u :: last)) :
    ∃ gap rest, cs = gap ++ rest ∧ u.column = (column + gap.length : Nat) ∧
      Scans slot isFirst rest ((u :: last).map Token.piece) := by
  have hscans := Scans.of_ok h
  fun_induction statementTokens line slot isFirst column cs with
  | case1 => cases h
  | case2 slot isFirst column c rest hgap ih =>
    obtain ⟨gap, rest, rfl, hcolumn, hrest⟩ := ih h (hscans.of_gap_cons hgap)
    refine ⟨c :: gap, rest, rfl, ?_, hrest⟩
    rw [hcolumn, List.length_cons]
    omega
  | case3 isFirst column c rest =>
    cases h
    exact ⟨[], c :: rest, rfl, rfl, hscans⟩
  | case4 => cases h
  | case5 slot isFirst column c rest _ _ kind word after hlex =>
    obtain ⟨more, -, htokens⟩ := exists_more_of_ok h
    obtain ⟨rfl, -⟩ := List.cons.inj htokens
    exact ⟨[], c :: rest, rfl, rfl, hscans⟩

/-- Two consecutive tokens cut a text in what stands up to the end of the first one, a gap and what
stands from the start of the second one on; with any other gap the text says the same. -/
theorem exists_cut_of_statementTokens {line column : Nat} {slot : Slot} {isFirst : Bool}
    {cs : List Char} {first : List Token} {t u : Token} {last : List Token}
    (h : statementTokens line slot isFirst column cs = .ok (first ++ t :: u :: last)) :
    ∃ upTo between rest, upTo ≠ [] ∧ cs = upTo ++ between ++ rest ∧
      t.column + t.content.length = (column + upTo.length : Nat) ∧
      u.column = (column + (upTo ++ between).length : Nat) ∧
      ∀ gap ≠ [], (∀ c ∈ gap, Text.isGap c) →
        Scans slot isFirst (upTo ++ gap ++ rest) ((first ++ t :: u :: last).map Token.piece) := by
  fun_induction statementTokens line slot isFirst column cs generalizing first with
  | case1 => cases first <;> cases h
  | case2 slot isFirst column c rest hc ih =>
    obtain ⟨upTo, between, rest, -, rfl, ht, hu, hscans⟩ := ih h
    refine ⟨c :: upTo, between, rest, List.cons_ne_nil _ _, rfl, ?_, ?_, fun gap hne hgap => ?_⟩
    · rw [ht, List.length_cons]
      omega
    · rw [hu, List.cons_append, List.length_cons]
      omega
    · exact (hscans gap hne hgap).gap_cons hc
  | case3 =>
    have hlength := congrArg List.length (Except.ok.inj h)
    simp only [List.length_append, List.length_cons, List.length_nil] at hlength
    omega
  | case4 => cases h
  | case5 slot isFirst column c rest _ htext kind word after hlex ih =>
    obtain ⟨more, hmore, htokens⟩ := exists_more_of_ok h
    obtain ⟨hword, hcs⟩ := lexeme?_append hlex
    rw [← hcs] at hlex ⊢
    cases first with
    | nil =>
      -- the gap follows the word at once
      obtain ⟨rfl, rfl⟩ := List.cons.inj htokens
      obtain ⟨between, rest, rfl, hu, hscans⟩ := exists_gap_of_statementTokens hmore
      refine ⟨word, between, rest, hword, (List.append_assoc ..).symm, ?_, ?_,
        fun gap hne hgap => ?_⟩
      · simp [Token.content]
      · rw [hu, List.length_append, Nat.add_assoc]
      · rw [List.append_assoc]
        refine (hscans.gap_append hgap).lexeme htext (lexeme?_of_follows hlex fun d hd => ?_)
        obtain ⟨g, gap, rfl⟩ := List.exists_cons_of_ne_nil hne
        cases hd
        exact .inl (hgap _ List.mem_cons_self)
    | cons t' first =>
      -- the gap is further on, and the word is followed by what followed it before
      obtain ⟨rfl, rfl⟩ := List.cons.inj htokens
      obtain ⟨upTo, between, rest, hupTo, rfl, ht, hu, hscans⟩ := ih hmore
      obtain ⟨d, upTo, rfl⟩ := List.exists_cons_of_ne_nil hupTo
      refine ⟨word ++ d :: upTo, between, rest, by simp, by simp, ?_, ?_, fun gap hne hgap => ?_⟩
      · rw [ht, List.length_append, Nat.add_assoc]
      · rw [hu, List.append_assoc word, @List.length_append _ word, Nat.add_assoc]
      · rw [List.append_assoc, List.append_assoc, ← List.append_assoc (d :: upTo)]
        exact (hscans gap hne hgap).lexeme htext (lexeme?_of_follows hlex fun e he => .inr he)

/-- A line says one thing. -/
theorem Says.unique {line : List Char} {pieces pieces' : List Piece} (h : Says line pieces)
    (h' : Says line pieces') : pieces = pieces' := by
  obtain ⟨ts, hts, rfl⟩ := h.scans 1 1
  obtain ⟨us, hus, rfl⟩ := h'.scans 1 1
  rw [Except.ok.inj (hts.symm.trans hus)]

/-- A line of spaces and tabs says nothing. -/
theorem says_blank {blank : List Char} (h : ∀ c ∈ blank, Text.isGap c) : Says blank [] := by
  refine ⟨oneLine_of_gaps h, ?_, nofun⟩
  have hscans := (Scans.nil .plain true).gap_append h
  rwa [List.append_nil] at hscans

/-- A line says the same however it is indented. -/
theorem Says.indented {line : List Char} {pieces : List Piece} (h : Says line pieces)
    {gap : List Char} (hgap : ∀ c ∈ gap, Text.isGap c) :
    Says (gap ++ line.dropWhile Text.isGap) pieces := by
  obtain ⟨hline, hscans, hplain⟩ := h
  have hindent : ∀ c ∈ line.takeWhile Text.isGap, Text.isGap c :=
    List.all_eq_true.1 List.all_takeWhile
  rw [← List.takeWhile_append_dropWhile (p := Text.isGap) (l := line)] at hline hscans
  refine ⟨oneLine_append.2 ⟨oneLine_of_gaps hgap, (oneLine_append.1 hline).2⟩, ?_, hplain⟩
  exact (hscans.of_gap_append hindent).gap_append hgap

/-- A line says the same with another gap between two tokens of it. -/
theorem Says.respaced {s s' : Scanner} (hs : s.mode = .statement) {line : List Char}
    {first : List Token} {t u : Token} {last : List Token}
    (h : s.feed line = (.ok (first ++ t :: u :: last), s')) {pieces : List Piece}
    (hsaid : Says line pieces) {gap : List Char} (hne : gap ≠ [])
    (hgap : ∀ c ∈ gap, Text.isGap c) : Says (respaced line t u gap) pieces := by
  obtain ⟨htokens, -⟩ := statementTokens_of_feed hs h
  have hpieces : (first ++ t :: u :: last).map Token.piece = pieces := by
    obtain ⟨ts, hts, hpieces⟩ := hsaid.scans (s.lineNumber + 1) 1
    rw [← hpieces, Except.ok.inj (htokens.symm.trans hts)]
  obtain ⟨upTo, between, rest, -, rfl, ht, hu, hscans⟩ := exists_cut_of_statementTokens htokens
  have htake : (upTo ++ between ++ rest).take (t.column - 1 + t.content.length).toNat = upTo := by
    have hlength : (t.column - 1 + t.content.length).toNat = upTo.length := by omega
    rw [hlength, List.append_assoc, List.take_left]
  have hdrop : (upTo ++ between ++ rest).drop (u.column - 1).toNat = rest := by
    have hlength : (u.column - 1).toNat = (upTo ++ between).length := by omega
    rw [hlength, List.drop_left]
  obtain ⟨hbefore, hafter⟩ := oneLine_append.1 hsaid.oneLine
  rw [Scanner.respaced, htake, hdrop]
  exact ⟨oneLine_append.2 ⟨oneLine_append.2 ⟨(oneLine_append.1 hbefore).1, oneLine_of_gaps hgap⟩,
    hafter⟩, hpieces ▸ hscans gap hne hgap, hsaid.staysPlain⟩

/-! ## Several lines -/

/-- A list that a map takes to a row with one member in it has a member there, too. -/
theorem exists_split_of_map {α β : Type} {f : α → β} {xs : List α} {before after : List β} {y : β}
    (h : xs.map f = before ++ y :: after) :
    ∃ xs₁ x xs₂, xs = xs₁ ++ x :: xs₂ ∧ xs₁.map f = before ∧ f x = y ∧ xs₂.map f = after := by
  obtain ⟨xs₁, rest, rfl, hbefore, hrest⟩ := List.map_eq_append_iff.1 h
  obtain ⟨x, xs₂, rfl, hx, hafter⟩ := List.map_eq_cons_iff.1 hrest
  exact ⟨xs₁, x, xs₂, rfl, hbefore, hx, hafter⟩

/-- Lines that say something say the same when their space is changed. -/
theorem Respaces.exists_said {lines lines' : List (List Char)} (h : Respaces lines lines')
    {said : List (List Char × List Piece)} (hlines : said.map Prod.fst = lines)
    (hsaid : ∀ line ∈ said, Says line.1 line.2) :
    ∃ said' : List (List Char × List Piece), said'.map Prod.fst = lines' ∧
      (∀ line ∈ said', Says line.1 line.2) ∧
      said'.flatMap Prod.snd = said.flatMap Prod.snd := by
  cases h with
  | @insert before after blank hblank =>
    obtain ⟨said₁, said₂, rfl, rfl, rfl⟩ := List.map_eq_append_iff.1 hlines
    obtain ⟨h₁, h₂⟩ := List.forall_mem_append.1 hsaid
    refine ⟨said₁ ++ (blank, []) :: said₂, by simp, ?_, by simp⟩
    exact List.forall_mem_append.2 ⟨h₁, List.forall_mem_cons.2 ⟨says_blank hblank, h₂⟩⟩
  | @delete before after blank hblank =>
    obtain ⟨said₁, line, said₂, rfl, rfl, rfl, rfl⟩ := exists_split_of_map hlines
    obtain ⟨h₁, h₂⟩ := List.forall_mem_append.1 hsaid
    obtain ⟨hline, h₂⟩ := List.forall_mem_cons.1 h₂
    refine ⟨said₁ ++ said₂, List.map_append, List.forall_mem_append.2 ⟨h₁, h₂⟩, ?_⟩
    rw [List.flatMap_append, List.flatMap_append, List.flatMap_cons,
      hline.unique (says_blank hblank), List.nil_append]
  | @indent before after line gap hgap =>
    obtain ⟨said₁, line, said₂, rfl, rfl, rfl, rfl⟩ := exists_split_of_map hlines
    obtain ⟨h₁, h₂⟩ := List.forall_mem_append.1 hsaid
    obtain ⟨hline, h₂⟩ := List.forall_mem_cons.1 h₂
    refine ⟨said₁ ++ (gap ++ line.1.dropWhile Text.isGap, line.2) :: said₂, by simp, ?_, by simp⟩
    exact List.forall_mem_append.2 ⟨h₁, List.forall_mem_cons.2 ⟨hline.indented hgap, h₂⟩⟩
  | @part before ts s hbefore line first t u last hline gap hne hgap after =>
    obtain ⟨said₁, line, said₂, rfl, rfl, rfl, rfl⟩ := exists_split_of_map hlines
    obtain ⟨h₁, h₂⟩ := List.forall_mem_append.1 hsaid
    obtain ⟨hold, h₂⟩ := List.forall_mem_cons.1 h₂
    obtain ⟨ts₁, s₁, hfeeds, hmode, -⟩ := Says.feeds (s := {}) rfl h₁
    obtain ⟨-, rfl⟩ := hbefore.unique hfeeds
    refine ⟨said₁ ++ (respaced line.1 t u gap, line.2) :: said₂, by simp, ?_, by simp⟩
    have hrespaced := hold.respaced hmode (Prod.ext hline rfl) hne hgap
    exact List.forall_mem_append.2 ⟨h₁, List.forall_mem_cons.2 ⟨hrespaced, h₂⟩⟩

/-- Lines without the word `note` that are taken are taken however they are spaced, and their tokens
say the same. -/
theorem Respaces.feeds {lines lines' : List (List Char)}
    (h : Relation.ReflTransGen Respaces lines lines') {ts : List Token} {s : Scanner}
    (hfeeds : Feeds {} lines ts s) (hnote : ∀ t ∈ ts, t.kind ≠ .keyword .note) :
    ∃ ts' s', Feeds {} lines' ts' s' ∧ ts'.map Token.piece = ts.map Token.piece := by
  obtain ⟨said, hlines, hsaid, hpieces⟩ := hfeeds.exists_said rfl hnote
  have hall : ∃ said' : List (List Char × List Piece), said'.map Prod.fst = lines' ∧
      (∀ line ∈ said', Says line.1 line.2) ∧
      said'.flatMap Prod.snd = said.flatMap Prod.snd := by
    induction h with
    | refl => exact ⟨said, hlines, hsaid, rfl⟩
    | tail _ hnext ih =>
      obtain ⟨said₁, hlines₁, hsaid₁, hpieces₁⟩ := ih
      obtain ⟨said₂, hlines₂, hsaid₂, hpieces₂⟩ := hnext.exists_said hlines₁ hsaid₁
      exact ⟨said₂, hlines₂, hsaid₂, hpieces₂.trans hpieces₁⟩
  obtain ⟨said', rfl, hsaid', hpieces'⟩ := hall
  obtain ⟨ts', s', hfeeds', -, htokens'⟩ := Says.feeds (s := {}) rfl hsaid'
  exact ⟨ts', s', hfeeds', htokens'.trans (hpieces'.trans hpieces)⟩

end Scanner

end SequenceChart
