import SequenceChart.Proofs.Reading.Completed
import SequenceChart.Proofs.Reading.Faulted
import SequenceChart.Proofs.Scanning.Feeds
set_option autoImplicit false

/-!
# Taking lines on demand

Lines can be scanned as a whole before the first token is read, or taken one at a time while the
tokens are read.  Main statement: both ways give the same layout, and the same syntax fault where
all lines can be scanned.  Where a line has a stray character, taking lines on demand reports it
too, unless the lines before it start no document; then it reports that and takes no further line.
-/

namespace SequenceChart

namespace Chart

open Scanner (Feeds)

variable {s s' : Scanner} {r q : Reading} {taken lines unread : List (List Char)}
  {ts : List Token} {why : SyntaxFault}

/-- Lines that are taken and read are done with. -/
theorem takeLines_append (h : Feeds s taken ts s') (hread : r.pushAll ts = .ok q)
    (rest : List (List Char)) :
    takeLines s r (taken ++ rest) = takeLines s' q rest := by
  induction h generalizing r with
  | nil =>
    cases hread
    rfl
  | @cons s s₁ _ line more us vs first _ ih =>
    rw [Reading.pushAll_append] at hread
    cases hline : r.pushAll us with
    | error fault =>
      rw [hline] at hread
      cases hread
    | ok q' =>
      rw [hline] at hread
      rw [List.cons_append, takeLines, first, ← ih hread]
      simp only [hline]

/-- Lines whose tokens are refused are not all taken. -/
theorem takeLines_refused (h : Feeds s taken ts s') (hread : r.pushAll ts = .error why)
    (rest : List (List Char)) :
    ∃ unread, takeLines s r (taken ++ rest) = (.error (.syntax_ why), unread) := by
  induction h generalizing r with
  | nil => cases hread
  | @cons s s₁ _ line more us vs first _ ih =>
    rw [Reading.pushAll_append] at hread
    cases hline : r.pushAll us with
    | error fault =>
      rw [hline] at hread
      cases hread
      refine ⟨more ++ rest, ?_⟩
      rw [List.cons_append, takeLines, first]
      simp only [hline]
    | ok q =>
      rw [hline] at hread
      obtain ⟨unread, hunread⟩ := ih hread
      refine ⟨unread, ?_⟩
      rw [List.cons_append, takeLines, first]
      simp only [hline]
      exact hunread

/-- Where taking lines ends in a syntax fault, the last line taken has the token at which reading
stops, or all lines are taken and reading stops at the end. -/
theorem takeLines_stops (h : takeLines s r lines = (.error (.syntax_ why), unread)) :
    ∃ taken ts s' q, Feeds s taken ts s' ∧ r.pushAll ts = .ok q ∧
      ((∃ line us s'', lines = taken ++ line :: unread ∧ s'.feed line = (.ok us, s'') ∧
          q.pushAll us = .error why) ∨
        ∃ last, lines = taken ∧ unread = [] ∧ s'.close.1 = .ok last ∧ q.push last = .error why) := by
  induction lines generalizing s r with
  | nil =>
    rw [takeLines] at h
    split at h
    · cases h
    · next last hclose =>
      split at h
      · next hlast =>
        cases h
        exact ⟨[], [], s, r, .nil s, rfl, .inr ⟨last, rfl, rfl, hclose, hlast⟩⟩
      · cases h
  | cons line lines ih =>
    rw [takeLines] at h
    split at h
    · cases h
    · next us s₁ hfeed =>
      split at h
      · next hline =>
        cases h
        exact ⟨[], [], s, r, .nil s, rfl, .inl ⟨line, us, s₁, rfl, hfeed, hline⟩⟩
      · next q hline =>
        obtain ⟨taken, ts, s', q', hfeeds, hread, hstop⟩ := ih h
        refine ⟨line :: taken, us ++ ts, s', q', .cons hfeed hfeeds, ?_, ?_⟩
        · rw [Reading.pushAll_append, hline]
          exact hread
        · rcases hstop with ⟨last, vs, s'', rfl, hstop⟩ | ⟨last, rfl, hstop⟩
          · exact .inl ⟨last, vs, s'', rfl, hstop⟩
          · exact .inr ⟨last, rfl, hstop⟩

/-! ## All lines -/

/-- Lines that can all be scanned have the chart of their tokens. -/
theorem ofLines_eq_ofTokens {tokens : List Token} (h : ({} : Scanner).tokens lines = .ok tokens) :
    (ofLines lines).1 = (ofTokens tokens).mapError SourceFault.syntax_ := by
  rcases Scanner.feeds_or_refuses {} lines with
    ⟨ts, s', hfeeds⟩ | ⟨taken, line, rest, ts, s', refusal, rfl, hfeeds, hline⟩
  · obtain ⟨last, hclose, hlast, -, htokens⟩ := hfeeds.tokens_eq rfl
    cases htokens.symm.trans h
    rw [ofTokens_append_end (fun t ht => (hfeeds.mem t ht).2) hlast, ofLines]
    cases hread : ({} : Reading).pushAll ts with
    | error why =>
      obtain ⟨unread, hunread⟩ := takeLines_refused hfeeds hread []
      rw [List.append_nil] at hunread
      rw [hunread]
      rfl
    | ok q =>
      have hdone := takeLines_append hfeeds hread []
      rw [List.append_nil] at hdone
      rw [hdone, takeLines, hclose]
      show _ = Except.mapError SourceFault.syntax_ ((q.push last).map fun r => ofItems r.items)
      cases hpush : q.push last <;> simp only [hpush] <;> rfl
  · cases (hfeeds.tokens_error hline rest).symm.trans h

/-- Where a line is refused, the lines before it are read first. -/
theorem ofLines_refused (h : Feeds {} taken ts s') {line : List Char} {refusal : Scanner.Refusal}
    (hline : (s'.feed line).1 = .error refusal) (rest : List (List Char)) :
    ((∃ q, ({} : Reading).pushAll ts = .ok q) ∧
        ofLines (taken ++ line :: rest) = (.error (.scan refusal), rest)) ∨
      ∃ why unread, ({} : Reading).pushAll ts = .error why ∧
        ofLines (taken ++ line :: rest) = (.error (.syntax_ why), unread) := by
  cases hread : ({} : Reading).pushAll ts with
  | error why =>
    obtain ⟨unread, hunread⟩ := takeLines_refused h hread (line :: rest)
    exact .inr ⟨why, unread, rfl, hunread⟩
  | ok q =>
    refine .inl ⟨⟨q, rfl⟩, ?_⟩
    rw [ofLines, takeLines_append h hread, takeLines]
    split
    · next refusal' s'' hfeed =>
      rw [hfeed] at hline
      cases hline
      rfl
    · next hfeed =>
      rw [hfeed] at hline
      cases hline

/-- Where the tokens of lines are refused, it is for one that stands on the lines. -/
theorem line_le_of_pushAll (h : Feeds {} taken ts s')
    (hread : ({} : Reading).pushAll ts = .error why) : why.token.line ≤ (taken.length : Int) := by
  have hmem := (h.mem _ (Reading.token_mem_of_pushAll_eq_error hread)).1
  rwa [Nat.zero_add] at hmem

/-- At a syntax fault no line is taken beyond the one of the token at which reading stops. -/
theorem ofLines_stops (h : ofLines lines = (.error (.syntax_ why), unread)) :
    ∃ taken tokens t, lines = taken ++ unread ∧ ({} : Scanner).tokens taken = .ok tokens ∧
      Reading.StopsAt tokens t why ∧ taken.length ≤ t.line ∧
      (t.kind = .endOfInput → unread = []) := by
  obtain ⟨taken, ts, s', q, hfeeds, hread, hstop⟩ := takeLines_stops h
  have hnumber : s'.lineNumber = taken.length := by
    rw [hfeeds.lineNumber, Nat.zero_add]
  rcases hstop with ⟨line, us, s'', rfl, hfeed, hrefused⟩ | ⟨last, rfl, rfl, hclose, hrefused⟩
  · obtain ⟨_, -, -, -, htokens⟩ := (hfeeds.concat hfeed).tokens_eq rfl
    obtain ⟨t, ht, hstop⟩ := Reading.exists_stopsAt hread hrefused
    obtain ⟨hline, hkind, -⟩ := (Scanner.feed_ok hfeed).2.2 t ht
    refine ⟨taken ++ [line], _, t, by simp, htokens, hstop.append _, ?_,
      fun h => absurd h hkind⟩
    rw [List.length_append, List.length_singleton]
    omega
  · obtain ⟨last', hclose', -, hline, htokens⟩ := hfeeds.tokens_eq rfl
    cases hclose.symm.trans hclose'
    refine ⟨lines, _, last, (List.append_nil _).symm, htokens, ⟨ts, [], q, rfl, hread, hrefused⟩,
      ?_, fun _ => rfl⟩
    omega

end Chart

namespace Layout

open Scanner (Feeds OneLine)

variable {α : Type} [Measure α]

/-- How taking lines on demand compares with scanning all of them first. -/
structure OnDemand (settings : Settings α) (lines : List (List Char)) : Prop where
  /-- Where all lines can be scanned and their tokens write a chart, that chart is laid out. -/
  layout : ∀ tokens c, ({} : Scanner).tokens lines = .ok tokens → Chart.ofTokens tokens = .ok c →
    (ofLines settings lines).1
      = (ofChart settings c).mapError fun halt => .halted halt.cause
  /-- Where all lines can be scanned and their tokens have a syntax fault, it is that fault. -/
  syntaxFault : ∀ tokens why, ({} : Scanner).tokens lines = .ok tokens →
    Chart.ofTokens tokens = .error why →
    (ofLines settings lines).1 = .error (.source (.syntax_ why))
  /-- Where a line is refused, it is for a stray character.  Either that is reported and the lines
  up to it are taken, or a syntax fault on a line before it is; and it is a syntax fault exactly if
  no accepted row of tokens starts with those of the lines before. -/
  scanFault : ∀ why, ({} : Scanner).tokens lines = .error why →
    ∃ at_ ts last, why = .stray at_ ∧ 1 ≤ at_.line ∧ at_.line ≤ lines.length ∧
      ({} : Scanner).tokens (lines.take (at_.line - 1)) = .ok (ts ++ [last]) ∧
      last.kind = .endOfInput ∧
      (ofLines settings lines = (.error (.source (.scan why)), lines.drop at_.line) ∨
        ∃ fault unread, ofLines settings lines = (.error (.source (.syntax_ fault)), unread) ∧
          fault.token.line < at_.line) ∧
      ((∃ fault, (ofLines settings lines).1 = .error (.source (.syntax_ fault))) ↔
        ∀ more c, Chart.ofTokens (ts ++ more) ≠ .ok c)
  /-- At a syntax fault no line is taken beyond the one of the token at which reading stops; it
  stops at the end of the input only when all lines are taken. -/
  lookahead : ∀ why unread, ofLines settings lines = (.error (.source (.syntax_ why)), unread) →
    ∃ taken tokens t, lines = taken ++ unread ∧ ({} : Scanner).tokens taken = .ok tokens ∧
      Reading.StopsAt tokens t why ∧ taken.length ≤ t.line ∧
      (t.kind = .endOfInput → unread = [])

variable {settings : Settings α} {lines unread : List (List Char)}

theorem ofLines_of_ok {c : Chart} (h : (Chart.ofLines lines).1 = .ok c) :
    (ofLines settings lines).1
      = (ofChart settings c).mapError fun halt => .halted halt.cause := by
  unfold ofLines
  split
  · next heq =>
    rw [heq] at h
    cases h
  · next heq =>
    rw [heq] at h
    cases h
    split <;> next hchart => rw [hchart]; rfl

theorem ofLines_eq_error {why : SourceFault} :
    ofLines settings lines = (.error (.source why), unread) ↔
      Chart.ofLines lines = (.error why, unread) := by
  unfold ofLines
  constructor
  · intro h
    split at h
    · next heq =>
      cases h
      exact heq
    · split at h <;> cases h
  · intro h
    rw [h]

/-- A stray character is reported, or a syntax fault on a line before it; the latter exactly if no
accepted row of tokens starts with those of the lines before. -/
theorem ofLines_stray {taken rest : List (List Char)} {line : List Char} {ts : List Token}
    {s' : Scanner} {at_ : Scanner.Stray} (hfeeds : Feeds {} taken ts s')
    (hline : (s'.feed line).1 = .error (.stray at_)) (hat : at_.line = taken.length + 1) :
    (ofLines settings (taken ++ line :: rest) = (.error (.source (.scan (.stray at_))), rest) ∨
      ∃ fault unread, ofLines settings (taken ++ line :: rest)
          = (.error (.source (.syntax_ fault)), unread) ∧ fault.token.line < at_.line) ∧
    ((∃ fault, (ofLines settings (taken ++ line :: rest)).1 = .error (.source (.syntax_ fault))) ↔
      ∀ more c, Chart.ofTokens (ts ++ more) ≠ .ok c) := by
  have hcontinued := Chart.exists_ofTokens_append_iff fun t ht => (hfeeds.mem t ht).2
  rcases Chart.ofLines_refused hfeeds hline rest with
    ⟨hread, hlines⟩ | ⟨fault, unread, hread, hlines⟩
  · obtain ⟨more, c, hmore⟩ := hcontinued.2 hread
    have hlines : ofLines settings _ = _ := ofLines_eq_error.2 hlines
    refine ⟨.inl hlines, ?_, fun hnone => absurd hmore (hnone more c)⟩
    rintro ⟨fault, hfault⟩
    rw [hlines] at hfault
    cases hfault
  · have hbefore : fault.token.line < (at_.line : Int) := by
      have hle := Chart.line_le_of_pushAll hfeeds hread
      omega
    have hlines : ofLines settings _ = _ := ofLines_eq_error.2 hlines
    refine ⟨.inr ⟨fault, unread, hlines, hbefore⟩, ?_⟩
    refine ⟨fun _ more c hmore => ?_, fun _ => ⟨fault, by rw [hlines]⟩⟩
    obtain ⟨q, hq⟩ := hcontinued.1 ⟨more, c, hmore⟩
    cases hread.symm.trans hq

/-- Taking lines without breaks on demand gives what scanning all of them first gives, except that
a syntax fault is reported before a stray character behind it. -/
theorem onDemand_of_oneLine (settings : Settings α) (lines : List (List Char))
    (h : ∀ line ∈ lines, OneLine line) : OnDemand settings lines where
  layout := by
    intro tokens c htokens hchart
    have hlines := Chart.ofLines_eq_ofTokens htokens
    rw [hchart] at hlines
    exact ofLines_of_ok hlines
  syntaxFault := by
    intro tokens why htokens hfault
    have hlines := Chart.ofLines_eq_ofTokens htokens
    rw [hfault] at hlines
    have hpair : Chart.ofLines lines = (.error (.syntax_ why), (Chart.ofLines lines).2) :=
      Prod.ext hlines rfl
    rw [ofLines_eq_error.2 hpair]
  scanFault := by
    intro why hscan
    obtain ⟨taken, line, rest, ts, s', at_, rfl, hfeeds, hline, rfl, hat⟩ :=
      Scanner.exists_stray h hscan
    obtain ⟨last, -, hlast, -, htokens⟩ := hfeeds.tokens_eq rfl
    have htake : (taken ++ line :: rest).take (at_.line - 1) = taken := by
      rw [hat, Nat.add_sub_cancel, List.take_left]
    have hdrop : (taken ++ line :: rest).drop at_.line = rest := by
      rw [hat, List.drop_length_add_append]
      rfl
    refine ⟨at_, ts, last, rfl, by omega, ?_, by rwa [htake], hlast, ?_⟩
    · rw [hat, List.length_append, List.length_cons]
      omega
    · rw [hdrop]
      exact ofLines_stray hfeeds hline hat
  lookahead := fun _ _ hfault => Chart.ofLines_stops (ofLines_eq_error.1 hfault)

/-- The arrow on the first line has neither end, which is reported before the stray character on
the second line; neither that line nor the last one is taken. -/
theorem onDemand_of_oneLine_endless :
    ∃ lines : List (List Char), lines = ["A - B".toList, "?".toList, "C".toList] ∧
      OnDemand (⟨16, 32, 8⟩ : Settings Rat) lines ∧
      (({} : Scanner).tokens lines).isOk = false ∧
      (ofLines (⟨16, 32, 8⟩ : Settings Rat) lines).2 = ["?".toList, "C".toList] := by
  refine ⟨_, rfl, onDemand_of_oneLine _ _ ?_, ?_, ?_⟩
  · unfold OneLine
    decide
  · decide +kernel
  · decide +kernel

end Layout

end SequenceChart
