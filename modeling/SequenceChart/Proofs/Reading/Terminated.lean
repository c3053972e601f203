import SequenceChart.Proofs.Reading.OnDemand
import SequenceChart.Proofs.Scanning.Delivered
import SequenceChart.Proofs.Scanning.Lines
set_option autoImplicit false

/-!
# Terminated lines

A text is made of lines with a terminator between them.  Which terminator that is, and whether one
stands behind the last line too, makes no difference, since cutting the text gives the lines again.
Main statement: the text has the tokens that a stream over the lines delivers, with their positions,
and the layout of the lines.  It has their chart too, or the same fault, with one exception: a text
is scanned as a whole before it is read, so that a stray character is reported where lines that are
taken on demand have a syntax fault on a line before it.
-/

namespace SequenceChart

open Scanner (OneLine eq_error_of_tryCatch)
open Text (IsTerminator Unbroken)

variable {source : String} {lines : List (List Char)}

namespace Chart

theorem ofSource_of_tokens {tokens : List Token} (h : tokenize source = .ok tokens) :
    ofSource source = (ofTokens tokens).mapError SourceFault.syntax_ := by
  cases hread : ofTokens tokens <;> simp only [ofSource, h, hread] <;> rfl

theorem ofSource_of_refused {why : Scanner.Refusal} (h : tokenize source = .error why) :
    ofSource source = .error (.scan why) := by
  rw [ofSource, h]

/-- Reading the lines of a text on demand gives what reading the text gives, except that a syntax
fault is reported before a stray character behind it. -/
theorem ofLines_or_before (source : String) :
    (ofLines (Text.lines source.toList)).1 = ofSource source ∨
      ∃ at_ why, ofSource source = .error (.scan (.stray at_)) ∧
        (ofLines (Text.lines source.toList)).1 = .error (.syntax_ why) ∧
        why.token.line < (at_.line : Int) := by
  cases hscan : tokenize source with
  | ok tokens => exact .inl ((ofLines_eq_ofTokens hscan).trans (ofSource_of_tokens hscan).symm)
  | error why =>
    rw [ofSource_of_refused hscan]
    obtain ⟨taken, line, rest, ts, s', at_, hlines, hfeeds, hline, rfl, hat⟩ :=
      Scanner.exists_stray (Scanner.oneLine_lines source) hscan
    rw [hlines]
    rcases ofLines_refused hfeeds hline rest with ⟨-, hread⟩ | ⟨fault, unread, hrefused, hread⟩
    · exact .inl (congrArg Prod.fst hread)
    · have hle := line_le_of_pushAll hfeeds hrefused
      exact .inr ⟨at_, fault, rfl, congrArg Prod.fst hread, by omega⟩

end Chart

/-- A text and lines are read alike. -/
structure ReadsAsLines (source : String) (lines : List (List Char)) : Prop where
  /-- The text has the tokens that a stream over the lines delivers, or the refusal that ends it. -/
  tokens : tokenize source = (TokenStream.ofLines lines).drain
  /-- Where the stream delivers tokens to the end, the text has the chart of these tokens or their
  syntax fault. -/
  chart : ∀ tokens, (TokenStream.ofLines lines).drain = .ok tokens →
    Chart.ofSource source = (Chart.ofTokens tokens).mapError SourceFault.syntax_
  /-- Where the stream ends in a refusal, the text has no chart for that reason. -/
  refused : ∀ why, (TokenStream.ofLines lines).drain = .error why →
    Chart.ofSource source = .error (.scan why)
  /-- Reading the tokens as the stream delivers them gives the same, except that a syntax fault is
  reported before a stray character behind it. -/
  onDemand : (Chart.ofLines lines).1 = Chart.ofSource source ∨
    ∃ at_ why, Chart.ofSource source = .error (.scan (.stray at_)) ∧
      (Chart.ofLines lines).1 = .error (.syntax_ why) ∧ why.token.line < (at_.line : Int)
  /-- The text has the layout of the lines, or the same fault. -/
  layout : ∀ {α : Type} [Measure α] (settings : Settings α),
    Layout.ofSource settings source = (Layout.ofLines settings lines).1

/-! ## An empty line -/

theorem Scanner.feed_empty : ({} : Scanner).feed [] = (.ok [], ⟨.statement, 1, 0⟩) :=
  ReadsStatement.feed_of_ok ⟨⟨nofun, nofun⟩, .inl rfl⟩ (by rw [statementTokens])

/-- A single empty line has the tokens of no line: the end of the input stands at the same place. -/
theorem Scanner.tokens_empty : ({} : Scanner).tokens [[]] = ({} : Scanner).tokens [] := by
  conv => lhs; rw [tokens, feed_empty]
  rfl

theorem Chart.ofLines_empty : Chart.ofLines [[]] = Chart.ofLines [] := by
  rw [ofLines, takeLines, Scanner.feed_empty]
  rfl

theorem Layout.ofLines_empty {α : Type} [Measure α] (settings : Settings α) :
    ofLines settings [[]] = ofLines settings [] := by
  unfold ofLines
  rw [Chart.ofLines_empty]

theorem TokenStream.drain_empty : (ofLines [[]]).drain = (ofLines []).drain := by
  rw [drain_ofLines, drain_ofLines, Scanner.tokens_empty]

theorem readsAsLines_lines (source : String) : ReadsAsLines source (Text.lines source.toList) where
  tokens := (TokenStream.drain_ofLines _).symm
  chart := fun _ h => Chart.ofSource_of_tokens ((TokenStream.drain_ofLines _).symm.trans h)
  refused := fun _ h => Chart.ofSource_of_refused ((TokenStream.drain_ofLines _).symm.trans h)
  onDemand := Chart.ofLines_or_before source
  layout := fun _ => rfl

theorem ReadsAsLines.of_empty (h : ReadsAsLines source [[]]) : ReadsAsLines source [] where
  tokens := h.tokens.trans TokenStream.drain_empty
  chart := fun _ hdrain => h.chart _ (TokenStream.drain_empty.trans hdrain)
  refused := fun _ hdrain => h.refused _ (TokenStream.drain_empty.trans hdrain)
  onDemand := Chart.ofLines_empty ▸ h.onDemand
  layout := fun settings => by rw [h.layout, Layout.ofLines_empty]

/-- A text of unbroken lines is read as these lines, whatever terminator stands between them and
whether or not one stands behind the last, if that one is not empty. -/
theorem readsAsLines_intercalate {t : List Char} (ht : IsTerminator t)
    (hlines : ∀ line ∈ lines, Unbroken line) (hlast : ∀ last ∈ lines.getLast?, last ≠ [])
    {ending : List Char} (hending : ending = [] ∨ ending = t) :
    ReadsAsLines (String.ofList (t.intercalate lines ++ ending)) lines := by
  have hread := readsAsLines_lines (String.ofList (t.intercalate lines ++ ending))
  rw [String.toList_ofList] at hread
  obtain ⟨n, hcut, rfl | ⟨rfl, rfl⟩⟩ := Text.lines_intercalate ht hlines hlast hending
  · rw [hcut, List.replicate_zero, List.append_nil] at hread
    exact hread
  · rw [hcut] at hread
    exact hread.of_empty

/-- Carriage returns and line feeds behind four lines, of which the second is empty and the last one
is free text. -/
theorem readsAsLines_intercalate_note :
    ∃ source, source = "A\r\n\r\nnote\r\nwhy?\r\n" ∧
      ReadsAsLines source ["A".toList, [], "note".toList, "why?".toList] ∧
      (tokenize source).toOption.map (·.map fun t => (t.line, t.column)) =
        some [(1, 1), (3, 1), (4, 1), (4, 5)] := by
  have hlines : ∀ line ∈ ["A".toList, [], "note".toList, "why?".toList], Unbroken line := by
    decide
  have hread := readsAsLines_intercalate (t := ['\r', '\n']) (.inl rfl) hlines
    (by rintro _ ⟨⟩; decide) (.inr rfl)
  exact ⟨_, by decide, hread, by decide +kernel⟩

/-- The arrow on the first line has neither end.  The text is refused for the stray character on the
second line, but the lines for the arrow. -/
theorem ofSource_stray_ofLines_endless :
    ∃ lines : List (List Char), lines = ["A - B".toList, "?".toList] ∧
      (∀ line ∈ lines, Unbroken line) ∧ lines.getLast? = some "?".toList ∧
      String.ofList (['\n'].intercalate lines) = "A - B\n?" ∧
      Chart.ofSource "A - B\n?" = .error (.scan (.stray ⟨'?', "?".toList, 2, 1⟩)) ∧
      (Chart.ofLines lines).1 = .error (.syntax_ ⟨.endless, ⟨.shaft false, some "-", 1, 3⟩⟩) := by
  refine ⟨_, rfl, by decide, rfl, by decide, ?_, ?_⟩
  · exact Chart.ofSource_of_refused (eq_error_of_tryCatch (by decide +kernel))
  · exact eq_error_of_tryCatch (by decide +kernel)

end SequenceChart
