import SequenceChart.Proofs.Chart.Items
import SequenceChart.Proofs.Grammar.Unique
import SequenceChart.Proofs.Reading.Accepts
import SequenceChart.Proofs.Reading.Explains
set_option autoImplicit false

/-!
# Reading tokens is deriving them

A row of tokens is read exactly when the grammar derives it; then there is one derivation, and the
chart has the title and the statements that the derivation writes.
-/

namespace SequenceChart

/-- A row of tokens has at most one derivation. -/
theorem Derives.unique {ps qs : List Phrase} {ts : List Token} (hp : Derives ps ts)
    (hq : Derives qs ts) : ps = qs :=
  flatMap_tokens_injective (hp.trans hq.symm)

/-- A row of tokens is read exactly when it has a derivation, which is then the only one and gives
the title and the statements; any other row ends in a syntax fault. -/
theorem ofTokens_iff_derives (ts : List Token) :
    ((∃ c, Chart.ofTokens ts = .ok c) ↔ ∃ ps, Derives ps ts) ∧
    (∀ ps, Derives ps ts →
      (∀ qs, Derives qs ts → qs = ps) ∧
      ∃ c, Chart.ofTokens ts = .ok c ∧
        c.title = Document.title? (ps.map Phrase.item) ∧
        c.statements = Document.statements (ps.map Phrase.item)) ∧
    ((¬∃ ps, Derives ps ts) → ∃ fault, Chart.ofTokens ts = .error fault) := by
  have hiff : (∃ c, Chart.ofTokens ts = .ok c) ↔ ∃ ps, Derives ps ts := by
    constructor
    · rintro ⟨c, h⟩
      obtain ⟨ps, hps, -⟩ := derives_of_ofTokens h
      exact ⟨ps, hps⟩
    · rintro ⟨ps, hps⟩
      exact ⟨_, ofTokens_of_derives hps⟩
  refine ⟨hiff, fun ps hps => ⟨fun qs hqs => hqs.unique hps, _, ofTokens_of_derives hps,
    Chart.title_ofItems _, Chart.statements_ofItems _⟩, fun hnone => ?_⟩
  cases h : Chart.ofTokens ts with
  | ok c => exact absurd (hiff.1 ⟨c, h⟩) hnone
  | error fault => exact ⟨fault, rfl⟩

/-- A signal with every part, inside a block, with a group before it; without its last `end` the
row of tokens has no derivation. -/
theorem ofTokens_iff_derives_nested :
    ∃ ts ps, Derives ps ts ∧ (∀ qs, Derives qs ts → qs = ps) ∧
      (∃ c, Chart.ofTokens ts = .ok c ∧ c.title = some "t" ∧ c.statements =
        [.block ⟨.opt, none,
          [.group [⟨.alt, some "x", []⟩, ⟨.else_, none, []⟩],
            .signal ⟨"a", "b", some .closed, some .open_, true, some "m", true, false⟩]⟩]) ∧
      ∃ fault, Chart.ofTokens ts.dropLast = .error fault := by
  let tok (kind : TokenKind) (text : String) : Token := ⟨kind, some text, 1, 1⟩
  let word (k : Keyword) : Terminal (.keyword k) := ⟨(), tok (.keyword k) k.text, rfl⟩
  let name (text : String) : Terminal .identifier := ⟨(), tok .identifier text, rfl⟩
  let text (text : String) : Terminal .text := ⟨(), tok .text text, rfl⟩
  let signal : SignalPhrase :=
    { source := name "a", tail := some ⟨.closed, tok _ "<", rfl⟩,
      shaft := ⟨true, tok _ "--", rfl⟩, head := some ⟨.open_, tok _ ">>", rfl⟩,
      mark := some ⟨true, tok _ "+", rfl⟩, target := name "b",
      message := some ⟨⟨(), tok _ ":", rfl⟩, text "m"⟩, pointed := Or.inl rfl }
  let group : StatementPhrase :=
    .alt (word .alt) (some (text "x")) [⟨word .else_, none⟩] (word .end_)
  let ps : List Phrase :=
    [.title (word .title) (text "t"),
      .statement (.opt (word .opt) none [group, .signal signal] (word .end_))]
  have hderives : Derives ps (ps.flatMap Phrase.tokens) := rfl
  obtain ⟨-, hread, -⟩ := ofTokens_iff_derives (ps.flatMap Phrase.tokens)
  obtain ⟨hiff, -, hfault⟩ := ofTokens_iff_derives (ps.flatMap Phrase.tokens).dropLast
  refine ⟨_, ps, hderives, (hread ps hderives).1, (hread ps hderives).2, hfault ?_⟩
  intro h
  obtain ⟨c, hc⟩ := hiff.2 h
  cases hc

end SequenceChart
