import SequenceChart.Proofs.Reading.Joined
import SequenceChart.Proofs.Scanning.Respaced
set_option autoImplicit false

/-!
# Documents that are spaced differently

Space keeps tokens apart and says nothing itself, and a document is read from what its tokens say.
Main statement: lines that write a chart write it however they are spaced; their tokens say the
same, and so every layout is the same.
-/

namespace SequenceChart

/-- Readings that differ in places only are at the top level with the same items. -/
theorem Reading.AtTop.of_moved {r r' : Reading} {f : Token → Token} {items : List Item}
    (h : r.AtTop items) (hmoved : r'.moved [] f = r.moved [] f) : r'.AtTop items := by
  obtain ⟨q, hq, hblocks, rfl⟩ := h
  have hsettled : r'.settled?.map (moved [] f) = some (q.moved [] f) := by
    rw [← settled?_moved, hmoved, settled?_moved, hq]
    rfl
  obtain ⟨q', hq', hsame⟩ := Option.map_eq_some_iff.1 hsettled
  have hsameBlocks : (q'.moved [] f).blocks = (q.moved [] f).blocks := by rw [hsame]
  have hsameItems : (q'.moved [] f).items = (q.moved [] f).items := by rw [hsame]
  exact ⟨q', hq', hsameBlocks.trans hblocks, hsameItems⟩

theorem Scanner.text_of_close {s : Scanner} {last : Token} (h : s.close.1 = .ok last) :
    last.text = none := by
  unfold close at h
  split at h
  · cases h
  · cases h
    rfl

/-- The tokens of lines that are taken have the kinds and the texts of others that say the same. -/
theorem Scanner.Feeds.exists_tokens {lines lines' : List (List Char)} {ts ts' : List Token}
    {s s' : Scanner} (h : Feeds {} lines ts s) (h' : Feeds {} lines' ts' s')
    (hpieces : ts'.map Token.piece = ts.map Token.piece) :
    ∃ us us', ({} : Scanner).tokens lines = .ok us ∧ ({} : Scanner).tokens lines' = .ok us' ∧
      us'.map (fun t => (t.kind, t.text)) = us.map fun t => (t.kind, t.text) := by
  obtain ⟨last, hclose, hlast, -, htokens⟩ := h.tokens_eq rfl
  obtain ⟨last', hclose', hlast', -, htokens'⟩ := h'.tokens_eq rfl
  have hsaid {ts : List Token} (htext : ∀ t ∈ ts, t.text = some t.content) :
      ts.map (fun t => (t.kind, t.text)) = (ts.map Token.piece).map fun p => (p.1, some p.2) := by
    rw [List.map_map]
    exact List.map_congr_left fun t ht => Prod.ext rfl (htext t ht)
  refine ⟨_, _, htokens, htokens', ?_⟩
  rw [List.map_append, List.map_append, hsaid h.text, hsaid h'.text, hpieces]
  simp [hlast, hlast', text_of_close hclose, text_of_close hclose']

open Scanner (Respaces)

/-- Lines that write a chart write it however they are spaced; the tokens are of the same kinds and
have the same texts, and so the layouts are the same, whatever the settings are. -/
theorem ofLines_of_respaces {lines lines' : List (List Char)}
    (h : Relation.ReflTransGen Respaces lines lines') {c : Chart}
    (hchart : (Chart.ofLines lines).1 = .ok c) :
    (Chart.ofLines lines').1 = .ok c ∧
    (∃ ts ts', ({} : Scanner).tokens lines = .ok ts ∧ ({} : Scanner).tokens lines' = .ok ts' ∧
      ts'.map (fun t => (t.kind, t.text)) = ts.map fun t => (t.kind, t.text)) ∧
    ∀ {α : Type} [Measure α] (settings : Settings α),
      (Layout.ofLines settings lines').1 = (Layout.ofLines settings lines).1 := by
  obtain ⟨ts, s, hfeeds⟩ := Chart.exists_feeds_of_ofLines hchart
  obtain ⟨r, items, hread, htop, rfl⟩ := (Chart.ofLines_eq_ok_iff hfeeds).1 hchart
  obtain ⟨ts', s', hfeeds', hpieces⟩ := Respaces.feeds h hfeeds hread.ne_note
  obtain ⟨r', hread', hmoved⟩ := hread.of_pieces hpieces
  have hchart' : (Chart.ofLines lines').1 = .ok (Chart.ofItems items) :=
    (Chart.ofLines_eq_ok_iff hfeeds').2 ⟨r', items, hread', htop.of_moved hmoved, rfl⟩
  refine ⟨hchart', hfeeds.exists_tokens hfeeds' hpieces, fun settings => ?_⟩
  rw [Layout.ofLines_of_ok hchart, Layout.ofLines_of_ok hchart']

/-- A mark moves away from its arrowhead, a message behind its colon, a line to the right, one blank
line goes and another one comes. -/
theorem ofLines_of_respaces_signals :
    ∃ lines lines' c,
      lines = ["a->+b:m", "", "b->a"].map String.toList ∧
        lines' = ["a->  +b:\tm", " b->a", "\t"].map String.toList ∧
        Relation.ReflTransGen Respaces lines lines' ∧ (Chart.ofLines lines).1 = .ok c ∧
        (Chart.ofLines lines').1 = .ok c ∧
        ∃ ts ts', ({} : Scanner).tokens lines = .ok ts ∧ ({} : Scanner).tokens lines' = .ok ts' ∧
          ts'.map (fun t => (t.kind, t.text)) = ts.map fun t => (t.kind, t.text) := by
  let tok (kind : TokenKind) (text : String) (column : Int) : Token := ⟨kind, some text, 1, column⟩
  -- With the tokens of the first line, the gap between two of them may change.
  have hpart (first : List Token) (t u : Token) (last : List Token) (gap : List Char)
      {line line' : List Char}
      (hline : (({} : Scanner).feed line).1.toOption = some (first ++ t :: u :: last))
      (hline' : Scanner.respaced line t u gap = line') (hne : gap ≠ [])
      (hgap : ∀ c ∈ gap, Text.isGap c) (after : List (List Char)) :
      Respaces (line :: after) (line' :: after) := by
    have hfeed : (({} : Scanner).feed line).1 = .ok (first ++ t :: u :: last) := by
      cases hanswer : (({} : Scanner).feed line).1 <;> rw [hanswer] at hline <;> cases hline
      rfl
    exact hline' ▸ .part (.nil {}) hfeed hne hgap after
  have hmark : Respaces (["a->+b:m", "", "b->a"].map String.toList)
      (["a->  +b:m", "", "b->a"].map String.toList) :=
    hpart [tok .identifier "a" 1, tok (.shaft false) "-" 2] (tok (.head .closed) ">" 3)
      (tok .activateMark "+" 4) [tok .identifier "b" 5, tok .colon ":" 6, tok .text "m" 7]
      [' ', ' '] (by decide +kernel) (by decide +kernel) (List.cons_ne_nil _ _)
      (by simp [Text.isGap]) _
  have hmessage : Respaces (["a->  +b:m", "", "b->a"].map String.toList)
      (["a->  +b:\tm", "", "b->a"].map String.toList) :=
    hpart
      [tok .identifier "a" 1, tok (.shaft false) "-" 2, tok (.head .closed) ">" 3,
        tok .activateMark "+" 6, tok .identifier "b" 7]
      (tok .colon ":" 8) (tok .text "m" 9) [] ['\t'] (by decide +kernel) (by decide +kernel)
      (List.cons_ne_nil _ _) (by simp [Text.isGap]) _
  have hblank : Respaces (["a->  +b:\tm", "", "b->a"].map String.toList)
      (["a->  +b:\tm", "b->a"].map String.toList) :=
    .delete ["a->  +b:\tm".toList] ["b->a".toList] (List.forall_mem_nil _)
  have hspace : ∀ c ∈ [' '], Text.isGap c := by simp [Text.isGap]
  have htab : ∀ c ∈ ['\t'], Text.isGap c := by simp [Text.isGap]
  have hindent : Respaces (["a->  +b:\tm", "b->a"].map String.toList)
      (["a->  +b:\tm", " b->a"].map String.toList) :=
    .indent ["a->  +b:\tm".toList] [] "b->a".toList hspace
  have hlast : Respaces (["a->  +b:\tm", " b->a"].map String.toList)
      (["a->  +b:\tm", " b->a", "\t"].map String.toList) :=
    .insert ["a->  +b:\tm".toList, " b->a".toList] [] htab
  have hspaced := (((Relation.ReflTransGen.single hmark).tail hmessage).tail hblank).tail hindent
    |>.tail hlast
  have hok : (Chart.ofLines (["a->+b:m", "", "b->a"].map String.toList)).1.isOk := by
    decide +kernel
  cases hchart : (Chart.ofLines (["a->+b:m", "", "b->a"].map String.toList)).1 with
  | error why =>
    rw [hchart] at hok
    cases hok
  | ok c =>
    obtain ⟨hchart', htokens, -⟩ := ofLines_of_respaces hspaced hchart
    exact ⟨_, _, c, rfl, rfl, hspaced, hchart, hchart', htokens⟩

end SequenceChart
