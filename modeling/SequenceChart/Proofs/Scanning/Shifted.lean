import SequenceChart.Proofs.Scanning.Feeds
set_option autoImplicit false

/-!
# The same lines further down

What a scanner answers depends on its mode and on the line alone, but for the line numbers.  So of
two scanners in one mode, the one that has taken more lines answers with the same tokens and the
same refusals, so many lines further down, and both are in one mode again.
-/

namespace SequenceChart

namespace Token

/-- The token so many lines further down. -/
def lower (k : Nat) (t : Token) : Token := { t with line := t.line + k }

@[simp] theorem kind_lower (k : Nat) (t : Token) : (t.lower k).kind = t.kind := rfl

@[simp] theorem content_lower (k : Nat) (t : Token) : (t.lower k).content = t.content := rfl

end Token

namespace Scanner

/-- The refusal so many lines further down. -/
def Refusal.lower (k : Nat) : Refusal → Refusal
  | .stray at_ => .stray { at_ with line := at_.line + k }
  | why => why

/-- The answer to a line so many lines further down. -/
def lowered (k : Nat) : Except Refusal (List Token) → Except Refusal (List Token)
  | .ok ts => .ok (ts.map (Token.lower k))
  | .error why => .error (why.lower k)

/-- The second scanner is in the mode of the first one and has taken so many lines more. -/
structure Below (k : Nat) (s s' : Scanner) : Prop where
  mode : s'.mode = s.mode
  lineNumber : s'.lineNumber = s.lineNumber + k

/-! ## One line -/

theorem statementTokens_add (k line column : Nat) (slot : Slot) (isFirst : Bool)
    (cs : List Char) :
    statementTokens (line + k) slot isFirst column cs
      = (statementTokens line slot isFirst column cs).map (List.map (Token.lower k)) := by
  fun_induction statementTokens line slot isFirst column cs with
  | case1 => rw [statementTokens]; rfl
  | case2 slot isFirst column c rest hgap ih =>
    rw [statementTokens, if_pos hgap]
    exact ih
  | case3 isFirst column c rest hgap =>
    rw [statementTokens, if_neg hgap, if_pos rfl]
    rfl
  | case4 slot isFirst column c rest hgap htext hlex =>
    rw [statementTokens, if_neg hgap, if_neg htext]
    split
    · rfl
    · next hsome =>
      rw [hlex] at hsome
      cases hsome
  | case5 slot isFirst column c rest hgap htext kind word after hlex ih =>
    rw [statementTokens, if_neg hgap, if_neg htext]
    split
    · next hnone =>
      rw [hlex] at hnone
      cases hnone
    · next kind' word' after' hsome =>
      rw [hlex] at hsome
      cases hsome
      rw [ih]
      cases statementTokens line (Slot.after kind isFirst) false (column + word.length) after with
      | error stray => rfl
      | ok more => rfl

theorem afterStatement_map_lower (k : Nat) (ts : List Token) :
    Mode.afterStatement (ts.map (Token.lower k)) = Mode.afterStatement ts := by
  cases ts with
  | nil => rfl
  | cons t ts =>
    have hcolon : (List.map (Token.lower k) (t :: ts)).any (fun u => u.kind = .colon)
        = (t :: ts).any fun u => u.kind = .colon := List.any_map
    rw [List.map_cons, Mode.afterStatement, Mode.afterStatement, ← List.map_cons, hcolon,
      Token.kind_lower]

namespace Below

variable {k : Nat} {s s' : Scanner}

theorem feedStatement (h : Below k s s') (line : List Char) :
    (s'.feedStatement line).1 = lowered k (s.feedStatement line).1 ∧
      Below k (s.feedStatement line).2 (s'.feedStatement line).2 := by
  have hnumber : s'.lineNumber + 1 = s.lineNumber + 1 + k := by
    rw [h.lineNumber]
    omega
  unfold Scanner.feedStatement
  dsimp only
  rw [hnumber, statementTokens_add k]
  cases statementTokens (s.lineNumber + 1) .plain true 1 line with
  | ok ts => exact ⟨rfl, afterStatement_map_lower k ts, rfl⟩
  | error stray => exact ⟨rfl, rfl, rfl⟩

/-- The scanner below answers a line alike, and is below again. -/
theorem feed (h : Below k s s') (line : List Char) :
    (s'.feed line).1 = lowered k (s.feed line).1 ∧ Below k (s.feed line).2 (s'.feed line).2 := by
  unfold Scanner.feed
  rw [h.mode]
  split
  · exact ⟨rfl, h⟩
  split
  · exact ⟨rfl, h⟩
  split
  · have hnumber : s'.lineNumber + 1 = s.lineNumber + 1 + k := by
      rw [h.lineNumber]
      omega
    simp only [hnumber]
    exact ⟨rfl, rfl, rfl⟩
  · exact h.feedStatement line

end Below

/-- Lines that a scanner takes are taken by one below it. -/
theorem Feeds.lower {k : Nat} {s s' s₁ : Scanner} {lines : List (List Char)} {ts : List Token}
    (h : Feeds s lines ts s₁) (hs : Below k s s') :
    ∃ s₁', Feeds s' lines (ts.map (Token.lower k)) s₁' ∧ Below k s₁ s₁' := by
  induction h generalizing s' with
  | nil s => exact ⟨s', .nil s', hs⟩
  | cons first _ ih =>
    obtain ⟨hanswer, hbelow⟩ := hs.feed _
    rw [first] at hanswer hbelow
    obtain ⟨s₁', hrest, hlast⟩ := ih hbelow
    refine ⟨s₁', ?_, hlast⟩
    rw [List.map_append]
    exact .cons (Prod.ext hanswer rfl) hrest

end Scanner

end SequenceChart
