import SequenceChart.Proofs.Scanning.Piece
set_option autoImplicit false

/-!
# Where a stray character is found

A line is scanned from left to right, and no token looks further than at the character behind it.
Main statement: a stray character is reported as early as it can be.  What stands before it is
taken, and with it the line is refused in the same way, whatever stands behind it.
-/

namespace SequenceChart

namespace Scanner

/-- A text in which a character starts no token can be scanned up to that character, and what stands
behind the character does not matter. -/
theorem statementTokens_error {line column stop : Nat} {slot : Slot} {isFirst : Bool}
    {cs : List Char} {c : Char}
    (h : statementTokens line slot isFirst column cs = .error (c, stop)) :
    ∃ front rest, cs = front ++ c :: rest ∧ stop = column + front.length ∧
      (∃ ts, statementTokens line slot isFirst column front = .ok ts) ∧
      ∀ more, statementTokens line slot isFirst column (front ++ c :: more) = .error (c, stop) := by
  fun_induction statementTokens line slot isFirst column cs with
  | case1 => cases h
  | case2 slot isFirst column d rest hgap ih =>
    obtain ⟨front, rest, rfl, rfl, ⟨ts, hts⟩, hmore⟩ := ih h
    refine ⟨d :: front, rest, rfl, ?_, ⟨ts, ?_⟩, fun more => ?_⟩
    · rw [List.length_cons]
      omega
    · rw [statementTokens, if_pos hgap, hts]
    · rw [List.cons_append, statementTokens, if_pos hgap, hmore]
  | case3 => cases h
  | case4 slot isFirst column d rest hgap htext hlex =>
    have hstray := statementTokens_of_not_startsToken htext hgap (lexeme?_eq_none_iff.1 hlex) line
      column isFirst
    cases h
    exact ⟨[], rest, rfl, rfl, ⟨[], by rw [statementTokens]⟩, hstray⟩
  | case5 slot isFirst column d rest hgap htext kind word after hlex ih =>
    obtain ⟨hword, hcs⟩ := lexeme?_append hlex
    -- The stray character stands behind the first token.
    obtain ⟨front, rest', rfl, rfl, ⟨ts, hts⟩, hmore⟩ := ih (eq_error_of_more h)
    rw [← hcs] at hlex ⊢
    refine ⟨word ++ front, rest', (List.append_assoc ..).symm, ?_, ?_, fun more => ?_⟩
    · rw [List.length_append, Nat.add_assoc]
    · have hfront : lexeme? slot (word ++ front) = some (kind, word, front) := by
        refine lexeme?_of_follows hlex fun d hd => .inr ?_
        rw [List.head?_append, hd]
        rfl
      rw [statementTokens_of_lexeme? htext hfront, hts]
      exact ⟨_, rfl⟩
    · have hsame : lexeme? slot (word ++ (front ++ c :: more))
          = some (kind, word, front ++ c :: more) := by
        refine lexeme?_of_follows hlex fun d hd => .inr ?_
        rw [List.head?_append] at hd ⊢
        exact hd
      rw [List.append_assoc, statementTokens_of_lexeme? htext hsame, hmore]
      rfl

/-- A line that is refused in statement mode is refused for the earliest of its characters: it
stands on the line, what is before it is taken, and with anything else behind it the refusal is the
same. -/
theorem feed_refused_earliest (s : Scanner) (line : List Char) (at_ : Stray)
    (hmode : s.mode = .statement) (h : (s.feed line).1 = .error (.stray at_)) :
    1 ≤ at_.column ∧ at_.column ≤ line.length ∧
    (∃ ts s', s.feed (line.take (at_.column - 1)) = (.ok ts, s')) ∧
    ∀ more, OneLine more →
      ∃ at_', (s.feed (line.take at_.column ++ more)).1 = .error (.stray at_') ∧
        at_'.column = at_.column ∧ at_'.text = at_.text ∧ at_'.message = at_.message := by
  obtain ⟨hreads, hline, hstray⟩ := stray_of_feed (Prod.ext h rfl)
  obtain ⟨c, text, number, column⟩ := at_
  dsimp only at hline hstray ⊢
  obtain ⟨front, rest, rfl, rfl, ⟨ts, hts⟩, hmore⟩ := statementTokens_error hstray
  obtain ⟨hfront, hrest⟩ := oneLine_append.1 hreads.oneLine
  have htake : (front ++ c :: rest).take (1 + front.length - 1) = front := by
    rw [Nat.add_sub_cancel_left, List.take_left]
  have htakeStray : (front ++ c :: rest).take (1 + front.length) = front ++ [c] := by
    rw [Nat.add_comm, List.take_length_add_append]
    rfl
  refine ⟨Nat.le_add_right 1 front.length, ?_, ?_, fun more hone => ?_⟩
  · rw [List.length_append, List.length_cons]
    omega
  · rw [htake]
    exact ⟨ts, _, ReadsStatement.feed_of_ok ⟨hfront, .inl hmode⟩ hts⟩
  · have hline' : OneLine (front ++ c :: more) := by
      rw [← List.singleton_append] at hrest ⊢
      exact oneLine_append.2 ⟨hfront, oneLine_append.2 ⟨(oneLine_append.1 hrest).1, hone⟩⟩
    have hrefused := ReadsStatement.feed_of_error ⟨hline', .inl hmode⟩ (hmore more)
    rw [htakeStray, List.append_assoc, List.singleton_append, hrefused]
    refine ⟨_, rfl, rfl, rfl, ?_⟩
    rw [Stray.message, Stray.message, hline]
    rfl

/-- Behind an arrowhead the first plus is a mark and the second one is stray. -/
theorem feed_refused_earliest_plus :
    ∃ at_, (({} : Scanner).feed "A>>+ +B: x".toList).1 = .error (.stray at_) ∧ at_.column = 6 ∧
      (∃ ts s', ({} : Scanner).feed "A>>+ ".toList = (.ok ts, s')) ∧
      ∃ at_', (({} : Scanner).feed "A>>+ +?".toList).1 = .error (.stray at_') ∧
        at_'.message = "Line 1, column 6: Unexpected operator: '+'" := by
  have hstray : (({} : Scanner).feed "A>>+ +B: x".toList).1
      = .error (.stray ⟨'+', "A>>+ +B: x".toList, 1, 6⟩) :=
    eq_error_of_tryCatch (by decide +kernel)
  obtain ⟨-, -, hbefore, hbehind⟩ := feed_refused_earliest {} _ _ rfl hstray
  obtain ⟨at_', hrefused, -, -, hmessage⟩ := hbehind ['?'] ⟨by decide, by decide⟩
  exact ⟨_, hstray, rfl, hbefore, at_', hrefused, hmessage.trans (by decide +kernel)⟩

end Scanner

end SequenceChart
