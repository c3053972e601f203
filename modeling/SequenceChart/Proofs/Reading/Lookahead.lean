import Mathlib.Logic.Function.Iterate
import SequenceChart.Proofs.Reading.Viable
set_option autoImplicit false

/-!
# Tokens taken one ahead

A reader that looks one token ahead has pulled the current token from its source and not consumed
it yet.  Where the source runs out, the current token is an end of the input at the place of the
last token; an end of the input is not consumed.  Reading goes on from such a place as from the
tokens that are left.
-/

namespace SequenceChart

/-- A place in a row of tokens, with one token of lookahead. -/
structure Lookahead where
  /-- the tokens that were pulled from the source -/
  pulled : List Token
  /-- the tokens that are left in the source -/
  source : List Token
  /-- the tokens that were consumed -/
  consumed : List Token
  /-- the token that is looked at -/
  current : Token

namespace Lookahead

/-- Pulls the next token and looks at it. -/
def pull (pulled source consumed : List Token) : Lookahead :=
  match source with
  | [] => { pulled, source := [], consumed, current := Reading.endAfter 1 1 pulled }
  | t :: rest => { pulled := pulled ++ [t], source := rest, consumed, current := t }

/-- The first place: the first token is looked at. -/
def start (ts : List Token) : Lookahead := pull [] ts []

/-- Consumes the current token and pulls the next one; an end of the input is not consumed. -/
def advance (c : Lookahead) : Lookahead :=
  if c.current.kind = .endOfInput then c
  else pull c.pulled c.source (c.consumed ++ [c.current])

/-- The number of tokens that may still be consumed. -/
def left (c : Lookahead) : Nat :=
  if c.current.kind = .endOfInput then 0 else c.source.length + 1

theorem advance_of_end {c : Lookahead} (h : c.current.kind = .endOfInput) : c.advance = c :=
  if_pos h

theorem advance_of_ne_end {c : Lookahead} (h : c.current.kind ≠ .endOfInput) :
    c.advance = pull c.pulled c.source (c.consumed ++ [c.current]) :=
  if_neg h

theorem kind_endAfter (line column : Int) (ts : List Token) :
    (Reading.endAfter line column ts).kind = .endOfInput := by
  rw [Reading.endAfter]
  cases ts.getLast? <;> rfl

theorem consumed_pull (pulled source consumed : List Token) :
    (pull pulled source consumed).consumed = consumed := by
  cases source <;> rfl

theorem left_pull_le (pulled source consumed : List Token) :
    (pull pulled source consumed).left ≤ source.length := by
  cases source with
  | nil => exact Nat.le_of_eq (if_pos (kind_endAfter 1 1 pulled))
  | cons t rest =>
    rw [left]
    split
    · exact Nat.zero_le _
    · exact Nat.le_refl _

theorem left_start_le (ts : List Token) : (start ts).left ≤ ts.length := left_pull_le [] ts []

/-- What is consumed is no longer left. -/
theorem left_advance_lt {c : Lookahead} (h : c.current.kind ≠ .endOfInput) :
    c.advance.left < c.left := by
  rw [advance_of_ne_end h, show c.left = c.source.length + 1 from if_neg h]
  exact Nat.lt_succ_of_le (left_pull_le _ _ _)

theorem consumed_advance {c : Lookahead} (h : c.current.kind ≠ .endOfInput) :
    c.advance.consumed = c.consumed ++ [c.current] := by
  rw [advance_of_ne_end h, consumed_pull]

theorem left_advance_le (c : Lookahead) : c.advance.left ≤ c.left := by
  by_cases h : c.current.kind = .endOfInput
  · exact Nat.le_of_eq (congrArg left (advance_of_end h))
  · exact Nat.le_of_lt (left_advance_lt h)

theorem consumed_prefix_advance (c : Lookahead) : c.consumed <+: c.advance.consumed := by
  by_cases h : c.current.kind = .endOfInput
  · exact ⟨[], by rw [advance_of_end h, List.append_nil]⟩
  · exact ⟨[c.current], (consumed_advance h).symm⟩

/-! ## Places that are reached by advancing -/

/-- Advancing any number of times leads from one place to the other. -/
def Onward (c c' : Lookahead) : Prop := ∃ n, c' = advance^[n] c

/-- On the way from one place to the other a token is consumed. -/
def Further (c c' : Lookahead) : Prop :=
  c.Onward c' ∧ c.consumed.length < c'.consumed.length

variable {c c' c'' : Lookahead}

theorem Onward.refl (c : Lookahead) : c.Onward c := ⟨0, rfl⟩

theorem Onward.trans (h : c.Onward c') (h' : c'.Onward c'') : c.Onward c'' := by
  obtain ⟨m, rfl⟩ := h
  obtain ⟨n, rfl⟩ := h'
  exact ⟨n + m, (Function.iterate_add_apply advance n m c).symm⟩

theorem onward_advance (c : Lookahead) : c.Onward c.advance := ⟨1, rfl⟩

theorem Onward.consumed_prefix (h : c.Onward c') : c.consumed <+: c'.consumed := by
  obtain ⟨n, rfl⟩ := h
  induction n generalizing c with
  | zero => exact List.prefix_rfl
  | succ n ih =>
    rw [Function.iterate_succ_apply]
    exact c.consumed_prefix_advance.trans ih

theorem Onward.left_le (h : c.Onward c') : c'.left ≤ c.left := by
  obtain ⟨n, rfl⟩ := h
  induction n generalizing c with
  | zero => exact Nat.le_refl _
  | succ n ih =>
    rw [Function.iterate_succ_apply]
    exact Nat.le_trans ih c.left_advance_le

/-- What goes on behind the current token is further. -/
theorem Further.of_advance (hne : c.current.kind ≠ .endOfInput) (h : c.advance.Onward c') :
    c.Further c' := by
  refine ⟨c.onward_advance.trans h, Nat.lt_of_lt_of_le ?_ h.consumed_prefix.length_le⟩
  rw [consumed_advance hne, List.length_append, List.length_singleton]
  exact Nat.lt_succ_self _

/-- Fewer tokens are left at a further place. -/
theorem Further.left_lt (h : c.Further c') : c'.left < c.left := by
  obtain ⟨⟨n, rfl⟩, hconsumed⟩ := h
  cases n with
  | zero => exact absurd hconsumed (Nat.lt_irrefl _)
  | succ n =>
    by_cases hend : c.current.kind = .endOfInput
    · rw [Function.iterate_fixed (advance_of_end hend)] at hconsumed
      exact absurd hconsumed (Nat.lt_irrefl _)
    · rw [Function.iterate_succ_apply]
      exact Nat.lt_of_le_of_lt (Onward.left_le ⟨n, rfl⟩) (left_advance_lt hend)

/-! ## What was pulled and consumed -/

/-- The places that are reached in a row of tokens. -/
structure Within (ts : List Token) (c : Lookahead) : Prop where
  /-- What was pulled and what is left in the source are the row. -/
  pulled_append : c.pulled ++ c.source = ts
  /-- Besides the tokens consumed, the current one was pulled, or the source has run out, and the
  end of the input stands at the last token. -/
  pulled_eq : c.pulled = c.consumed ++ [c.current] ∨
    c.pulled = c.consumed ∧ c.source = [] ∧ c.current = Reading.endAfter 1 1 ts
  /-- No end of the input was consumed. -/
  ne_end : ∀ t ∈ c.consumed, t.kind ≠ .endOfInput

variable {ts : List Token}

theorem within_pull {source consumed : List Token} (h : consumed ++ source = ts)
    (hne : ∀ t ∈ consumed, t.kind ≠ .endOfInput) : (pull consumed source consumed).Within ts := by
  subst h
  cases source with
  | nil =>
    refine ⟨rfl, .inr ⟨rfl, rfl, ?_⟩, hne⟩
    rw [List.append_nil]
    rfl
  | cons t rest => exact ⟨List.append_assoc consumed [t] rest, .inl rfl, hne⟩

theorem within_start (ts : List Token) : (start ts).Within ts := within_pull rfl nofun

theorem Within.advance (h : c.Within ts) : c.advance.Within ts := by
  by_cases hend : c.current.kind = .endOfInput
  · rw [advance_of_end hend]
    exact h
  · rcases h.pulled_eq with hpulled | ⟨-, -, hcurrent⟩
    · rw [advance_of_ne_end hend, hpulled]
      exact within_pull (by rw [← hpulled, h.pulled_append])
        (List.forall_mem_append.2 ⟨h.ne_end, List.forall_mem_singleton.2 hend⟩)
    · exact absurd (hcurrent ▸ kind_endAfter 1 1 ts) hend

theorem Onward.within (h : c.Onward c') (hc : c.Within ts) : c'.Within ts := by
  obtain ⟨n, rfl⟩ := h
  induction n generalizing c with
  | zero => exact hc
  | succ n ih =>
    rw [Function.iterate_succ_apply]
    exact ih hc.advance

theorem Within.consumed_prefix (h : c.Within ts) : c.consumed <+: c.pulled := by
  rcases h.pulled_eq with hpulled | ⟨hpulled, -⟩
  · exact ⟨[c.current], hpulled.symm⟩
  · exact ⟨[], (List.append_nil _).trans hpulled.symm⟩

/-- At most one token more than those consumed was pulled. -/
theorem Within.length_pulled_le (h : c.Within ts) : c.pulled.length ≤ c.consumed.length + 1 := by
  rcases h.pulled_eq with hpulled | ⟨hpulled, -⟩
  · exact Nat.le_of_eq (by rw [hpulled, List.length_append, List.length_singleton])
  · exact Nat.le_succ_of_le (Nat.le_of_eq (congrArg List.length hpulled))

/-- Advancing pulls the next token of the source, or none. -/
theorem pulled_advance (c : Lookahead) : ∃ next : Option Token,
    c.advance.pulled = c.pulled ++ next.toList ∧ c.source = next.toList ++ c.advance.source := by
  by_cases hend : c.current.kind = .endOfInput
  · rw [advance_of_end hend]
    exact ⟨none, (List.append_nil _).symm, rfl⟩
  · rw [advance_of_ne_end hend]
    cases hsource : c.source with
    | nil => exact ⟨none, (List.append_nil _).symm, rfl⟩
    | cons t rest => exact ⟨some t, rfl, rfl⟩

/-- What was pulled stays pulled. -/
theorem Onward.pulled_prefix (h : c.Onward c') : c.pulled <+: c'.pulled := by
  obtain ⟨n, rfl⟩ := h
  induction n generalizing c with
  | zero => exact List.prefix_rfl
  | succ n ih =>
    obtain ⟨next, hnext, -⟩ := c.pulled_advance
    rw [Function.iterate_succ_apply]
    exact List.IsPrefix.trans ⟨next.toList, hnext.symm⟩ ih

end Lookahead

/-! ## Reading on from a place -/

namespace Reading

open Lookahead

/-- Reads the current token and those behind it up to the first end of the input; with the place
where reading stops. -/
def resume (r : Reading) (c : Lookahead) : Except SyntaxFault Reading × Lookahead :=
  if c.current.kind = .endOfInput then (r.push c.current, c)
  else match r.push c.current with
    | .error why => (.error why, c)
    | .ok r => r.resume c.advance
termination_by c.left
decreasing_by exact left_advance_lt ‹_›

variable {r r' : Reading} {c : Lookahead}

theorem resume_of_end (h : c.current.kind = .endOfInput) :
    r.resume c = (r.push c.current, c) := by
  rw [resume, if_pos h]

theorem resume_of_ok (hne : c.current.kind ≠ .endOfInput) (h : r.push c.current = .ok r') :
    r.resume c = r'.resume c.advance := by
  rw [resume, if_neg hne, h]

theorem resume_of_error {why : SyntaxFault} (h : r.push c.current = .error why) :
    r.resume c = (.error why, c) := by
  rw [resume, h]
  split <;> rfl

/-- Reading on only advances. -/
theorem onward_resume (r : Reading) (c : Lookahead) : c.Onward (r.resume c).2 := by
  fun_induction resume r c with
  | case1 => exact .refl _
  | case2 => exact .refl _
  | case3 r c _ q _ ih => exact c.onward_advance.trans ih

/-- Two readings that take the current token alike go on alike. -/
theorem resume_congr (h : r.push c.current = r'.push c.current) : r.resume c = r'.resume c := by
  rw [resume, h, ← resume]

theorem endAt_endAfter (line column : Int) (ts : List Token) :
    endAt (endAfter line column ts).line (endAfter line column ts).column
      = endAfter line column ts := by
  rw [endAfter]
  cases ts.getLast? <;> rfl

theorem fst_resume_pull (r : Reading) (pulled source consumed : List Token) :
    (r.resume (pull pulled source consumed)).1
      = r.run (endAfter 1 1 pulled).line (endAfter 1 1 pulled).column source := by
  induction source generalizing r pulled consumed with
  | nil =>
    calc (r.resume (pull pulled [] consumed)).1 = r.push (endAfter 1 1 pulled) :=
          congrArg Prod.fst (resume_of_end (kind_endAfter 1 1 pulled))
      _ = r.run (endAfter 1 1 pulled).line (endAfter 1 1 pulled).column [] := by
          rw [run, endAt_endAfter]
  | cons t rest ih =>
    rw [run]
    split
    · next hend => exact congrArg Prod.fst (resume_of_end hend)
    · next hne =>
      cases hpush : r.push t with
      | error why => exact congrArg Prod.fst (resume_of_error hpush)
      | ok q =>
        have hlast : endAfter 1 1 (pulled ++ [t]) = endAt t.line t.column := by
          rw [endAfter, List.getLast?_concat]
          rfl
        have hnext : (pull pulled (t :: rest) consumed).advance
            = pull (pulled ++ [t]) rest (consumed ++ [t]) := advance_of_ne_end hne
        rw [resume_of_ok (c := pull pulled (t :: rest) consumed) hne hpush, hnext, ih, hlast]
        rfl

/-- Reading on from the first token is reading the row. -/
theorem fst_resume_start (r : Reading) (ts : List Token) :
    (r.resume (start ts)).1 = r.run 1 1 ts :=
  fst_resume_pull r [] ts []

end Reading

end SequenceChart
