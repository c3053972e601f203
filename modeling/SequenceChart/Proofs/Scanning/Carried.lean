import Mathlib.Data.List.Forall2
import SequenceChart.Proofs.Scanning.LifeCycle
import SequenceChart.Proofs.Scanning.Shifted
set_option autoImplicit false

/-!
# What a scanner carries from line to line

A scanner keeps the number of lines and the length of the last one, but reads a line by its mode
alone.  Main statement: of two scanners in one mode, whatever they were called with before, every
further line and the close after it are answered alike, up to the difference of their line numbers.
A line has to come first, as the end of the input stands behind the last line that was taken.
-/

namespace SequenceChart

/-- The second token says what the first one does, in the same column so many lines below. -/
structure Token.Alike (d : Int) (t u : Token) : Prop where
  kind : u.kind = t.kind
  text : u.text = t.text
  column : u.column = t.column
  line : u.line = t.line + d

namespace Token

theorem Alike.symm {d : Int} {t u : Token} (h : t.Alike d u) : u.Alike (-d) t :=
  ⟨h.kind.symm, h.text.symm, h.column.symm, by rw [h.line]; omega⟩

theorem alike_lower (k : Nat) (t : Token) : t.Alike k (t.lower k) := ⟨rfl, rfl, rfl, rfl⟩

theorem alike_map_lower (k : Nat) (ts : List Token) :
    List.Forall₂ (Token.Alike k) ts (ts.map (Token.lower k)) :=
  List.forall₂_map_right_iff.2 (List.forall₂_same.2 fun t _ => alike_lower k t)

end Token

namespace Scanner

/-- The second stray character is the first one, in the same column of the same text so many lines
below. -/
structure Stray.Alike (d : Int) (a b : Stray) : Prop where
  char : b.char = a.char
  lineText : b.lineText = a.lineText
  column : b.column = a.column
  line : (b.line : Int) = a.line + d

/-- The second reply is the first one, so many lines below. -/
inductive Reply.Alike (d : Int) : Reply → Reply → Prop where
  | tokens {ts us : List Token} (h : List.Forall₂ (Token.Alike d) ts us) :
    Alike d (.tokens ts) (.tokens us)
  | ended {t u : Token} (h : t.Alike d u) : Alike d (.ended t) (.ended u)
  | stray {a b : Stray} (h : a.Alike d b) : Alike d (.refused (.stray a)) (.refused (.stray b))
  | refused {why : Refusal} (h : ∀ at_, why ≠ .stray at_) : Alike d (.refused why) (.refused why)

theorem Reply.Alike.symm {d : Int} {reply reply' : Reply} (h : reply.Alike d reply') :
    reply'.Alike (-d) reply := by
  cases h with
  | tokens h => exact .tokens (h.flip.imp fun _ _ ht => ht.symm)
  | ended h => exact .ended h.symm
  | stray h =>
    exact .stray ⟨h.char.symm, h.lineText.symm, h.column.symm, by rw [h.line]; omega⟩
  | refused h => exact .refused h

/-- How two scanners answer the same calls, if they answer them alike. -/
structure SameCourse (s s' : Scanner) (calls : List Call) : Prop where
  /-- call by call the same reply, so many lines below as the second scanner is at the start -/
  replies : List.Forall₂ (Reply.Alike ((s'.lineNumber : Int) - s.lineNumber)) (s.replies calls)
    (s'.replies calls)
  /-- after any of the calls the same mode -/
  mode : ∀ before rest, calls = before ++ rest → (s'.after before).mode = (s.after before).mode
  /-- after any of the calls the difference of the line numbers at the start -/
  lineNumber : ∀ before rest, calls = before ++ rest →
    ((s'.after before).lineNumber : Int) - (s.after before).lineNumber
      = s'.lineNumber - s.lineNumber

theorem SameCourse.symm {s s' : Scanner} {calls : List Call} (h : SameCourse s s' calls) :
    SameCourse s' s calls := by
  refine ⟨h.replies.flip.imp fun reply reply' halike => ?_, fun before rest hcalls => ?_,
    fun before rest hcalls => ?_⟩
  · have hswapped := Reply.Alike.symm halike
    rw [Int.neg_sub] at hswapped
    exact hswapped
  · exact (h.mode before rest hcalls).symm
  · have hnumber := h.lineNumber before rest hcalls
    omega

/-! ## Scanners below each other -/

/-- A line without a break that a scanner takes, or fails at, is the last line that it has seen. -/
theorem width_feed {s : Scanner} (hopen : s.mode.isOver = false) {line : List Char}
    (hline : OneLine line) :
    (s.feed line).2.width = line.length ∧ (s.feed line).2.lineNumber = s.lineNumber + 1 := by
  obtain ⟨answer, s', hfeed⟩ : ∃ answer s', s.feed line = (answer, s') := ⟨_, _, rfl⟩
  cases answer with
  | ok ts =>
    rw [hfeed]
    rcases feed_ok_cases hfeed with ⟨-, -, rfl⟩ | ⟨-, -, rfl⟩ <;> exact ⟨rfl, rfl⟩
  | error why =>
    obtain ⟨at_, -, -, hnext⟩ := feed_error hopen hline (congrArg Prod.fst hfeed)
    rw [hnext]
    exact ⟨rfl, rfl⟩

/-- Scanners below each other that end the input alike, as they have taken the last line alike. -/
structure Level (k : Nat) (s s' : Scanner) : Prop extends Below k s s' where
  taken : s.mode.isOver = false → s'.width = s.width ∧ 0 < s.lineNumber

namespace Below

variable {k : Nat} {s s' : Scanner}

/-- The scanner below answers a line alike, and is below again. -/
theorem call_feed (h : Below k s s') (line : List Char) :
    (s.call (.feed line)).1.Alike k (s'.call (.feed line)).1 ∧
      Below k (s.call (.feed line)).2 (s'.call (.feed line)).2 := by
  obtain ⟨answer, s₁, hfeed⟩ : ∃ answer s₁, s.feed line = (answer, s₁) := ⟨_, _, rfl⟩
  obtain ⟨answer', s₁', hfeed'⟩ : ∃ answer' s₁', s'.feed line = (answer', s₁') := ⟨_, _, rfl⟩
  obtain ⟨hanswer, hbelow⟩ := h.feed line
  rw [hfeed, hfeed'] at hanswer hbelow
  obtain rfl : answer' = lowered k answer := hanswer
  rw [call, call, hfeed, hfeed']
  refine ⟨?_, ?_⟩
  · cases answer with
    | ok ts => exact .tokens (Token.alike_map_lower k ts)
    | error why =>
      cases why with
      | stray at_ => exact .stray ⟨rfl, rfl, rfl, Int.natCast_add at_.line k⟩
      | lineOver _ | closeOver _ | lineBreak => exact .refused fun _ hstray => by cases hstray
  · cases answer <;> exact hbelow

/-- After any call the scanner below is below again. -/
theorem call (h : Below k s s') (c : Call) : Below k (s.call c).2 (s'.call c).2 := by
  cases c with
  | feed line => exact (h.call_feed line).2
  | close =>
    cases hover : s.mode.isOver with
    | true =>
      rw [call_of_isOver hover, call_of_isOver (by rw [h.mode, hover])]
      exact h
    | false =>
      rw [call_close hover, call_close (by rw [h.mode, hover])]
      exact ⟨rfl, h.lineNumber⟩

theorem after (h : Below k s s') (calls : List Call) : Below k (s.after calls) (s'.after calls) := by
  induction calls generalizing s s' with
  | nil => exact h
  | cons c calls ih => exact ih (h.call c)

/-- The scanner below answers lines alike. -/
theorem replies_feed (h : Below k s s') (lines : List (List Char)) :
    List.Forall₂ (Reply.Alike k) (s.replies (lines.map .feed)) (s'.replies (lines.map .feed)) := by
  induction lines generalizing s s' with
  | nil => exact .nil
  | cons line lines ih =>
    obtain ⟨hreply, hnext⟩ := h.call_feed line
    exact .cons hreply (ih hnext)

/-- After a line the scanner below ends the input alike. -/
theorem level_feed (h : Below k s s') {line : List Char} (hline : OneLine line) :
    Level k (s.call (.feed line)).2 (s'.call (.feed line)).2 := by
  refine ⟨(h.call_feed line).2, fun hopen => ?_⟩
  have hleft (s : Scanner) : (s.call (.feed line)).2 = (s.feed line).2 := by
    rw [Scanner.call]
    split <;> next hfeed => rw [hfeed]
  have hbefore : s.mode.isOver = false := by
    cases hover : s.mode.isOver with
    | false => rfl
    | true =>
      rw [call_of_isOver hover] at hopen
      exact hover.symm.trans hopen
  obtain ⟨hwidth, hnumber⟩ := width_feed hbefore hline
  obtain ⟨hwidth', -⟩ := width_feed (s := s') (by rw [h.mode, hbefore]) hline
  rw [hleft, hleft, hwidth, hwidth', hnumber]
  exact ⟨rfl, Nat.succ_pos _⟩

end Below

/-- Scanners on a level answer a close alike. -/
theorem Level.call_close {k : Nat} {s s' : Scanner} (h : Level k s s') :
    (s.call .close).1.Alike k (s'.call .close).1 := by
  cases hover : s.mode.isOver with
  | true =>
    rw [call_of_isOver hover, call_of_isOver (by rw [h.mode, hover]), h.mode]
    exact .refused nofun
  | false =>
    obtain ⟨hwidth, hpos⟩ := h.taken hover
    rw [Scanner.call_close hover, Scanner.call_close (by rw [h.mode, hover])]
    refine .ended ⟨rfl, rfl, ?_, ?_⟩
    · rw [hwidth]
    · rw [h.lineNumber, Nat.max_eq_left hpos, Nat.max_eq_left (Nat.le_add_right_of_le hpos)]
      exact Int.natCast_add s.lineNumber k

/-! ## Lines and the end after them -/

/-- The scanner below takes the same course through lines and the close after them. -/
theorem Below.sameCourse {k : Nat} {s s' : Scanner} (h : Below k s s') {lines : List (List Char)}
    (hlines : ∀ line ∈ lines, OneLine line) (hne : lines ≠ []) :
    SameCourse s s' (lines.map .feed ++ [.close]) := by
  have hdiff : (s'.lineNumber : Int) - s.lineNumber = k := by
    rw [h.lineNumber]
    omega
  refine ⟨?_, fun before _ _ => (h.after before).mode, fun before _ _ => ?_⟩
  · -- The last line makes the scanners level; before it only their modes are the same.
    obtain ⟨before, line, rfl⟩ := (List.eq_nil_or_concat lines).resolve_left hne
    rw [List.concat_eq_append] at hlines ⊢
    have hlevel : Level k (s.after ((before ++ [line]).map .feed))
        (s'.after ((before ++ [line]).map .feed)) := by
      rw [List.map_append, after_append, after_append]
      exact (h.after _).level_feed (hlines line (by simp))
    rw [hdiff, replies_append, replies_append]
    exact List.rel_append (h.replies_feed _) (.cons hlevel.call_close .nil)
  · rw [hdiff, (h.after before).lineNumber]
    omega

/-- Two scanners in one mode, however they came to be in it, take the same course through lines
without breaks and the close after them. -/
theorem sameCourse_of_mode_eq {s s' : Scanner} (hmode : s'.mode = s.mode)
    {lines : List (List Char)} (hlines : ∀ line ∈ lines, OneLine line) (hne : lines ≠ []) :
    SameCourse s s' (lines.map .feed ++ [.close]) := by
  rcases Nat.le_total s.lineNumber s'.lineNumber with hle | hle
  · obtain ⟨k, hk⟩ := Nat.exists_eq_add_of_le hle
    exact Below.sameCourse ⟨hmode, hk⟩ hlines hne
  · obtain ⟨k, hk⟩ := Nat.exists_eq_add_of_le hle
    exact (Below.sameCourse ⟨hmode.symm, hk⟩ hlines hne).symm

/-- A block of text that has ended and a line that was refused for a break do not show: behind two
more lines the input ends in the same column as for a new scanner, three lines below. -/
theorem sameCourse_of_mode_eq_ended :
    ∃ (s : Scanner) (calls : List Call), s = ({} : Scanner).after [.feed "note".toList,
        .feed "x y z".toList, .feed "a\nb".toList, .feed "  end".toList] ∧
      calls = ["A ->+ B: x".toList, "note".toList].map .feed ++ [.close] ∧
      s.mode = ({} : Scanner).mode ∧ SameCourse {} s calls ∧
      (({} : Scanner).replies calls).getLast? = some (.ended ⟨.endOfInput, none, 2, 5⟩) ∧
      (s.replies calls).getLast? = some (.ended ⟨.endOfInput, none, 5, 5⟩) := by
  obtain ⟨s, hs⟩ : ∃ s, s = ({} : Scanner).after [.feed "note".toList, .feed "x y z".toList,
    .feed "a\nb".toList, .feed "  end".toList] := ⟨_, rfl⟩
  have hmode : s.mode = ({} : Scanner).mode := by
    rw [hs]
    decide +kernel
  have hlines : ∀ line ∈ ["A ->+ B: x".toList, "note".toList], OneLine line := by
    unfold OneLine
    decide
  have hcourse := sameCourse_of_mode_eq hmode hlines (List.cons_ne_nil _ _)
  refine ⟨s, _, hs, rfl, hmode, hcourse, by decide +kernel, ?_⟩
  rw [hs]
  decide +kernel

end Scanner

end SequenceChart
