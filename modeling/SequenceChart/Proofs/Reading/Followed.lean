import SequenceChart.Proofs.Reading.Descent
set_option autoImplicit false

/-!
# Routines that follow reading

A routine of the descent is compared with reading token by token from the place where it starts.
It follows reading if it only advances, if reading has come to what its result says where it ends,
and if its fault is the fault of reading.  A routine whose parts follow reading one after the other
does so itself; the routines of a signal are such.
-/

namespace SequenceChart

/-! ## What may stand next -/

namespace Progress

/-- The kind that must stand next, if there is only one. -/
def required? : Progress → Option TokenKind
  | .title => some .text
  | .participant => some .identifier
  | .alias _ => some .identifier
  | .marked _ => some .identifier
  | .message _ => some .text
  | _ => none

/-- The kind that goes on with a construct that may end. -/
def continuation? : Progress → Option TokenKind
  | .declared _ => some (.keyword .as_)
  | .opt => some .text
  | .targeted _ => some .colon
  | _ => none

end Progress

namespace Reading

variable {r q : Reading} {t : Token}

theorem push_of_ne_required {kind : TokenKind} (h : r.progress.required? = some kind)
    (ht : t.kind ≠ kind) : r.push t = refuse [kind] t := by
  unfold push
  split <;> simp_all [Progress.required?, pushTarget]

theorem push_of_idle (h : r.progress = .idle) : r.push t = r.begin_ t := by
  obtain ⟨items, blocks, _⟩ := r
  subst h
  rfl

/-- A construct that may end is finished if the next token does not go on with it. -/
theorem push_of_ne_continuation (h : r.settled? = some q)
    (ht : r.progress.continuation? ≠ some t.kind) : r.push t = q.push t := by
  rw [push_of_idle (progress_of_settled h)]
  unfold settled? at h
  unfold push
  split at h <;> split <;> simp_all [Progress.continuation?]

theorem push_tailed (r : Reading) (s : Signal) (t : Token) :
    (r.going (.tailed s)).push t = r.pushShaft s t := by
  unfold push
  split <;> simp_all [pushShaft]

theorem push_headed (r : Reading) (s : Signal) (t : Token) :
    (r.going (.headed s)).push t = r.pushMark s t := by
  unfold push
  split <;> simp_all [pushMark, pushTarget]

theorem push_marked (r : Reading) (s : Signal) (t : Token) :
    (r.going (.marked s)).push t = r.pushTarget s t := by
  unfold push
  split <;> simp_all [pushTarget]

theorem push_branchDone (r : Reading) (done : List Block) (t : Token) :
    (r.going (.branchDone done)).push t = r.pushBranchDone done t := by
  unfold push
  split <;> simp_all [pushBranchDone]

end Reading

namespace Descent

variable {α β : Type}

/-- What a routine does from a place, against what reading does from there: with a result, reading
has come to what `k` makes of the result; a fault is the fault of reading; and the routine is not
cut off. -/
def Follows (r : Reading) (k : α → Reading) (c : Lookahead) :
    EStateM.Result Stop Lookahead α → Prop
  | .ok a c' => c.Onward c' ∧ r.resume c = (k a).resume c'
  | .error (.fault why) c' => c.Onward c' ∧ r.resume c = (.error why, c')
  | .error .cut _ => False

variable {r r' : Reading} {k : α → Reading} {c c' : Lookahead}
  {res : EStateM.Result Stop Lookahead α}

theorem Follows.onward {a : α} (h : Follows r k c res) (hres : res = .ok a c') : c.Onward c' := by
  subst hres
  exact h.1

/-- A routine that follows reading from a place which reading comes to. -/
theorem Follows.after (honward : c.Onward c') (hr : r.resume c = r'.resume c')
    (h : Follows r' k c' res) : Follows r k c res := by
  rcases res with ⟨a, c''⟩ | ⟨_ | _, c''⟩
  · exact ⟨honward.trans h.1, hr.trans h.2⟩
  · exact ⟨honward.trans h.1, hr.trans h.2⟩
  · exact h

theorem Follows.congr (h : Follows r' k c res) (hpush : r.push c.current = r'.push c.current) :
    Follows r k c res :=
  h.after (.refl c) (Reading.resume_congr hpush)

theorem Follows.step (hne : c.current.kind ≠ .endOfInput) (hpush : r.push c.current = .ok r')
    (h : Follows r' k c.advance res) : Follows r k c res :=
  h.after c.onward_advance (Reading.resume_of_ok hne hpush)

theorem Follows.done {a : α} (h : r = k a) : Follows r k c (.ok a c) :=
  ⟨.refl c, by rw [h]⟩

theorem Follows.refused {why : SyntaxFault} (h : r.push c.current = .error why) :
    Follows r k c (.error (.fault why) c) :=
  ⟨.refl c, Reading.resume_of_error h⟩

/-- One routine after the other. -/
theorem Follows.bind {m : Descent α} {f : α → Descent β} {k' : β → Reading}
    (h : Follows r k c (m c))
    (hf : ∀ a c', m c = .ok a c' → c.Onward c' → Follows (k a) k' c' (f a c')) :
    Follows r k' c ((m >>= f) c) := by
  cases hm : m c with
  | ok a c' =>
    rw [hm] at h
    rw [bind_of_ok hm]
    exact (hf a c' hm h.1).after h.1 h.2
  | error why c' =>
    rw [hm] at h
    rw [bind_of_error hm]
    cases why <;> exact h

/-- A routine whose result is turned into another one. -/
theorem Follows.map {m : Descent α} {g : α → β} {k' : β → Reading}
    (h : Follows r (fun a => k' (g a)) c (m c')) :
    Follows r k' c ((do return g (← m) : Descent β) c') := by
  cases hm : m c' with
  | ok a c₁ =>
    rw [hm] at h
    rw [bind_of_ok hm]
    exact h
  | error why c₁ =>
    rw [hm] at h
    rw [bind_of_error hm]
    cases why <;> exact h

/-! ## The current token -/

/-- A routine that goes one way if the current token has some kinds, and another way if not. -/
theorem Follows.check {kinds : List TokenKind} {yes no : Descent α}
    (hyes : c.current.kind ∈ kinds → Follows r k c (yes c))
    (hno : c.current.kind ∉ kinds → Follows r k c (no c)) :
    Follows r k c ((do if ← check kinds then yes else no : Descent α) c) := by
  by_cases h : c.current.kind ∈ kinds
  · rw [bind_of_ok (check_of_mem h)]
    exact hyes h
  · rw [bind_of_ok (check_of_not_mem h)]
    exact hno h

/-- A routine that consumes a token of some kind first, or goes another way. -/
theorem Follows.accept {kind : TokenKind} (hend : kind ≠ .endOfInput) {yes no : Descent α}
    (hyes : c.current.kind = kind →
      ∃ r', r.push c.current = .ok r' ∧ Follows r' k c.advance (yes c.advance))
    (hno : c.current.kind ≠ kind → Follows r k c (no c)) :
    Follows r k c ((do if ← accept kind then yes else no : Descent α) c) := by
  by_cases h : c.current.kind = kind
  · obtain ⟨r', hpush, hrest⟩ := hyes h
    rw [bind_of_ok (accept_of_eq h)]
    exact hrest.step (h ▸ hend) hpush
  · rw [bind_of_ok (accept_of_ne h)]
    exact hno h

theorem Follows.expect {kinds : List TokenKind} (hend : .endOfInput ∉ kinds) {k : Token → Reading}
    (hyes : c.current.kind ∈ kinds → r.push c.current = .ok (k c.current))
    (hno : c.current.kind ∉ kinds → r.push c.current = Reading.refuse kinds c.current) :
    Follows r k c (expect kinds c) := by
  rw [Descent.expect, bind_of_ok (current_eq c)]
  refine Follows.check (fun h => ?_) fun h => .refused (hno h)
  exact Follows.step (fun heq => hend (heq ▸ h)) (hyes h) (.done rfl)

theorem Follows.read {kind : TokenKind} (hend : kind ≠ .endOfInput) {k : String → Reading}
    (hyes : c.current.kind = kind → r.push c.current = .ok (k c.current.content))
    (hno : c.current.kind ≠ kind → r.push c.current = Reading.refuse [kind] c.current) :
    Follows r k c (read kind c) := by
  refine Follows.map (Follows.expect ?_ ?_ ?_)
  · exact fun hmem => hend (List.mem_singleton.1 hmem).symm
  · exact fun hmem => hyes (List.mem_singleton.1 hmem)
  · exact fun hmem => hno fun heq => hmem (List.mem_singleton.2 heq)

theorem Follows.acceptText {k : Option String → Reading}
    (hyes : c.current.kind = .text → r.push c.current = .ok (k (some c.current.content)))
    (hno : c.current.kind ≠ .text → r.push c.current = (k none).push c.current) :
    Follows r k c (acceptText c) := by
  refine Follows.check (fun h => ?_) fun h => ?_
  · have htext := List.mem_singleton.1 h
    exact .map (.read (by decide) (fun _ => hyes htext) fun hne => absurd htext hne)
  · have hne : c.current.kind ≠ .text := fun heq => h (List.mem_singleton.2 heq)
    exact Follows.congr (.done rfl) (hno hne)

/-! ## The routines of a signal -/

theorem follows_tail (r : Reading) (source : String) (c : Lookahead) :
    Follows (r.going (.source { source, target := "" }))
      (fun tail => r.going (.tailed { source, target := "", tail })) c
      (acceptEnd TokenKind.tail? c) := by
  cases htail : c.current.kind.tail? with
  | some shape =>
    have hkind := TokenKind.tail?_eq_some_iff.1 htail
    rw [acceptEnd_of_some htail]
    refine Follows.step (by simp [hkind]) ?_ (.done rfl)
    simp [Reading.push, hkind]
  | none =>
    rw [acceptEnd_of_none htail]
    refine Follows.congr (.done rfl) ?_
    rw [Reading.push_tailed]
    refine Reading.push_source_of_ne_tail rfl fun shape hkind => ?_
    rw [TokenKind.tail?_eq_some_iff.2 hkind] at htail
    cases htail

theorem follows_shaft (r : Reading) (s : Signal) (c : Lookahead) :
    Follows (r.going (.tailed s))
      (fun dotted => r.going (.shaft { s with dotted } c.current)) c (shaft c) := by
  refine Follows.accept (by decide) (fun h => ⟨_, ?_, .done rfl⟩) fun h => ?_
  · rw [Reading.push_tailed, Reading.pushShaft, h]
    rfl
  · refine Follows.bind (k := fun _ => r.going (.shaft { s with dotted := false } c.current))
      (.expect (by decide) (fun hmem => ?_) fun hne => ?_) fun _ _ _ _ => .done rfl
    · rw [Reading.push_tailed, Reading.pushShaft, List.mem_singleton.1 hmem]
      rfl
    · rw [Reading.push_tailed, Reading.pushShaft]
      split
      · next dotted hkind => cases dotted <;> simp_all
      · rfl

/-- An arrow with neither end is refused where the token after its shaft is looked at. -/
theorem follows_arrow (r : Reading) (source : String) (c : Lookahead) :
    Follows (r.going (.source { source, target := "" })) (fun s => r.going (.headed s)) c
      (arrow source c) := by
  rw [arrow, bind_of_ok (current_eq c)]
  refine (follows_tail r source c).bind fun tail c₁ htail _ => ?_
  refine (follows_shaft r _ c₁).bind fun dotted c₂ _ _ => ?_
  cases hhead : c₂.current.kind.head? with
  | some shape =>
    have hkind := TokenKind.head?_eq_some_iff.1 hhead
    rw [bind_of_ok (acceptEnd_of_some hhead)]
    refine Follows.step (by simp [hkind]) ?_ (.done rfl)
    simp [Reading.push, hkind]
  | none =>
    have hkind : ∀ shape, c₂.current.kind ≠ .head shape := by
      intro shape hkind
      rw [TokenKind.head?_eq_some_iff.2 hkind] at hhead
      cases hhead
    have hpush := Reading.push_shaft_of_ne_head
      (r := r.going (.shaft { source, target := "", tail, dotted } c₁.current)) rfl hkind
    rw [bind_of_ok (acceptEnd_of_none hhead)]
    cases tail with
    | some shape =>
      refine Follows.congr (.done rfl) ?_
      rw [Reading.push_headed]
      exact hpush
    | none =>
      -- without a tail the shaft is the token that the routine started at
      have hsame : c₁ = c := by
        cases htail? : c.current.kind.tail? with
        | some shape =>
          rw [acceptEnd_of_some htail?] at htail
          cases htail
        | none =>
          rw [acceptEnd_of_none htail?] at htail
          cases htail
          rfl
      subst hsame
      exact Follows.refused hpush

theorem follows_mark (r : Reading) (s : Signal) (c : Lookahead) :
    Follows (r.going (.headed s)) (fun s => r.going (.marked s)) c (mark s c) := by
  refine Follows.accept (by decide) (fun h => ⟨_, ?_, .done rfl⟩) fun hplus => ?_
  · rw [Reading.push_headed, Reading.pushMark, h]
    rfl
  refine Follows.accept (by decide) (fun h => ⟨_, ?_, .done rfl⟩) fun hminus => ?_
  · rw [Reading.push_headed, Reading.pushMark, h]
    rfl
  refine Follows.congr (.done rfl) ?_
  rw [Reading.push_headed, Reading.push_marked, Reading.pushMark]
  split
  · next h => exact absurd h hplus
  · next h => exact absurd h hminus
  · rfl

theorem follows_target (r : Reading) (s : Signal) (c : Lookahead) :
    Follows (r.going (.marked s)) (fun target => r.going (.targeted { s with target })) c
      (read .identifier c) := by
  refine Follows.read (by decide) (fun h => ?_) (Reading.push_of_ne_required rfl)
  rw [Reading.push_marked, Reading.pushTarget, h]
  rfl

/-- Without a message the signal is finished. -/
theorem follows_message (r : Reading) (s : Signal) (c : Lookahead) :
    Follows (r.going (.targeted s)) (fun s => r.addStatement (.signal s)) c (message s c) := by
  refine Follows.accept (by decide) (fun h => ⟨r.going (.message s), ?_, ?_⟩) fun h => ?_
  · simp [Reading.push, h]
  · refine Follows.map (.read (by decide) (fun htext => ?_) (Reading.push_of_ne_required rfl))
    simp [Reading.push, htext]
  · refine Follows.congr (.done rfl) (Reading.push_of_ne_continuation ?_ ?_)
    · exact congrArg some (Reading.addStatement_going r (.targeted s) (.signal s))
    · exact fun heq => h (Option.some.inj heq).symm

theorem follows_signalFrom (r : Reading) (source : String) (c : Lookahead) :
    Follows (r.going (.source { source, target := "" })) (fun s => r.addStatement (.signal s)) c
      (signalFrom source c) := by
  refine (follows_arrow r source c).bind fun s c₁ _ _ => ?_
  refine (follows_mark r s c₁).bind fun s c₂ _ _ => ?_
  exact (follows_target r s c₂).bind fun target c₃ _ _ => follows_message r _ c₃

end Descent

end SequenceChart
