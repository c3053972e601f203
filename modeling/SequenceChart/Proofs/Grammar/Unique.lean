import SequenceChart.Proofs.Grammar.Phrase
set_option autoImplicit false

/-!
# The grammar is unambiguous

Equal rows of leaves are the leaves of equal trees.  The statement that carries the induction has
arbitrary rows behind the two trees, which must not start with a token that could go on with a tree:
then the trees are equal and so is what stands behind them.
-/

namespace SequenceChart

/-- The row does not start with a token of these kinds. -/
def NoneNext (kinds : List TokenKind) (ts : List Token) : Prop := ∀ t ∈ ts.head?, t.kind ∉ kinds

/-- The row starts with a token of one of these kinds. -/
def SomeNext (kinds : List TokenKind) (ts : List Token) : Prop := ∃ t ∈ ts.head?, t.kind ∈ kinds

/-- Where the leaves of this tree start a row, only this tree does, provided that what follows the
tree does not start with a token that could go on with it. -/
def DecidedAt {α : Type} (tokens : α → List Token) (goesOn : List TokenKind) (a : α) : Prop :=
  ∀ (b : α) (r s : List Token), NoneNext goesOn r → NoneNext goesOn s →
    tokens a ++ r = tokens b ++ s → a = b ∧ r = s

theorem noneNext_cons {kinds : List TokenKind} {t : Token} {ts : List Token} :
    NoneNext kinds (t :: ts) ↔ t.kind ∉ kinds := by
  simp [NoneNext]

theorem noneNext_nil (kinds : List TokenKind) : NoneNext kinds [] := by
  simp [NoneNext]

theorem NoneNext.mono {small large : List TokenKind} {ts : List Token} (h : NoneNext large ts)
    (hsub : small ⊆ large) : NoneNext small ts :=
  fun t ht hk => h t ht (hsub hk)

theorem SomeNext.append {kinds : List TokenKind} {ts : List Token} (h : SomeNext kinds ts)
    (rest : List Token) : SomeNext kinds (ts ++ rest) := by
  obtain ⟨t, ht, hk⟩ := h
  cases ts with
  | nil => simp at ht
  | cons u us => exact ⟨t, by simpa using ht, hk⟩

theorem SomeNext.noneNext {first kinds : List TokenKind} {ts : List Token}
    (h : SomeNext first ts) (hdisjoint : ∀ k ∈ first, k ∉ kinds) : NoneNext kinds ts := by
  obtain ⟨t, ht, hk⟩ := h
  intro u hu
  have : u = t := Option.some.inj (hu.symm.trans ht)
  exact this ▸ hdisjoint t.kind hk

/-- A row that starts with such a token is none that does not. -/
theorem SomeNext.append_ne {kinds : List TokenKind} {ts r s : List Token}
    (h : SomeNext kinds ts) (hs : NoneNext kinds s) : ts ++ r ≠ s := by
  rintro rfl
  obtain ⟨t, ht, hk⟩ := h.append r
  exact hs t ht hk

theorem SomeNext.mono {small large : List TokenKind} {ts : List Token} (h : SomeNext small ts)
    (hsub : small ⊆ large) : SomeNext large ts := by
  obtain ⟨t, ht, hk⟩ := h
  exact ⟨t, ht, hsub hk⟩

/-! ## Leaves -/

theorem Leaf.eq_of_token_eq {ι : Type} {kind : ι → TokenKind}
    (hkind : Function.Injective kind) {a b : Leaf kind} (h : a.token = b.token) : a = b := by
  obtain ⟨i, t, hi⟩ := a
  obtain ⟨j, u, hj⟩ := b
  subst h
  have : i = j := hkind (hi.symm.trans hj)
  subst this
  rfl

/-- A leaf is decided whatever follows. -/
theorem Leaf.append_inj {ι : Type} {kind : ι → TokenKind} (hkind : Function.Injective kind)
    {a b : Leaf kind} {r s : List Token} (h : a.tokens ++ r = b.tokens ++ s) : a = b ∧ r = s := by
  simp only [Leaf.tokens, List.singleton_append, List.cons.injEq] at h
  exact ⟨Leaf.eq_of_token_eq hkind h.1, h.2⟩

/-- Two leaves of different kinds start different rows. -/
theorem Leaf.append_ne {ι κ : Type} {kind : ι → TokenKind} {kind' : κ → TokenKind}
    {a : Leaf kind} {b : Leaf kind'} {r s : List Token} (h : kind a.choice ≠ kind' b.choice) :
    a.tokens ++ r ≠ b.tokens ++ s := by
  intro heq
  simp only [Leaf.tokens, List.singleton_append, List.cons.injEq] at heq
  exact h (by rw [← a.kind_eq, ← b.kind_eq, heq.1])

theorem Leaf.someNext {ι : Type} {kind : ι → TokenKind} {kinds : List TokenKind} (l : Leaf kind)
    (h : kind l.choice ∈ kinds) : SomeNext kinds l.tokens :=
  ⟨l.token, rfl, by rwa [l.kind_eq]⟩

theorem Leaf.noneNext {ι : Type} {kind : ι → TokenKind} {kinds : List TokenKind} (l : Leaf kind)
    (rest : List Token) (h : kind l.choice ∉ kinds) : NoneNext kinds (l.tokens ++ rest) := by
  rw [Leaf.tokens, List.singleton_append, noneNext_cons, l.kind_eq]
  exact h

theorem terminal_injective (kind : TokenKind) : Function.Injective fun _ : Unit => kind :=
  fun _ _ _ => rfl

theorem tail_injective : Function.Injective TokenKind.tail := fun _ _ h => TokenKind.tail.inj h

theorem shaft_injective : Function.Injective TokenKind.shaft := fun _ _ h => TokenKind.shaft.inj h

theorem head_injective : Function.Injective TokenKind.head := fun _ _ h => TokenKind.head.inj h

theorem markKind_injective : Function.Injective markKind := by
  intro a b h
  cases a <;> cases b <;> simp_all [markKind]

/-! ## Optional and repeated parts -/

/-- An optional part is decided if its first token tells whether it is there. -/
theorem decidedAt_optionally {α : Type} {tokens : α → List Token} {kinds : List TokenKind}
    {o : Option α} (hfirst : ∀ a, SomeNext kinds (tokens a))
    (hpart : ∀ a ∈ o, DecidedAt tokens kinds a) : DecidedAt (optionally tokens) kinds o := by
  intro o' r s hr hs h
  cases o with
  | none =>
    cases o' with
    | none => exact ⟨rfl, h⟩
    | some b => exact absurd h.symm ((hfirst b).append_ne hr)
  | some a =>
    cases o' with
    | none => exact absurd h ((hfirst a).append_ne hs)
    | some b =>
      obtain ⟨rfl, hrest⟩ := hpart a rfl b r s hr hs h
      exact ⟨rfl, hrest⟩

/-- A leaf that may be absent is decided by the next token. -/
theorem decidedAt_optional_leaf {ι : Type} {kind : ι → TokenKind} {kinds : List TokenKind}
    (hkind : Function.Injective kind) (hkinds : ∀ i, kind i ∈ kinds) (o : Option (Leaf kind)) :
    DecidedAt (optionally Leaf.tokens) kinds o :=
  decidedAt_optionally (fun l => l.someNext (hkinds l.choice))
    (fun _ _ _ _ _ _ _ h => Leaf.append_inj hkind h)

theorem noneNext_optional_leaf {ι : Type} {kind : ι → TokenKind} {kinds : List TokenKind}
    (hkinds : ∀ i, kind i ∉ kinds) (o : Option (Leaf kind)) {rest : List Token}
    (h : NoneNext kinds rest) : NoneNext kinds (optionally Leaf.tokens o ++ rest) := by
  cases o with
  | none => exact h
  | some l => exact l.noneNext rest (hkinds l.choice)

theorem noneNext_flatMap {α : Type} {tokens : α → List Token} {first kinds : List TokenKind}
    {as : List α} {rest : List Token} (hfirst : ∀ a, SomeNext first (tokens a))
    (hdisjoint : ∀ k ∈ first, k ∉ kinds) (hrest : NoneNext kinds rest) :
    NoneNext kinds (as.flatMap tokens ++ rest) := by
  cases as with
  | nil => exact hrest
  | cons a as =>
    rw [List.flatMap_cons, List.append_assoc]
    exact ((hfirst a).append _).noneNext hdisjoint

/-- A repeated part is decided if its first token tells whether another one is there, and does not
go on with the one before. -/
theorem decidedAt_flatMap {α : Type} {tokens : α → List Token} {first goesOn : List TokenKind}
    {as : List α} (hfirst : ∀ a, SomeNext first (tokens a)) (hdisjoint : ∀ k ∈ first, k ∉ goesOn)
    (hparts : ∀ a ∈ as, DecidedAt tokens goesOn a) :
    DecidedAt (List.flatMap tokens) (first ++ goesOn) as := by
  have hstart (a : α) : SomeNext (first ++ goesOn) (tokens a) :=
    (hfirst a).mono (List.subset_append_left _ _)
  have hnext (as : List α) (r : List Token) (hr : NoneNext (first ++ goesOn) r) :
      NoneNext goesOn (as.flatMap tokens ++ r) :=
    noneNext_flatMap hfirst hdisjoint (hr.mono (List.subset_append_right _ _))
  induction as with
  | nil =>
    intro bs r s hr hs h
    cases bs with
    | nil => exact ⟨rfl, h⟩
    | cons b bs =>
      rw [List.flatMap_cons, List.append_assoc] at h
      exact absurd h.symm ((hstart b).append_ne hr)
  | cons a as ih =>
    intro bs r s hr hs h
    cases bs with
    | nil =>
      rw [List.flatMap_cons, List.append_assoc] at h
      exact absurd h ((hstart a).append_ne hs)
    | cons b bs =>
      rw [List.flatMap_cons, List.flatMap_cons, List.append_assoc, List.append_assoc] at h
      obtain ⟨rfl, htail⟩ := hparts a (by simp) b _ _ (hnext as r hr) (hnext bs s hs) h
      obtain ⟨rfl, hrest⟩ := ih (fun c hc => hparts c (by simp [hc])) bs r s hr hs htail
      exact ⟨rfl, hrest⟩

/-! ## Messages, aliases and branches -/

theorem decidedAt_message (o : Option MessagePhrase) :
    DecidedAt (optionally MessagePhrase.tokens) [.colon] o := by
  refine decidedAt_optionally (fun p => (p.colon.someNext (by simp)).append _) ?_
  intro p _ q r s _ _ h
  rw [MessagePhrase.tokens, MessagePhrase.tokens, List.append_assoc, List.append_assoc] at h
  obtain ⟨hcolon, hafter⟩ := Leaf.append_inj (terminal_injective _) h
  obtain ⟨htext, hrest⟩ := Leaf.append_inj (terminal_injective _) hafter
  exact ⟨MessagePhrase.ext hcolon htext, hrest⟩

theorem decidedAt_alias (o : Option AliasPhrase) :
    DecidedAt (optionally AliasPhrase.tokens) [.keyword .as_] o := by
  refine decidedAt_optionally (fun p => (p.word.someNext (by simp)).append _) ?_
  intro p _ q r s _ _ h
  rw [AliasPhrase.tokens, AliasPhrase.tokens, List.append_assoc, List.append_assoc] at h
  obtain ⟨hword, hafter⟩ := Leaf.append_inj (terminal_injective _) h
  obtain ⟨hname, hrest⟩ := Leaf.append_inj (terminal_injective _) hafter
  exact ⟨AliasPhrase.ext hword hname, hrest⟩

theorem ElsePhrase.someNext (p : ElsePhrase) : SomeNext [.keyword .else_] p.tokens :=
  (p.word.someNext (by simp)).append _

theorem ElsePhrase.decidedAt (p : ElsePhrase) : DecidedAt ElsePhrase.tokens [.text] p := by
  intro q r s hr hs h
  rw [ElsePhrase.tokens, ElsePhrase.tokens, List.append_assoc, List.append_assoc] at h
  obtain ⟨hword, hafter⟩ := Leaf.append_inj (terminal_injective _) h
  obtain ⟨hcondition, hrest⟩ :=
    decidedAt_optional_leaf (terminal_injective _) (by simp) p.condition _ r s hr hs hafter
  exact ⟨ElsePhrase.ext hword hcondition, hrest⟩

/-! ## Statements -/

/-- The kinds that start a statement. -/
def statementStarts : List TokenKind := [.keyword .opt, .keyword .alt, .identifier]

/-- The parts of a signal are decided one after the other: no optional part starts with a kind that
a later part starts with. -/
theorem SignalPhrase.decidedAt (p : SignalPhrase) : DecidedAt SignalPhrase.tokens [.colon] p := by
  intro q r s hr hs h
  simp only [SignalPhrase.tokens, List.append_assoc] at h
  have noTail (l : Leaf TokenKind.shaft) (rest : List Token) :
      NoneNext [.tail .closed, .tail .open_] (l.tokens ++ rest) := l.noneNext rest (by simp)
  have noMark (l : Terminal .identifier) (rest : List Token) :
      NoneNext [.activateMark, .deactivateMark] (l.tokens ++ rest) := l.noneNext rest (by simp)
  have noHead (m : Option (Leaf markKind)) (l : Terminal .identifier) (rest : List Token) :
      NoneNext [.head .closed, .head .open_] (optionally Leaf.tokens m ++ (l.tokens ++ rest)) :=
    noneNext_optional_leaf (fun i => by cases i <;> simp [markKind]) m (l.noneNext rest (by simp))
  obtain ⟨hsource, h₁⟩ := Leaf.append_inj (terminal_injective _) h
  obtain ⟨htail, h₂⟩ := decidedAt_optional_leaf tail_injective (fun i => by cases i <;> simp)
    p.tail _ _ _ (noTail p.shaft _) (noTail q.shaft _) h₁
  obtain ⟨hshaft, h₃⟩ := Leaf.append_inj shaft_injective h₂
  obtain ⟨hhead, h₄⟩ := decidedAt_optional_leaf head_injective (fun i => by cases i <;> simp)
    p.head _ _ _ (noHead p.mark p.target _) (noHead q.mark q.target _) h₃
  obtain ⟨hmark, h₅⟩ := decidedAt_optional_leaf markKind_injective
    (fun i => by cases i <;> simp [markKind]) p.mark _ _ _ (noMark p.target _) (noMark q.target _)
    h₄
  obtain ⟨htarget, h₆⟩ := Leaf.append_inj (terminal_injective _) h₅
  obtain ⟨hmessage, hrest⟩ := decidedAt_message p.message _ r s hr hs h₆
  exact ⟨SignalPhrase.ext hsource htail hshaft hhead hmark htarget hmessage, hrest⟩

theorem StatementPhrase.someNext (p : StatementPhrase) : SomeNext statementStarts p.tokens := by
  cases p with
  | opt word => exact (word.someNext (by simp [statementStarts])).append _
  | alt word => exact (word.someNext (by simp [statementStarts])).append _
  | signal p => exact (p.source.someNext (by simp [statementStarts])).append _

theorem StatementPhrase.allTokens_eq_flatMap (ps : List StatementPhrase) :
    StatementPhrase.allTokens ps = ps.flatMap StatementPhrase.tokens := by
  induction ps with
  | nil => rw [allTokens, List.flatMap_nil]
  | cons p ps ih => rw [allTokens, List.flatMap_cons, ih]

mutual

/-- A statement is decided: the start tells which one it is, and the body of an `opt` block ends
where an `end` stands. -/
theorem StatementPhrase.decidedAt :
    ∀ p : StatementPhrase, DecidedAt StatementPhrase.tokens [.colon] p
  | .opt word condition body stop => by
    intro q r s _ _ h
    cases q with
    | opt word' condition' body' stop' =>
      simp only [tokens, allTokens_eq_flatMap, List.append_assoc] at h
      have noText (ps : List StatementPhrase) (l : Terminal (.keyword .end_))
          (rest : List Token) :
          NoneNext [.text] (ps.flatMap StatementPhrase.tokens ++ (l.tokens ++ rest)) :=
        noneNext_flatMap StatementPhrase.someNext (by decide) (l.noneNext rest (by simp))
      have noMore (l : Terminal (.keyword .end_)) (rest : List Token) :
          NoneNext (statementStarts ++ [.colon]) (l.tokens ++ rest) :=
        l.noneNext rest (by simp [statementStarts])
      obtain ⟨hword, h₁⟩ := Leaf.append_inj (terminal_injective _) h
      obtain ⟨hcondition, h₂⟩ := decidedAt_optional_leaf (terminal_injective _) (by simp)
        condition _ _ _ (noText body stop r) (noText body' stop' s) h₁
      obtain ⟨hbody, h₃⟩ := decidedAt_flatMap StatementPhrase.someNext (by decide)
        (StatementPhrase.decidedAt_all body) body' _ _ (noMore stop r) (noMore stop' s) h₂
      obtain ⟨hstop, hrest⟩ := Leaf.append_inj (terminal_injective _) h₃
      exact ⟨by rw [hword, hcondition, hbody, hstop], hrest⟩
    | alt word' =>
      simp only [tokens, List.append_assoc] at h
      exact absurd h (Leaf.append_ne (by simp))
    | signal q =>
      simp only [tokens, SignalPhrase.tokens, List.append_assoc] at h
      exact absurd h (Leaf.append_ne (by simp))
  | .alt word condition more stop => by
    intro q r s _ _ h
    cases q with
    | opt word' =>
      simp only [tokens, List.append_assoc] at h
      exact absurd h (Leaf.append_ne (by simp))
    | alt word' condition' more' stop' =>
      simp only [tokens, List.append_assoc] at h
      have noText (ps : List ElsePhrase) (l : Terminal (.keyword .end_)) (rest : List Token) :
          NoneNext [.text] (ps.flatMap ElsePhrase.tokens ++ (l.tokens ++ rest)) :=
        noneNext_flatMap ElsePhrase.someNext (by decide) (l.noneNext rest (by simp))
      have noMore (l : Terminal (.keyword .end_)) (rest : List Token) :
          NoneNext ([.keyword .else_] ++ [.text]) (l.tokens ++ rest) :=
        l.noneNext rest (by simp)
      obtain ⟨hword, h₁⟩ := Leaf.append_inj (terminal_injective _) h
      obtain ⟨hcondition, h₂⟩ := decidedAt_optional_leaf (terminal_injective _) (by simp)
        condition _ _ _ (noText more stop r) (noText more' stop' s) h₁
      obtain ⟨hmore, h₃⟩ := decidedAt_flatMap ElsePhrase.someNext (by decide)
        (fun p _ => p.decidedAt) more' _ _ (noMore stop r) (noMore stop' s) h₂
      obtain ⟨hstop, hrest⟩ := Leaf.append_inj (terminal_injective _) h₃
      exact ⟨by rw [hword, hcondition, hmore, hstop], hrest⟩
    | signal q =>
      simp only [tokens, SignalPhrase.tokens, List.append_assoc] at h
      exact absurd h (Leaf.append_ne (by simp))
  | .signal p => by
    intro q r s hr hs h
    cases q with
    | opt word' =>
      simp only [tokens, SignalPhrase.tokens, List.append_assoc] at h
      exact absurd h (Leaf.append_ne (by simp))
    | alt word' =>
      simp only [tokens, SignalPhrase.tokens, List.append_assoc] at h
      exact absurd h (Leaf.append_ne (by simp))
    | signal q =>
      simp only [tokens] at h
      obtain ⟨rfl, hrest⟩ := p.decidedAt q r s hr hs h
      exact ⟨rfl, hrest⟩

theorem StatementPhrase.decidedAt_all :
    ∀ ps : List StatementPhrase, ∀ p ∈ ps, DecidedAt StatementPhrase.tokens [.colon] p
  | [] => by simp
  | p :: ps => List.forall_mem_cons.2 ⟨p.decidedAt, StatementPhrase.decidedAt_all ps⟩

end

/-! ## Documents -/

/-- The kinds that start a top-level construct. -/
def phraseStarts : List TokenKind := [.keyword .title, .keyword .participant] ++ statementStarts

theorem Phrase.someNext (p : Phrase) : SomeNext phraseStarts p.tokens := by
  cases p with
  | title word => exact (word.someNext (by simp [phraseStarts])).append _
  | participant word => exact (word.someNext (by simp [phraseStarts])).append _
  | statement p => exact p.someNext.mono (List.subset_append_right _ _)

/-- The kinds that may go on with a finished construct. -/
def phraseEnds : List TokenKind := [.keyword .as_, .colon]

theorem Phrase.decidedAt (p : Phrase) : DecidedAt Phrase.tokens phraseEnds p := by
  intro q r s hr hs h
  have differ {ι : Type} {kind : ι → TokenKind} (l : Leaf kind) (rest tail : List Token)
      (p : StatementPhrase) (hl : kind l.choice ∉ statementStarts) :
      l.tokens ++ rest ≠ p.tokens ++ tail :=
    (p.someNext.append_ne (l.noneNext rest hl)).symm
  cases p with
  | title word text =>
    cases q with
    | title word' text' =>
      simp only [tokens, List.append_assoc] at h
      obtain ⟨hword, h₁⟩ := Leaf.append_inj (terminal_injective _) h
      obtain ⟨htext, hrest⟩ := Leaf.append_inj (terminal_injective _) h₁
      exact ⟨by rw [hword, htext], hrest⟩
    | participant word' =>
      simp only [tokens, List.append_assoc] at h
      exact absurd h (Leaf.append_ne (by simp))
    | statement q =>
      simp only [tokens, List.append_assoc] at h
      exact absurd h (differ word _ _ q (by simp [statementStarts]))
  | participant word name alias? =>
    cases q with
    | title word' =>
      simp only [tokens, List.append_assoc] at h
      exact absurd h (Leaf.append_ne (by simp))
    | participant word' name' alias' =>
      simp only [tokens, List.append_assoc] at h
      obtain ⟨hword, h₁⟩ := Leaf.append_inj (terminal_injective _) h
      obtain ⟨hname, h₂⟩ := Leaf.append_inj (terminal_injective _) h₁
      obtain ⟨halias, hrest⟩ := decidedAt_alias alias? _ r s (hr.mono (by simp [phraseEnds]))
        (hs.mono (by simp [phraseEnds])) h₂
      exact ⟨by rw [hword, hname, halias], hrest⟩
    | statement q =>
      simp only [tokens, List.append_assoc] at h
      exact absurd h (differ word _ _ q (by simp [statementStarts]))
  | statement p =>
    cases q with
    | title word' =>
      simp only [tokens, List.append_assoc] at h
      exact absurd h.symm (differ word' _ _ p (by simp [statementStarts]))
    | participant word' =>
      simp only [tokens, List.append_assoc] at h
      exact absurd h.symm (differ word' _ _ p (by simp [statementStarts]))
    | statement q =>
      simp only [tokens] at h
      obtain ⟨rfl, hrest⟩ := p.decidedAt q r s (hr.mono (by simp [phraseEnds]))
        (hs.mono (by simp [phraseEnds])) h
      exact ⟨rfl, hrest⟩

/-- The leaves of a document determine it. -/
theorem flatMap_tokens_injective : Function.Injective (List.flatMap Phrase.tokens) := by
  intro ps qs h
  have hdecided : DecidedAt (List.flatMap Phrase.tokens) (phraseStarts ++ phraseEnds) ps :=
    decidedAt_flatMap Phrase.someNext (by decide) (fun p _ => p.decidedAt)
  exact (hdecided qs [] [] (noneNext_nil _) (noneNext_nil _) (by rw [h])).1

end SequenceChart
