import SequenceChart.Proofs.Reading.Accepts
set_option autoImplicit false

/-!
# Completing a document

Whatever has been read, some row of tokens after it completes the document: the construct in
progress is finished, and then every open block is ended.  So the tokens that can be read without a
fault are exactly those with which some document starts.
-/

namespace SequenceChart

namespace Progress

/-- Kinds of tokens that finish the construct in progress. -/
def completion : Progress → List TokenKind
  | .idle => []
  | .title => [.text]
  | .participant => [.identifier, .keyword .as_, .identifier]
  | .declared _ => [.keyword .as_, .identifier]
  | .alias _ => [.identifier]
  | .opt => [.text]
  | .branch _ _ => [.keyword .end_]
  | .branchDone _ => [.keyword .end_]
  | .source _ => [.shaft false, .head .closed, .identifier, .colon, .text]
  | .tailed _ => [.shaft false, .head .closed, .identifier, .colon, .text]
  | .shaft _ _ => [.head .closed, .identifier, .colon, .text]
  | .headed _ => [.identifier, .colon, .text]
  | .marked _ => [.identifier, .colon, .text]
  | .targeted _ => [.colon, .text]
  | .message _ => [.text]

theorem ne_endOfInput_of_mem_completion (p : Progress) :
    ∀ kind ∈ p.completion, kind ≠ .endOfInput := by
  cases p <;> simp [completion]

end Progress

namespace Reading

/-- Some token of a kind. -/
def anyOf (kind : TokenKind) : Token := ⟨kind, none, 1, 1⟩

theorem length_blocks_addStatement (r : Reading) (s : Statement) :
    (r.addStatement s).blocks.length = r.blocks.length := by
  obtain ⟨items, blocks, _⟩ := r
  cases blocks <;> rfl

/-- The construct in progress can be finished. -/
theorem exists_finished (r : Reading) :
    ∃ r', Reads r (r.progress.completion.map anyOf) r' ∧ r'.progress = .idle := by
  obtain ⟨items, blocks, progress⟩ := r
  cases progress with
  | idle => exact ⟨_, rfl, rfl⟩
  | title => exact ⟨_, rfl, rfl⟩
  | participant => exact ⟨_, rfl, rfl⟩
  | declared name => exact ⟨_, rfl, rfl⟩
  | «alias» name => exact ⟨_, rfl, rfl⟩
  | opt => exact ⟨_, rfl, rfl⟩
  | branch done label => exact ⟨_, rfl, progress_addStatement _ _⟩
  | branchDone done => exact ⟨_, rfl, progress_addStatement _ _⟩
  | source s => exact ⟨_, rfl, progress_addStatement _ _⟩
  | tailed s => exact ⟨_, rfl, progress_addStatement _ _⟩
  | shaft s at_ => exact ⟨_, rfl, progress_addStatement _ _⟩
  | headed s => exact ⟨_, rfl, progress_addStatement _ _⟩
  | marked s => exact ⟨_, rfl, progress_addStatement _ _⟩
  | targeted s => exact ⟨_, rfl, progress_addStatement _ _⟩
  | message s => exact ⟨_, rfl, progress_addStatement _ _⟩

/-- The open blocks can be ended between two constructs. -/
theorem exists_unblocked {n : Nat} {r : Reading} (h : r.progress = .idle)
    (hn : r.blocks.length = n) :
    ∃ r', Reads r (List.replicate n (anyOf (.keyword .end_))) r' ∧ r'.progress = .idle ∧
      r'.blocks = [] := by
  induction n generalizing r with
  | zero => exact ⟨r, Reads.refl r, h, List.length_eq_zero_iff.1 hn⟩
  | succ n ih =>
    obtain ⟨inner, outer, hblocks⟩ := List.exists_cons_of_length_eq_add_one hn
    let closed :=
      { r with blocks := outer }.addStatement (.block ⟨.opt, inner.condition, inner.body⟩)
    have hpush : r.push (anyOf (.keyword .end_)) = .ok closed := by
      rw [push_of_settled (settled?_of_idle h) (by decide)]
      unfold begin_
      rw [hblocks]
      rfl
    have hlength : closed.blocks.length = n := by
      rw [length_blocks_addStatement]
      rw [hblocks] at hn
      exact Nat.succ_inj.1 hn
    obtain ⟨r', hrest, hdone⟩ := ih (progress_addStatement _ _) hlength
    exact ⟨r', (Reads.single hpush).append hrest, hdone⟩

/-- Whatever has been read, some row of tokens completes the document. -/
theorem exists_completed (r : Reading) :
    ∃ ts r', (∀ t ∈ ts, t.kind ≠ .endOfInput) ∧ Reads r ts r' ∧ r'.progress = .idle ∧
      r'.blocks = [] := by
  obtain ⟨r₁, hfinished, hidle⟩ := exists_finished r
  obtain ⟨r₂, hunblocked, hidle₂, hblocks⟩ := exists_unblocked hidle rfl
  refine ⟨_, r₂, ?_, hfinished.append hunblocked, hidle₂, hblocks⟩
  intro t ht
  rcases List.mem_append.1 ht with ht | ht
  · obtain ⟨kind, hkind, rfl⟩ := List.mem_map.1 ht
    exact Progress.ne_endOfInput_of_mem_completion _ kind hkind
  · rw [List.eq_of_mem_replicate ht]
    nofun

/-! ## Rows of tokens without an end of the input -/

theorem beforeEnd_append {ts : List Token} (h : ∀ t ∈ ts, t.kind ≠ .endOfInput)
    (us : List Token) : beforeEnd (ts ++ us) = ts ++ beforeEnd us :=
  List.takeWhile_append_of_pos fun t ht => decide_eq_true (h t ht)

/-- Tokens up to the end of the input are read one after the other, and what follows it is not. -/
theorem run_append_end {ts : List Token} (h : ∀ t ∈ ts, t.kind ≠ .endOfInput) {last : Token}
    (hlast : last.kind = .endOfInput) (rest : List Token) (r : Reading) (line column : Int) :
    r.run line column (ts ++ last :: rest) = (r.pushAll ts).bind fun q => q.push last := by
  induction ts generalizing r line column with
  | nil =>
    rw [List.nil_append, run, if_pos hlast]
    rfl
  | cons t ts ih =>
    obtain ⟨ht, hts⟩ := List.forall_mem_cons.1 h
    rw [List.cons_append, run, if_neg ht, pushAll_cons]
    cases r.push t with
    | error why => rfl
    | ok q => exact ih hts q t.line t.column

end Reading

namespace Chart

/-- The chart of tokens up to the end of the input. -/
theorem ofTokens_append_end {ts : List Token} (h : ∀ t ∈ ts, t.kind ≠ .endOfInput) {last : Token}
    (hlast : last.kind = .endOfInput) (rest : List Token) :
    ofTokens (ts ++ last :: rest)
      = (({} : Reading).pushAll ts).bind fun q => (q.push last).map fun r => ofItems r.items := by
  rw [ofTokens, Reading.run_append_end h hlast]
  cases ({} : Reading).pushAll ts <;> rfl

/-- Tokens are read without a fault exactly if some document starts with them. -/
theorem exists_ofTokens_append_iff {ts : List Token} (h : ∀ t ∈ ts, t.kind ≠ .endOfInput) :
    (∃ rest c, ofTokens (ts ++ rest) = .ok c) ↔ ∃ r, ({} : Reading).pushAll ts = .ok r := by
  constructor
  · rintro ⟨rest, c, hc⟩
    obtain ⟨last, -, hrun⟩ := Reading.run_eq_pushAll (ts ++ rest) {} 1 1
    rw [Reading.beforeEnd_append h, Reading.pushAll_append] at hrun
    cases hread : ({} : Reading).pushAll ts with
    | ok r => exact ⟨r, rfl⟩
    | error why =>
      rw [ofTokens, hrun, hread] at hc
      cases hc
  · rintro ⟨r, hr⟩
    obtain ⟨us, r', hus, hread, hidle, hblocks⟩ := Reading.exists_completed r
    have hall : ∀ t ∈ ts ++ us, t.kind ≠ .endOfInput :=
      List.forall_mem_append.2 ⟨h, hus⟩
    have hend : r'.push (Reading.anyOf .endOfInput) = .ok { r' with progress := .idle } := by
      rw [Reading.push_of_settled (Reading.settled?_of_idle hidle) (by decide)]
      unfold Reading.begin_
      rw [hblocks]
      rfl
    refine ⟨us ++ [Reading.anyOf .endOfInput], ofItems r'.items, ?_⟩
    rw [← List.append_assoc, ofTokens_append_end hall rfl, Reading.pushAll_append, hr]
    show (r.pushAll us).bind _ = _
    rw [show r.pushAll us = .ok r' from hread]
    show (r'.push _).map _ = _
    rw [hend]
    rfl

end Chart

end SequenceChart
