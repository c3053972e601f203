import SequenceChart.Proofs.Reading.Accepts
import SequenceChart.Proofs.Reading.Moved
import SequenceChart.Proofs.Scanning.Shifted
set_option autoImplicit false

/-!
# Reading behind a document

A document leaves nothing behind but its items: no block is open, and a construct that may still go
on is not gone on with by a token with which a document can start.  So tokens that are read from the
start are read behind a document as well, and add their items to those of that document.
-/

namespace SequenceChart

theorem Token.moves_lower (k : Nat) : Token.Moves (Token.lower k) :=
  ⟨Token.kind_lower k, Token.content_lower k⟩

namespace Reading

variable {items : List Item} {r q : Reading} {t : Token}

/-! ## The border between two documents -/

/-- No document starts with a token that goes on with a construct. -/
theorem not_mem_continuations_of_push (h : ({} : Reading).push t = .ok q) :
    t.kind ∉ continuations := by
  intro hnext
  simp only [continuations, List.mem_cons, List.not_mem_nil, or_false] at hnext
  rcases hnext with hk | hk | hk <;> simp [push, begin_, hk] at h

/-- What is read of a document alone is read behind another document, too. -/
theorem AtTop.reads {done : List Item} (h : r.AtTop done) {ts : List Token}
    (hread : Reads {} ts q) (htop : q.AtTop items) (k : Nat) :
    ∃ r', Reads r (ts.map (Token.lower k)) r' ∧ r'.AtTop (done ++ items) := by
  have hlower := Token.moves_lower k
  cases ts with
  | nil =>
    cases hread
    obtain ⟨q', hq', -, rfl⟩ := htop
    cases hq'
    exact ⟨r, Reads.refl r, (List.append_nil done).symm ▸ h⟩
  | cons t ts =>
    obtain ⟨q₁, hfirst, hrest⟩ := hread.uncons
    obtain ⟨r', hr', hblocks, rfl⟩ := h
    have hnext : t.kind ∉ continuations := not_mem_continuations_of_push hfirst
    -- Between two documents nothing is left but the items, so this is where the second one starts.
    have hstart : ({} : Reading).moved r'.items (Token.lower k) = r' := by
      obtain ⟨done, blocks, progress⟩ := r'
      cases hblocks
      cases progress_of_settled hr'
      simp [Reading.moved, Progress.moved]
    have hpush : r.push (t.lower k) = .ok (q₁.moved r'.items (Token.lower k)) := by
      have hbegin : (({} : Reading).moved r'.items (Token.lower k)).push (t.lower k) = _ :=
        push_moved hlower {} t
      rw [hstart, hfirst] at hbegin
      have hlowered : (t.lower k).kind ∉ continuations := hnext
      rw [push_of_settled (settled?_of_idle (progress_of_settled hr')) hlowered] at hbegin
      rw [push_of_settled hr' hlowered]
      exact hbegin
    obtain ⟨q', hq', hclosed, rfl⟩ := htop
    refine ⟨q.moved r'.items (Token.lower k),
      (Reads.single hpush).append (hrest.moved hlower r'.items),
      q'.moved r'.items (Token.lower k), ?_, hclosed, rfl⟩
    rw [settled?_moved, hq']
    rfl

end Reading

end SequenceChart
