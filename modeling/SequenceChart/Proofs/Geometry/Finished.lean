import SequenceChart.Proofs.Geometry.Simulation
set_option autoImplicit false

/-!
# Layouts that are finished

A step halts only where it would lengthen a box by a negative amount.  As long as no growth of a
signal is negative, every signal can be placed, and the layout is the replay of the signals.
-/

namespace SequenceChart

open Layout Replay

/-- A run goes through if its first step does and the rest does from wherever that leads. -/
theorem Halted.exists_bind {ε σ : Type} {x : Except (Halted ε σ) σ}
    {f : σ → Except (Halted ε σ) σ} (hx : ∃ a, x = .ok a) (hf : ∀ a, ∃ b, f a = .ok b) :
    ∃ b, x >>= f = .ok b := by
  obtain ⟨a, rfl⟩ := hx
  exact hf a

variable {α : Type} [Measure α]

/-- No growth of any signal is negative. -/
def Settings.Growing (settings : Settings α) : Prop :=
  ∀ s, ∀ amount ∈ growthsOf settings s, Measure.isNegative amount = false

section Steps

variable {amount : α} (h : Measure.isNegative amount = false)

include h

theorem exists_growBoxes (places : List Nat) (boxes : List (Box α)) :
    ∃ boxes', Lifeline.growBoxes amount places boxes = .ok boxes' := by
  induction places generalizing boxes with
  | nil => exact ⟨boxes, rfl⟩
  | cons place places ih =>
    rw [Lifeline.growBoxes]
    cases boxes[place]? with
    | none => exact ih boxes
    | some box =>
      have hbox : box.grow amount = .ok (box.grown amount) := by
        rw [Box.grow, h]
        rfl
      simp only [hbox]
      exact ih _

theorem exists_growLifeline (line : Lifeline α) : ∃ line', line.grow amount = .ok line' := by
  obtain ⟨boxes, hboxes⟩ := exists_growBoxes h line.openBoxes line.boxes
  exact ⟨{ line with boxes }, by rw [Lifeline.grow, hboxes]⟩

theorem exists_growLifelines (lines : List (Lifeline α)) :
    ∃ lines', growLifelines amount lines = .ok lines' := by
  induction lines with
  | nil => exact ⟨[], rfl⟩
  | cons line rest ih =>
    obtain ⟨line', hline⟩ := exists_growLifeline h line
    obtain ⟨rest', hrest⟩ := ih
    exact ⟨line' :: rest', by rw [growLifelines, hline, hrest]⟩

theorem exists_grow (l : Layout α) : ∃ l', l.grow amount = .ok l' := by
  unfold Layout.grow
  cases Measure.isZero amount with
  | true => exact ⟨l, rfl⟩
  | false =>
    obtain ⟨lines, hlines⟩ := exists_growLifelines h l.lifelines
    rw [hlines]
    exact ⟨_, rfl⟩

end Steps

section Run

variable {settings : Settings α} (h : settings.Growing) (resolve : String → String)

include h

theorem exists_place (l : Layout α) (s : Signal) : ∃ l', place settings resolve l s = .ok l' := by
  have htop : Measure.isNegative settings.topMargin = false := h s _ (by simp [growthsOf])
  have hloop : Measure.isNegative (loop settings s) = false := h s _ (by simp [growthsOf, loop])
  have hbottom : Measure.isNegative settings.bottomMargin = false := h s _ (by simp [growthsOf])
  rw [place_eq]
  exact Halted.exists_bind (exists_grow htop _) fun l₁ =>
    Halted.exists_bind (exists_grow hloop _) fun l₂ =>
    Halted.exists_bind (exists_grow hbottom _) fun l₃ => ⟨_, rfl⟩

theorem exists_run (signals : List Signal) (l : Layout α) :
    ∃ l', signals.foldlM (place settings resolve) l = .ok l' := by
  induction signals generalizing l with
  | nil => exact ⟨l, rfl⟩
  | cons s rest ih =>
    rw [List.foldlM_cons]
    exact Halted.exists_bind (exists_place h resolve l s) ih

/-- Signals are placed as they are replayed. -/
theorem run_eq_replay (signals : List Signal) :
    signals.foldlM (place settings resolve) Layout.empty
      = .ok (Replay.layout settings resolve signals) := by
  obtain ⟨l, hrun⟩ := exists_run h resolve signals Layout.empty
  rw [hrun, ((Replays.empty settings resolve).foldlM hrun).eq_layout]
  rfl

end Run

end SequenceChart
