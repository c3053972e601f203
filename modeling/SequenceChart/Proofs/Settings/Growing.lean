import SequenceChart.Proofs.Decimal.Integer
import SequenceChart.Proofs.Geometry.Finished
import SequenceChart.Proofs.Settings.Answered
set_option autoImplicit false

/-!
# Settings that shrink no box

Main statement: settings whose font size is not below zero lengthen every box they grow, and so do
the settings that are used where none are given and those that are read from a file.
-/

namespace SequenceChart

namespace Settings

/-- Settings whose font size is not below zero never grow by a negative amount. -/
theorem growing_of_not_lt {settings : Settings Float} (h : ¬settings.fontSize < 0) :
    settings.Growing := by
  intro s amount hamount
  have hzero : ¬(0 : Float) < 0 := by decide
  refine decide_eq_false ?_
  simp only [Replay.growthsOf, List.mem_cons, List.not_mem_nil, or_false] at hamount
  rcases hamount with rfl | rfl | rfl
  · exact Decimal.not_mul_lt_zero h
  · split
    · exact h
    · exact hzero
  · exact h

/-- All sizes have a property. -/
def All (P : Float → Prop) (s : Settings Float) : Prop :=
  P s.fontSize ∧ P s.boxWidth ∧ P s.boxInset

theorem All.set {P : Float → Prop} {s : Settings Float} (h : s.All P) (which : Size) {x : Float}
    (hx : P x) : (s.set which x).All P := by
  obtain ⟨hfont, hwidth, hinset⟩ := h
  cases which with
  | fontSize => exact ⟨hx, hwidth, hinset⟩
  | boxWidth => exact ⟨hfont, hx, hinset⟩
  | boxInset => exact ⟨hfont, hwidth, hx⟩

section File

variable {P : Float → Prop} (hsize : ∀ which v x, sizeOf which v = .ok x → P x)

include hsize

theorem All.enter {s s' : Settings Float} {e : Yaml.Scalar × Yaml.Value} (h : s.All P)
    (hrun : enter s e = .ok s') : s'.All P := by
  cases hkey : Size.ofKey? e.1 with
  | none =>
    rw [Settings.enter, hkey] at hrun
    cases hrun
    exact h
  | some which =>
    rw [enter_eq hkey] at hrun
    cases hx : sizeOf which e.2 with
    | error why =>
      rw [hx] at hrun
      cases hrun
    | ok x =>
      rw [hx] at hrun
      cases hrun
      exact h.set which (hsize which e.2 x hx)

theorem All.foldlM_enter {s s' : Settings Float} {entries : List (Yaml.Scalar × Yaml.Value)}
    (h : s.All P) (hrun : entries.foldlM Settings.enter s = .ok s') : s'.All P := by
  induction entries generalizing s with
  | nil =>
    cases hrun
    exact h
  | cons e rest ih =>
    rw [List.foldlM_cons] at hrun
    cases hnext : Settings.enter s e with
    | error why =>
      rw [hnext] at hrun
      cases hrun
    | ok next =>
      rw [hnext] at hrun
      exact ih (h.enter hsize hnext) hrun

theorem all_ofDocument {d : Yaml.Document} {s : Settings Float} (hdefault : Settings.default.All P)
    (h : ofDocument d = .ok s) : s.All P := by
  unfold ofDocument at h
  split at h
  · cases h
    exact hdefault
  · cases h
  · next m =>
    cases hnames : unknownNames m.entries with
    | error why =>
      rw [hnames] at h
      cases h
    | ok names =>
      rw [hnames] at h
      have h : (if names.isEmpty then m.entries.foldlM Settings.enter Settings.default else _)
          = _ := h
      split at h
      · exact hdefault.foldlM_enter hsize h
      · cases h

/-- What every size in a file has and every default has, all sizes of the settings have. -/
theorem all_ofFile {file : File} {read : Yaml.Reader} {s : Settings Float}
    (hdefault : Settings.default.All P) (h : ofFile file read = .ok s) : s.All P := by
  unfold ofFile at h
  split at h
  · cases h
  · cases h
  split at h
  · cases h
  split at h
  · cases h
  · cases h
  · exact all_ofDocument hsize hdefault h

end File

theorem not_lt_zero_of_sizeOf {which : Size} {v : Yaml.Value} {x : Float}
    (h : sizeOf which v = .ok x) : ¬x < 0 := by
  unfold sizeOf at h
  split at h
  · next n =>
    split at h
    · cases h
    · next y hy =>
      split at h
      · next hn =>
        cases h
        exact Decimal.not_lt_zero_of_pos (Decimal.isFinitePositive_of_ofInt? hn hy).2
      · cases h
  · split at h
    · cases h
    · split at h
      · next hx =>
        cases h
        exact Decimal.not_lt_zero_of_pos hx
      · cases h
  · cases h

/-- The settings of a chart that is laid out: those that are used where none are given, those that
are read from a file, whatever reader its text is given to, and any whose font size is not below
zero. -/
inductive Usable : Settings Float → Prop where
  | default : Usable Settings.default
  | loaded {file : File} {read : Yaml.Reader} {settings : Settings Float}
    (h : ofFile file read = .ok settings) : Usable settings
  | notNegative {settings : Settings Float} (h : ¬settings.fontSize < 0) : Usable settings

theorem default_not_lt_zero : Settings.default.All fun x => ¬x < 0 := by
  unfold All Settings.default
  decide

theorem Usable.not_lt_zero {settings : Settings Float} (h : settings.Usable) :
    ¬settings.fontSize < 0 := by
  cases h with
  | default => exact default_not_lt_zero.1
  | loaded h =>
    exact (all_ofFile (fun _ _ _ => not_lt_zero_of_sizeOf) default_not_lt_zero h).1
  | notNegative h => exact h

theorem Usable.growing {settings : Settings Float} (h : settings.Usable) : settings.Growing :=
  growing_of_not_lt h.not_lt_zero

end Settings

end SequenceChart
