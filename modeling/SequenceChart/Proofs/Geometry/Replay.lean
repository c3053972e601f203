import SequenceChart.Chart.Audit
import SequenceChart.Proofs.Geometry.Names
set_option autoImplicit false

/-!
# Replaying a layout lifeline by lifeline

A replay computes each part of a layout on its own.  The cursor is a sum of growths, numbered in
the order of the signals, three to a signal.  A lifeline is a stack machine that sees only the
signals that touch it and remembers the numbers at which its boxes were opened and closed; the
height of a box is the sum of the growths between the two.  Sums go from left to right, so nothing
is asked of the addition.
-/

namespace SequenceChart

/-- A box in growths: how many came before it was opened and before it was closed, and how many
boxes were open around it. -/
structure Span where
  opened : Nat
  closed : Option Nat
  depth : Nat
  deriving DecidableEq, Repr, Inhabited

/-- The boxes of one lifeline and the places of the open ones, the innermost first. -/
@[ext]
structure Track where
  spans : List Span := []
  openStack : List Nat := []
  deriving DecidableEq, Repr, Inhabited

namespace Track

/-- Closes the innermost open box, if one is open. -/
def pop (t : Track) (now : Nat) : Track :=
  match t.openStack with
  | [] => t
  | i :: rest => ⟨t.spans.modify i fun span => { span with closed := some now }, rest⟩

/-- Opens a box inside the open ones. -/
def push (t : Track) (now : Nat) : Track :=
  ⟨t.spans ++ [⟨now, none, t.openStack.length⟩], t.spans.length :: t.openStack⟩

/-- The part of the `k`-th signal, counted from 0, in the track of a lifeline: its source may close
a box after the first of its growths, its target may open one after the second. -/
def step (resolve : String → String) (name : String) (t : Track) (event : Signal × Nat) : Track :=
  let (s, k) := event
  let t := if s.deactivates && resolve s.source = name then t.pop (3 * k + 1) else t
  if s.activates && resolve s.target = name then t.push (3 * k + 2) else t

end Track

namespace Replay

/-- A signal touches the lifelines that its ends stand for. -/
def touches (resolve : String → String) (name : String) (s : Signal) : Bool :=
  resolve s.source = name || resolve s.target = name

/-- The track of a lifeline: only the signals that touch it count. -/
def track (resolve : String → String) (signals : List Signal) (name : String) : Track :=
  (signals.zipIdx.filter fun event => touches resolve name event.1).foldl
    (Track.step resolve name) {}

/-- The names that the ends of the signals stand for, in the order of their first signal. -/
def names (resolve : String → String) (signals : List Signal) : List String :=
  Audit.firstOccurrences (signals.flatMap fun s => [resolve s.source, resolve s.target])

variable {α : Type} [Measure α]

/-- The growths of one signal. -/
def growthsOf (settings : Settings α) (s : Signal) : List α :=
  [settings.topMargin, if s.isSelfSignal then settings.loopHeight else Measure.zero,
    settings.bottomMargin]

/-- The growths of the signals in order. -/
def growths (settings : Settings α) (signals : List Signal) : List α :=
  signals.flatMap (growthsOf settings)

/-- The sum of growths from left to right, without those that are no growth at all. -/
def total (amounts : List α) : α :=
  (amounts.filter fun a => !Measure.isZero a).foldl Measure.add Measure.zero

/-- The box of a span: it starts at the cursor and is as high as the growths that it spans. -/
def box (settings : Settings α) (amounts : List α) (span : Span) : Box α where
  start := total (amounts.take span.opened)
  width := settings.boxWidth
  height := total ((amounts.take (span.closed.getD amounts.length)).drop span.opened)
  inset := Measure.times span.depth settings.boxInset

/-- The lifeline of a track. -/
def lifeline (settings : Settings α) (amounts : List α) (t : Track) (name : String) :
    Lifeline α :=
  ⟨name, t.spans.map (box settings amounts), t.openStack⟩

/-- The arrow of the `k`-th signal: it starts at the innermost box that is open at its source before
the signal, and ends at the innermost one that is open at its target after it. -/
def arrow (settings : Settings α) (resolve : String → String) (signals : List Signal)
    (event : Signal × Nat) : Arrow α :=
  let (s, k) := event
  let source := resolve s.source
  let target := resolve s.target
  { start :=
      { lifeline := (names resolve signals).idxOf source
        box := (track resolve (signals.take k) source).openStack.head?
        y := total ((growths settings signals).take (3 * k + 1)) }
    finish :=
      { lifeline := (names resolve signals).idxOf target
        box := (track resolve (signals.take (k + 1)) target).openStack.head?
        y := total ((growths settings signals).take (3 * k + 2)) }
    label := s.message
    dotted := s.dotted }

/-- The layout of signals, each part on its own. -/
def layout (settings : Settings α) (resolve : String → String) (signals : List Signal) :
    Layout α where
  lifelines := (names resolve signals).map fun name =>
    lifeline settings (growths settings signals) (track resolve signals name) name
  arrows := signals.zipIdx.map (arrow settings resolve signals)
  height := total (growths settings signals)

theorem length_arrows (settings : Settings α) (resolve : String → String) (signals : List Signal) :
    (layout settings resolve signals).arrows.length = signals.length := by
  rw [layout, List.length_map, List.length_zipIdx]

/-- The arrows are those of the signals, one by one. -/
theorem getElem?_arrows (settings : Settings α) (resolve : String → String) (signals : List Signal)
    (k : Nat) : (layout settings resolve signals).arrows[k]?
      = signals[k]?.map fun s => arrow settings resolve signals (s, k) := by
  simp only [layout, List.getElem?_map, List.getElem?_zipIdx, Option.map_map, Nat.zero_add]
  rfl

/-! ## One more signal -/

theorem step_of_not_touches {resolve : String → String} {name : String} {s : Signal}
    (h : touches resolve name s = false) (t : Track) (k : Nat) :
    t.step resolve name (s, k) = t := by
  simp only [touches, Bool.or_eq_false_iff, decide_eq_false_iff_not] at h
  simp [Track.step, h.1, h.2]

theorem track_concat (resolve : String → String) (signals : List Signal) (s : Signal)
    (name : String) :
    track resolve (signals ++ [s]) name
      = (track resolve signals name).step resolve name (s, signals.length) := by
  have hzip : (signals ++ [s]).zipIdx = signals.zipIdx ++ [(s, signals.length)] := by
    simp [List.zipIdx_append]
  rw [track, hzip, List.filter_append, List.foldl_append]
  cases h : touches resolve name s with
  | true => simp [h, track]
  | false =>
    rw [step_of_not_touches h]
    simp [h, track]

theorem firstOccurrences_concat (names : List String) (name : String) :
    Audit.firstOccurrences (names ++ [name])
      = Layout.noted (Audit.firstOccurrences names) name := by
  induction names with
  | nil => rfl
  | cons first rest ih =>
    rw [List.cons_append, Audit.firstOccurrences, Audit.firstOccurrences, ih]
    unfold Layout.noted
    by_cases hfirst : name = first
    · subst hfirst
      rw [if_pos List.mem_cons_self]
      split
      · rfl
      · simp
    · by_cases hrest : name ∈ Audit.firstOccurrences rest <;> simp [hrest, hfirst]

theorem names_concat (resolve : String → String) (signals : List Signal) (s : Signal) :
    names resolve (signals ++ [s])
      = Layout.noted (Layout.noted (names resolve signals) (resolve s.source))
          (resolve s.target) := by
  have hends : (signals ++ [s]).flatMap (fun s => [resolve s.source, resolve s.target])
      = (signals.flatMap fun s => [resolve s.source, resolve s.target])
        ++ [resolve s.source] ++ [resolve s.target] := by
    simp
  rw [names, hends, firstOccurrences_concat, firstOccurrences_concat]
  rfl

theorem mem_firstOccurrences {names : List String} {name : String} :
    name ∈ Audit.firstOccurrences names ↔ name ∈ names := by
  induction names with
  | nil => exact Iff.rfl
  | cons first rest ih =>
    rw [Audit.firstOccurrences, List.mem_cons, List.mem_cons, List.mem_filter, ih]
    by_cases h : name = first <;> simp [h]

/-- Both ends of a signal are among the names. -/
theorem ends_mem_names (resolve : String → String) {signals : List Signal} {s : Signal}
    (h : s ∈ signals) :
    resolve s.source ∈ names resolve signals ∧ resolve s.target ∈ names resolve signals := by
  simp only [names, mem_firstOccurrences, List.mem_flatMap]
  exact ⟨⟨s, h, by simp⟩, ⟨s, h, by simp⟩⟩

theorem total_concat (amounts : List α) (a : α) :
    total (amounts ++ [a])
      = if Measure.isZero a then total amounts else Measure.add (total amounts) a := by
  unfold total
  cases h : Measure.isZero a <;> simp [h]

theorem growths_concat (settings : Settings α) (signals : List Signal) (s : Signal) :
    growths settings (signals ++ [s]) = growths settings signals ++ growthsOf settings s := by
  simp [growths]

theorem length_growths (settings : Settings α) (signals : List Signal) :
    (growths settings signals).length = 3 * signals.length := by
  induction signals with
  | nil => rfl
  | cons s signals ih =>
    rw [growths, List.flatMap_cons, List.length_append, List.length_cons]
    rw [growths] at ih
    rw [ih]
    show 3 + 3 * signals.length = 3 * (signals.length + 1)
    omega

theorem take_growths_concat (settings : Settings α) (signals : List Signal) (s : Signal) {n : Nat}
    (h : n ≤ 3 * signals.length) :
    (growths settings (signals ++ [s])).take n = (growths settings signals).take n := by
  rw [growths_concat, List.take_append_of_le_length]
  rw [length_growths]
  exact h

/-- A later signal leaves the arrows of the earlier ones. -/
theorem arrow_concat (settings : Settings α) (resolve : String → String) {signals : List Signal}
    {event : Signal × Nat} (h : event ∈ signals.zipIdx) (s : Signal) :
    arrow settings resolve (signals ++ [s]) event = arrow settings resolve signals event := by
  obtain ⟨e, k⟩ := event
  have hat : signals[k]? = some e := List.mem_zipIdx_iff_getElem?.1 h
  have hk : k < signals.length := (List.getElem?_eq_some_iff.1 hat).1
  obtain ⟨hsource, htarget⟩ := ends_mem_names resolve (List.mem_of_getElem? hat)
  have hindex {name : String} (hname : name ∈ names resolve signals) :
      (names resolve (signals ++ [s])).idxOf name = (names resolve signals).idxOf name := by
    rw [names_concat, Layout.idxOf_noted (Layout.mem_noted.2 (Or.inl hname)),
      Layout.idxOf_noted hname]
  have hbefore : (signals ++ [s]).take k = signals.take k :=
    List.take_append_of_le_length (by omega)
  have hafter : (signals ++ [s]).take (k + 1) = signals.take (k + 1) :=
    List.take_append_of_le_length (by omega)
  have htop := take_growths_concat settings signals s (show 3 * k + 1 ≤ _ by omega)
  have hloop := take_growths_concat settings signals s (show 3 * k + 2 ≤ _ by omega)
  simp only [arrow, hindex hsource, hindex htarget, hbefore, hafter, htop, hloop]

/-- The arrow of the last signal: its own growths come after those of the earlier ones. -/
theorem arrow_last (settings : Settings α) (resolve : String → String) (signals : List Signal)
    (s : Signal) :
    arrow settings resolve (signals ++ [s]) (s, signals.length) =
      { start :=
          { lifeline := (names resolve (signals ++ [s])).idxOf (resolve s.source)
            box := (track resolve signals (resolve s.source)).openStack.head?
            y := total (growths settings signals ++ (growthsOf settings s).take 1) }
        finish :=
          { lifeline := (names resolve (signals ++ [s])).idxOf (resolve s.target)
            box := ((track resolve signals (resolve s.target)).step resolve (resolve s.target)
              (s, signals.length)).openStack.head?
            y := total (growths settings signals ++ (growthsOf settings s).take 2) }
        label := s.message
        dotted := s.dotted } := by
  have hbefore : (signals ++ [s]).take signals.length = signals := List.take_left
  have hafter : (signals ++ [s]).take (signals.length + 1) = signals ++ [s] :=
    List.take_of_length_le (by simp)
  have hgrowths (n : Nat) : (growths settings (signals ++ [s])).take (3 * signals.length + n)
      = growths settings signals ++ (growthsOf settings s).take n := by
    rw [growths_concat, ← length_growths settings signals, List.take_length_add_append]
  simp only [arrow, hbefore, hafter, hgrowths, track_concat]

end Replay

end SequenceChart
