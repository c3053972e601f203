import SequenceChart.Proofs.Geometry.Finished
set_option autoImplicit false

/-!
# The history of a box

A signal opens a box if the box is there after the signal and was not before it, and closes a box
that was open before the signal and is not after it.  In the track of the lifeline both are written
down: a box is opened at the second growth of the signal that opened it, and closed at the first
growth of the signal that closed it.
-/

namespace SequenceChart

/-! ## One step of a track -/

namespace Track

/-- What later steps keep of a track: its boxes stay, and so does where each was opened, and where
it was closed if it was. -/
def Extends (t t' : Track) : Prop :=
  ∀ (i : Nat) (span : Span), t.spans[i]? = some span → ∃ span' : Span, t'.spans[i]? = some span' ∧
    span'.opened = span.opened ∧ span'.depth = span.depth ∧
    ∀ now, span.closed = some now → span'.closed = some now

theorem Extends.refl (t : Track) : t.Extends t :=
  fun _ span h => ⟨span, h, rfl, rfl, fun _ hnow => hnow⟩

theorem Extends.trans {t₁ t₂ t₃ : Track} (h₁ : t₁.Extends t₂) (h₂ : t₂.Extends t₃) :
    t₁.Extends t₃ := by
  intro i span hspan
  obtain ⟨span₂, hspan₂, hopened₂, hdepth₂, hclosed₂⟩ := h₁ i span hspan
  obtain ⟨span₃, hspan₃, hopened₃, hdepth₃, hclosed₃⟩ := h₂ i span₂ hspan₂
  exact ⟨span₃, hspan₃, hopened₃.trans hopened₂, hdepth₃.trans hdepth₂,
    fun now hnow => hclosed₃ now (hclosed₂ now hnow)⟩

theorem Extends.length_le {t t' : Track} (h : t.Extends t') :
    t.spans.length ≤ t'.spans.length := by
  refine Nat.le_of_not_lt fun hlt => ?_
  obtain ⟨span, hspan, -⟩ := h t'.spans.length _ (List.getElem?_eq_getElem hlt)
  rw [List.getElem?_eq_none (Nat.le_refl _)] at hspan
  cases hspan

theorem length_pop (t : Track) (now : Nat) : (t.pop now).spans.length = t.spans.length := by
  unfold pop
  split
  · rfl
  · exact List.length_modify ..

/-- A box after closing: it is as it was, or it was the innermost open one and is closed now. -/
theorem pop_cases {t : Track} {now i : Nat} {span : Span} (h : (t.pop now).spans[i]? = some span) :
    t.spans[i]? = some span ∨
      ∃ old, t.spans[i]? = some old ∧ t.openStack.head? = some i ∧
        span = { old with closed := some now } := by
  obtain ⟨spans, openStack⟩ := t
  cases openStack with
  | nil => exact .inl h
  | cons top rest =>
    simp only [pop, List.getElem?_modify, Option.map_eq_map, Option.map_eq_some_iff] at h
    obtain ⟨old, hold, rfl⟩ := h
    by_cases hi : top = i
    · exact .inr ⟨old, hold, congrArg some hi, if_pos hi⟩
    · rw [if_neg hi]
      exact .inl hold

/-- A box after opening one: it was there before, or it is the new one. -/
theorem push_cases {t : Track} {now i : Nat} {span : Span}
    (h : (t.push now).spans[i]? = some span) :
    t.spans[i]? = some span ∨ i = t.spans.length ∧ span = ⟨now, none, t.openStack.length⟩ := by
  rw [push, List.getElem?_append] at h
  split at h
  · exact .inl h
  · obtain ⟨hi, hspan⟩ := List.getElem?_eq_some_iff.1 h
    rw [List.length_singleton] at hi
    exact .inr ⟨by omega, by simpa using hspan.symm⟩

theorem Sound.extends_pop {t : Track} {n : Nat} (h : t.Sound n) (now : Nat) :
    t.Extends (t.pop now) := by
  obtain ⟨spans, openStack⟩ := t
  cases openStack with
  | nil => exact Extends.refl _
  | cons top rest =>
    intro i span hspan
    have hclosed : top = i → span.closed = none := fun hi =>
      (h.closed_iff i span hspan).2 (hi ▸ List.mem_cons_self)
    refine ⟨_, by rw [Track.pop, List.getElem?_modify, hspan]; rfl, ?_⟩
    by_cases hi : top = i
    · simp [hi, hclosed hi]
    · simp [hi]

theorem extends_push (t : Track) (now : Nat) : t.Extends (t.push now) := by
  intro i span hspan
  have hlt := (List.getElem?_eq_some_iff.1 hspan).1
  exact ⟨span, by rw [push, List.getElem?_append_left hlt, hspan], rfl, rfl, fun _ h => h⟩

section Step

variable {resolve : String → String} {name : String} {s : Signal} {k n : Nat} {t : Track}

/-- A signal closes at most one box of a track, and then opens at most one. -/
theorem exists_step_eq (t : Track) (resolve : String → String) (name : String) (s : Signal)
    (k : Nat) : ∃ u, (u = t ∨ u = t.pop (3 * k + 1)) ∧
      (t.step resolve name (s, k) = u ∨ t.step resolve name (s, k) = u.push (3 * k + 2)) := by
  refine ⟨if s.deactivates && resolve s.source = name then t.pop (3 * k + 1) else t, ?_, ?_⟩
  · split
    · exact .inr rfl
    · exact .inl rfl
  · unfold step
    dsimp only
    split
    · exact .inr rfl
    · exact .inl rfl

theorem Sound.step (h : t.Sound n) (hn : n ≤ 3 * k + 1) :
    (t.step resolve name (s, k)).Sound (3 * k + 2) := by
  obtain ⟨u, hclosed, hstep⟩ := exists_step_eq t resolve name s k
  have hu : u.Sound (3 * k + 2) := by
    rcases hclosed with rfl | rfl
    · exact h.mono (Nat.le_succ_of_le hn)
    · exact (h.mono hn).pop.mono (Nat.le_succ _)
  rcases hstep with hstep | hstep <;> rw [hstep]
  · exact hu
  · exact hu.push

theorem Sound.extends_step (h : t.Sound n) :
    t.Extends (t.step resolve name (s, k)) := by
  obtain ⟨u, hclosed, hstep⟩ := exists_step_eq t resolve name s k
  have hu : t.Extends u := by
    rcases hclosed with rfl | rfl
    · exact Extends.refl _
    · exact h.extends_pop _
  rcases hstep with hstep | hstep <;> rw [hstep]
  · exact hu
  · exact hu.trans (extends_push u _)

/-- A box after a signal: it is as it was, or the signal closed it, or the signal opened it. -/
theorem step_cases {i : Nat} {span : Span}
    (hspan : (t.step resolve name (s, k)).spans[i]? = some span) :
    t.spans[i]? = some span ∨
    (∃ old, t.spans[i]? = some old ∧ i ∈ t.openStack ∧
      span = { old with closed := some (3 * k + 1) }) ∨
    (i = t.spans.length ∧ span.opened = 3 * k + 2 ∧ span.closed = none) := by
  obtain ⟨u, hclosed, hstep⟩ := exists_step_eq t resolve name s k
  have hold (hu : u.spans[i]? = some span) : t.spans[i]? = some span ∨
      ∃ old, t.spans[i]? = some old ∧ i ∈ t.openStack ∧
        span = { old with closed := some (3 * k + 1) } := by
    rcases hclosed with rfl | rfl
    · exact .inl hu
    · rcases pop_cases hu with hsame | ⟨old, hold, htop, hnow⟩
      · exact .inl hsame
      · exact .inr ⟨old, hold, List.mem_of_head? htop, hnow⟩
  have hlength : u.spans.length = t.spans.length := by
    rcases hclosed with rfl | rfl
    · rfl
    · exact length_pop t _
  rw [← or_assoc]
  rcases hstep with hstep | hstep <;> rw [hstep] at hspan
  · exact .inl (hold hspan)
  · rcases push_cases hspan with hu | ⟨hi, rfl⟩
    · exact .inl (hold hu)
    · exact .inr ⟨hi.trans hlength, rfl, rfl⟩

end Step

end Track

/-! ## The run of a track -/

namespace Replay

variable {resolve : String → String} {signals : List Signal} {name : String}

theorem take_succ_of_getElem? {k : Nat} {s : Signal} (h : signals[k]? = some s) :
    signals.take (k + 1) = signals.take k ++ [s] := by
  rw [List.take_add_one, h, Option.toList_some]

theorem track_take_succ {k : Nat} {s : Signal} (h : signals[k]? = some s) :
    track resolve (signals.take (k + 1)) name
      = (track resolve (signals.take k) name).step resolve name (s, k) := by
  have hk := (List.getElem?_eq_some_iff.1 h).1
  rw [take_succ_of_getElem? h, track_concat, List.length_take_of_le (Nat.le_of_lt hk)]

/-- Before the `k`-th signal, counted from 0, a track lies within the growths so far. -/
theorem sound_track (resolve : String → String) (signals : List Signal) (name : String) :
    ∀ k ≤ signals.length, (track resolve (signals.take k) name).Sound (3 * k) := by
  intro k
  induction k with
  | zero => exact fun _ => Track.sound_empty
  | succ k ih =>
    intro hk
    rw [track_take_succ (List.getElem?_eq_getElem hk)]
    exact ((ih (Nat.le_of_lt hk)).step (Nat.le_succ _)).mono (Nat.le_succ _)

theorem extends_track {m n : Nat} (hmn : m ≤ n) (hn : n ≤ signals.length) :
    (track resolve (signals.take m) name).Extends (track resolve (signals.take n) name) := by
  induction hmn with
  | refl => exact Track.Extends.refl _
  | step _ ih =>
    rw [track_take_succ (List.getElem?_eq_getElem hn)]
    exact (ih (Nat.le_of_lt hn)).trans
      (sound_track resolve signals name _ (Nat.le_of_lt hn)).extends_step

theorem exists_opener_take {j : Nat} {span : Span} {n : Nat} (hn : n ≤ signals.length)
    (hspan : (track resolve (signals.take n) name).spans[j]? = some span) :
    ∃ k < n, span.opened = 3 * k + 2 ∧
      (track resolve (signals.take k) name).spans.length ≤ j ∧
      j < (track resolve (signals.take (k + 1)) name).spans.length := by
  induction n generalizing span with
  | zero => cases hspan
  | succ n ih =>
    have hnow := (List.getElem?_eq_some_iff.1 hspan).1
    rw [track_take_succ (List.getElem?_eq_getElem hn)] at hspan
    have hbefore {old : Span} (hold : (track resolve (signals.take n) name).spans[j]? = some old)
        (hopened : span.opened = old.opened) :
        ∃ k < n + 1, span.opened = 3 * k + 2 ∧
          (track resolve (signals.take k) name).spans.length ≤ j ∧
          j < (track resolve (signals.take (k + 1)) name).spans.length := by
      obtain ⟨k, hk, hkopened, hplace⟩ := ih (Nat.le_of_lt hn) hold
      exact ⟨k, Nat.lt_succ_of_lt hk, hopened.trans hkopened, hplace⟩
    rcases Track.step_cases hspan with hsame | ⟨old, hold, -, rfl⟩ | ⟨hj, hopened, -⟩
    · exact hbefore hsame rfl
    · exact hbefore hold rfl
    · exact ⟨n, Nat.lt_succ_self n, hopened, Nat.le_of_eq hj.symm, hnow⟩

theorem exists_closer_take {j now : Nat} {span : Span} {n : Nat} (hn : n ≤ signals.length)
    (hspan : (track resolve (signals.take n) name).spans[j]? = some span)
    (hclosed : span.closed = some now) :
    ∃ k < n, now = 3 * k + 1 ∧ j ∈ (track resolve (signals.take k) name).openStack ∧
      j ∉ (track resolve (signals.take (k + 1)) name).openStack := by
  induction n generalizing span with
  | zero => cases hspan
  | succ n ih =>
    have hafter : j ∉ (track resolve (signals.take (n + 1)) name).openStack := by
      rw [← (sound_track resolve signals name (n + 1) hn).closed_iff j span hspan, hclosed]
      exact Option.some_ne_none now
    rw [track_take_succ (List.getElem?_eq_getElem hn)] at hspan
    rcases Track.step_cases hspan with hsame | ⟨old, -, hopen, rfl⟩ | ⟨-, -, hnone⟩
    · obtain ⟨k, hk, hnow⟩ := ih (Nat.le_of_lt hn) hsame hclosed
      exact ⟨k, Nat.lt_succ_of_lt hk, hnow⟩
    · exact ⟨n, Nat.lt_succ_self n, (Option.some.inj hclosed).symm, hopen, hafter⟩
    · rw [hnone] at hclosed
      cases hclosed

section Whole

variable {j k : Nat} {span : Span} (hspan : (track resolve signals name).spans[j]? = some span)

include hspan

/-- A box was opened by the signal that it says. -/
theorem exists_opener : ∃ k < signals.length, span.opened = 3 * k + 2 ∧
    (track resolve (signals.take k) name).spans.length ≤ j ∧
    j < (track resolve (signals.take (k + 1)) name).spans.length := by
  rw [← signals.take_length] at hspan
  exact exists_opener_take (Nat.le_refl _) hspan

/-- A closed box was closed by the signal that it says. -/
theorem exists_closer {now : Nat} (hclosed : span.closed = some now) :
    ∃ k < signals.length, now = 3 * k + 1 ∧
      j ∈ (track resolve (signals.take k) name).openStack ∧
      j ∉ (track resolve (signals.take (k + 1)) name).openStack := by
  rw [← signals.take_length] at hspan
  exact exists_closer_take (Nat.le_refl _) hspan hclosed

/-- A box is closed by a later signal than the one that opened it. -/
theorem opened_lt_closed {now : Nat} (hclosed : span.closed = some now) : span.opened < now := by
  obtain ⟨k, hk, hopened, hlow, -⟩ := exists_opener hspan
  obtain ⟨k', hk', rfl, hopen, -⟩ := exists_closer hspan hclosed
  have hplace := (sound_track resolve signals name k' (Nat.le_of_lt hk')).bound j hopen
  have hlater : k < k' := by
    refine Nat.lt_of_not_le fun hle => Nat.not_lt.2 hlow ?_
    exact Nat.lt_of_lt_of_le hplace (extends_track hle (Nat.le_of_lt hk)).length_le
  omega

/-- The signal before which a box is not there and after which it is opened it. -/
theorem opened_of_grows (hk : k < signals.length)
    (hbefore : (track resolve (signals.take k) name).spans.length ≤ j)
    (hafter : j < (track resolve (signals.take (k + 1)) name).spans.length) :
    span.opened = 3 * k + 2 := by
  rw [← signals.take_length] at hspan
  obtain ⟨new, hnew⟩ : ∃ new,
      (track resolve (signals.take (k + 1)) name).spans[j]? = some new :=
    ⟨_, List.getElem?_eq_getElem hafter⟩
  obtain ⟨later, hlater, hopened, -⟩ := extends_track hk (Nat.le_refl _) j _ hnew
  cases hspan.symm.trans hlater
  rw [hopened]
  rw [track_take_succ (List.getElem?_eq_getElem hk)] at hnew
  rcases Track.step_cases hnew with hsame | ⟨old, hold, -⟩ | ⟨-, hnow, -⟩
  · exact absurd (List.getElem?_eq_some_iff.1 hsame).1 (Nat.not_lt.2 hbefore)
  · exact absurd (List.getElem?_eq_some_iff.1 hold).1 (Nat.not_lt.2 hbefore)
  · exact hnow

/-- The signal before which a box is open and after which it is not closed it. -/
theorem closed_of_shuts (hk : k < signals.length)
    (hbefore : j ∈ (track resolve (signals.take k) name).openStack)
    (hafter : j ∉ (track resolve (signals.take (k + 1)) name).openStack) :
    span.closed = some (3 * k + 1) := by
  rw [← signals.take_length] at hspan
  have hsound := sound_track resolve signals name k (Nat.le_of_lt hk)
  obtain ⟨new, hnew, -⟩ := extends_track (Nat.le_succ k) hk j _
    (List.getElem?_eq_getElem (hsound.bound j hbefore))
  obtain ⟨later, hlater, -, -, hclosed⟩ := extends_track hk (Nat.le_refl _) j _ hnew
  cases hspan.symm.trans hlater
  refine hclosed _ ?_
  have hshut : new.closed ≠ none := fun hnone =>
    hafter (((sound_track resolve signals name (k + 1) hk).closed_iff j new hnew).1 hnone)
  rw [track_take_succ (List.getElem?_eq_getElem hk)] at hnew
  rcases Track.step_cases hnew with hsame | ⟨old, -, -, rfl⟩ | ⟨-, -, hnone⟩
  · exact absurd ((hsound.closed_iff j new hsame).2 hbefore) hshut
  · rfl
  · exact absurd hnone hshut

end Whole

theorem track_of_not_mem_names (h : name ∉ names resolve signals) :
    track resolve signals name = {} := by
  have hidle : signals.zipIdx.filter (fun event => touches resolve name event.1) = [] := by
    rw [List.filter_eq_nil_iff]
    rintro ⟨s, k⟩ hevent
    have hends := ends_mem_names resolve
      (List.mem_of_getElem? (List.mem_zipIdx_iff_getElem?.1 hevent))
    simp only [touches, Bool.or_eq_true, decide_eq_true_eq, not_or]
    exact ⟨fun hsource => h (hsource ▸ hends.1), fun htarget => h (htarget ▸ hends.2)⟩
  rw [track, hidle]
  rfl

end Replay

/-! ## The history of a layout -/

namespace Layout

variable {α : Type}

/-- The boxes of the lifeline of a name. -/
def boxesOf (l : Layout α) (name : String) : List (Box α) :=
  (l.lifeline? name).elim [] Lifeline.boxes

/-- The places of the open boxes of the lifeline of a name. -/
def openOf (l : Layout α) (name : String) : List Nat :=
  (l.lifeline? name).elim [] Lifeline.openBoxes

variable [Measure α]

/-- The layout of the first signals at the top level of a chart. -/
def upTo (settings : Settings α) (c : Chart) (n : Nat) :
    Except (Halted (Shrinking α) (Layout α)) (Layout α) :=
  (c.topSignals.take n).foldlM (place settings c.resolve) empty

/-- The `k`-th signal, counted from 0, opens the box at a place of a lifeline: the box is there
after the signal and was not before it. -/
def Opens (settings : Settings α) (c : Chart) (k : Nat) (name : String) (place : Nat) : Prop :=
  ∃ before after, upTo settings c k = .ok before ∧ upTo settings c (k + 1) = .ok after ∧
    (before.boxesOf name).length ≤ place ∧ place < (after.boxesOf name).length

/-- The `k`-th signal, counted from 0, closes the box at a place of a lifeline: the box was open
before the signal and is not after it. -/
def Closes (settings : Settings α) (c : Chart) (k : Nat) (name : String) (place : Nat) : Prop :=
  ∃ before after, upTo settings c k = .ok before ∧ upTo settings c (k + 1) = .ok after ∧
    place ∈ before.openOf name ∧ place ∉ after.openOf name

section Replay

variable {settings : Settings α} {resolve : String → String} {signals : List Signal}

theorem lifeline?_replay (name : String) :
    (Replay.layout settings resolve signals).lifeline? name
      = if name ∈ Replay.names resolve signals then
          some (Replay.lifeline settings (Replay.growths settings signals)
            (Replay.track resolve signals name) name)
        else none := by
  rw [Layout.lifeline?, Replay.layout]
  dsimp only
  generalize Replay.names resolve signals = names
  induction names with
  | nil => rfl
  | cons first rest ih =>
    rw [List.map_cons, List.find?_cons]
    by_cases hfirst : first = name
    · subst hfirst
      simp [Replay.lifeline]
    · have hne : ¬name = first := fun he => hfirst he.symm
      simpa [Replay.lifeline, hfirst, hne] using ih

theorem boxesOf_replay (name : String) :
    (Replay.layout settings resolve signals).boxesOf name
      = (Replay.track resolve signals name).spans.map
          (Replay.box settings (Replay.growths settings signals)) := by
  rw [boxesOf, lifeline?_replay]
  split
  · rfl
  · next h =>
    rw [Replay.track_of_not_mem_names h]
    rfl

theorem openOf_replay (name : String) :
    (Replay.layout settings resolve signals).openOf name
      = (Replay.track resolve signals name).openStack.reverse := by
  rw [openOf, lifeline?_replay]
  split
  · rfl
  · next h =>
    rw [Replay.track_of_not_mem_names h]
    rfl

theorem upTo_eq_replay (h : settings.Growing) (c : Chart) (n : Nat) :
    upTo settings c n = .ok (Replay.layout settings c.resolve (c.topSignals.take n)) :=
  run_eq_replay h _ _

variable {c : Chart} {k j : Nat} {name : String} {span : Span}

/-- A signal opens a box exactly if the box was opened at the second growth of the signal. -/
theorem opens_iff (h : settings.Growing)
    (hspan : (Replay.track c.resolve c.topSignals name).spans[j]? = some span) :
    Opens settings c k name j ↔ span.opened = 3 * k + 2 := by
  have hupTo := upTo_eq_replay h c
  constructor
  · rintro ⟨before, after, hbefore, hafter, hlow, hhigh⟩
    cases (hupTo k).symm.trans hbefore
    cases (hupTo (k + 1)).symm.trans hafter
    rw [boxesOf_replay, List.length_map] at hlow hhigh
    refine Replay.opened_of_grows hspan ?_ hlow hhigh
    refine Nat.lt_of_not_le fun hge => ?_
    rw [List.take_of_length_le hge] at hlow
    rw [List.take_of_length_le (Nat.le_succ_of_le hge)] at hhigh
    exact Nat.not_lt.2 hlow hhigh
  · intro hopened
    obtain ⟨k', -, hk', hlow, hhigh⟩ := Replay.exists_opener hspan
    obtain rfl : k' = k := by omega
    refine ⟨_, _, hupTo k', hupTo (k' + 1), ?_, ?_⟩
    · rwa [boxesOf_replay, List.length_map]
    · rwa [boxesOf_replay, List.length_map]

/-- A signal closes a box exactly if the box was closed at the first growth of the signal. -/
theorem closes_iff (h : settings.Growing)
    (hspan : (Replay.track c.resolve c.topSignals name).spans[j]? = some span) :
    Closes settings c k name j ↔ span.closed = some (3 * k + 1) := by
  have hupTo := upTo_eq_replay h c
  constructor
  · rintro ⟨before, after, hbefore, hafter, hopen, hshut⟩
    cases (hupTo k).symm.trans hbefore
    cases (hupTo (k + 1)).symm.trans hafter
    rw [openOf_replay, List.mem_reverse] at hopen hshut
    refine Replay.closed_of_shuts hspan ?_ hopen hshut
    refine Nat.lt_of_not_le fun hge => ?_
    rw [List.take_of_length_le hge] at hopen
    rw [List.take_of_length_le (Nat.le_succ_of_le hge)] at hshut
    exact hshut hopen
  · intro hclosed
    obtain ⟨k', -, hk', hopen, hshut⟩ := Replay.exists_closer hspan hclosed
    obtain rfl : k' = k := by omega
    refine ⟨_, _, hupTo k', hupTo (k' + 1), ?_, ?_⟩
    · rwa [openOf_replay, List.mem_reverse]
    · rwa [openOf_replay, List.mem_reverse]

end Replay

end Layout

end SequenceChart
