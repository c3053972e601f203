import SequenceChart.Proofs.Geometry.Aligned
set_option autoImplicit false

/-!
# Boxes are nested

The open boxes of a track form a stack, so a box that is opened while another one is open is closed
before it.  Main statement: over the rationals, with a font size and an inset that are positive, any
two boxes of a lifeline either follow each other or stand one in the other, and a box stands in by
one unit for every box around it.
-/

namespace SequenceChart

open Layout Replay

/-! ## The stack discipline of a track -/

/-- A box that is opened before some growths is still open after them. -/
def Span.openAt (span : Span) (n : Nat) : Bool := span.closed.all fun now => n < now

theorem Span.openAt_iff {span : Span} {n : Nat} :
    span.openAt n = true ↔ ∀ now, span.closed = some now → n < now := by
  cases h : span.closed <;> simp [openAt, h]

theorem countP_modify {α : Type} {p : α → Bool} {f : α → α} {xs : List α} {i : Nat} {x : α}
    (h : xs[i]? = some x) :
    (xs.modify i f).countP p + (if p x then 1 else 0)
      = xs.countP p + (if p (f x) then 1 else 0) := by
  induction xs generalizing i with
  | nil => cases h
  | cons y ys ih =>
    cases i with
    | zero =>
      cases h
      rw [List.modify_zero_cons, List.countP_cons, List.countP_cons]
      omega
    | succ i =>
      rw [List.modify_succ_cons, List.countP_cons, List.countP_cons]
      have := ih h
      omega

theorem exists_getElem?_of_mem_take {α : Type} {xs : List α} {n : Nat} {x : α}
    (h : x ∈ xs.take n) : ∃ i < n, xs[i]? = some x := by
  obtain ⟨i, hi, rfl⟩ := List.mem_take_iff_getElem.1 h
  exact ⟨i, Nat.lt_of_lt_of_le hi (Nat.min_le_left _ _), List.getElem?_eq_getElem _⟩

namespace Track

/-- The boxes of a track are nested: later boxes are opened later, a box that is opened inside
another one is closed before it, and its depth is the number of boxes that it is opened inside. -/
structure Nested (t : Track) : Prop where
  order : t.openStack.Pairwise (· > ·)
  count : t.spans.countP (fun span => span.closed.isNone) = t.openStack.length
  depth : ∀ (j : Nat) (b : Span), t.spans[j]? = some b →
    b.depth = (t.spans.take j).countP (fun a => a.openAt b.opened)
  pairs : ∀ (i j : Nat) (a b : Span), i < j → t.spans[i]? = some a → t.spans[j]? = some b →
    a.opened < b.opened ∧
      ∀ now, a.closed = some now → b.opened < now → ∃ earlier, b.closed = some earlier ∧
        earlier < now

theorem nested_empty : Nested {} where
  order := List.Pairwise.nil
  count := rfl
  depth j b h := by cases h
  pairs i j a b _ h := by cases h

section Pop

variable {t : Track} {n now top : Nat} {rest : List Nat} {old : Span}

/-- Closing the innermost box changes no box but that one. -/
theorem pop_spans (hstack : t.openStack = top :: rest) :
    (t.pop now).spans = t.spans.modify top fun span => { span with closed := some now } := by
  rw [pop, hstack]

/-- A box that is closed now was open whenever an earlier box was opened. -/
theorem countP_take_pop (hstack : t.openStack = top :: rest) (hold : t.spans[top]? = some old)
    (hopen : old.closed = none) (j : Nat) {m : Nat} (hm : m < now) :
    ((t.pop now).spans.take j).countP (fun a => a.openAt m)
      = (t.spans.take j).countP fun a => a.openAt m := by
  rw [pop_spans hstack, List.take_modify]
  by_cases hj : top < j
  · have hcount := countP_modify (p := fun a : Span => a.openAt m)
      (f := fun span => { span with closed := some now }) ((List.getElem?_take_of_lt hj).trans hold)
    simp only [Span.openAt, hopen, Option.all_none, Option.all_some, hm, if_true,
      decide_true] at hcount
    exact Nat.add_right_cancel hcount
  · rw [List.modify_eq_self]
    rw [List.length_take]
    omega

/-- The innermost box is the last one that is open. -/
theorem Nested.closed_of_top_lt (h : t.Nested) (hsound : t.Sound n)
    (hstack : t.openStack = top :: rest) {j : Nat} {b : Span} (hj : top < j)
    (hb : t.spans[j]? = some b) : ∃ earlier, b.closed = some earlier := by
  have horder := h.order
  rw [hstack] at horder
  have hshut : j ∉ t.openStack := by
    rw [hstack, List.mem_cons, not_or]
    exact ⟨fun he => Nat.lt_irrefl j (he ▸ hj),
      fun hmem => Nat.lt_asymm hj ((List.pairwise_cons.1 horder).1 j hmem)⟩
  exact Option.ne_none_iff_exists'.1 fun hnone => hshut ((hsound.closed_iff j b hb).1 hnone)

/-- After the innermost box is closed, boxes that are opened inside others are still closed before
them. -/
theorem Nested.pairs_pop (h : t.Nested) (hsound : t.Sound n) (hnow : n < now)
    (hstack : t.openStack = top :: rest) {i j : Nat} {a b : Span} (hij : i < j)
    (ha : (t.pop now).spans[i]? = some a) (hb : (t.pop now).spans[j]? = some b) :
    a.opened < b.opened ∧ ∀ later, a.closed = some later → b.opened < later →
      ∃ earlier, b.closed = some earlier ∧ earlier < later := by
  rcases pop_cases ha with holdA | ⟨before, holdA, hi, rfl⟩
  · rcases pop_cases hb with holdB | ⟨before, holdB, hj, rfl⟩
    · exact h.pairs i j a b hij holdA holdB
    · obtain ⟨hopened, hclosed⟩ := h.pairs i j a before hij holdA holdB
      refine ⟨hopened, fun later hlater hlt => ?_⟩
      -- the innermost box was open, so no box that it stands in was closed
      obtain ⟨earlier, hearlier, -⟩ := hclosed later hlater hlt
      rw [(hsound.closed_iff j before holdB).2 (List.mem_of_head? hj)] at hearlier
      cases hearlier
  · obtain rfl : top = i := by
      rw [hstack] at hi
      exact Option.some.inj hi
    rcases pop_cases hb with holdB | ⟨-, -, hj, -⟩
    · refine ⟨(h.pairs top j before b hij holdA holdB).1, fun later hlater _ => ?_⟩
      obtain ⟨earlier, hearlier⟩ := h.closed_of_top_lt hsound hstack hij holdB
      have hearlier_le := (hsound.within b (List.mem_of_getElem? holdB)).2 earlier hearlier
      cases hlater
      exact ⟨earlier, hearlier, Nat.lt_of_le_of_lt hearlier_le hnow⟩
    · rw [hstack] at hj
      exact absurd (Option.some.inj hj) (Nat.ne_of_lt hij)

theorem Nested.pop (h : t.Nested) (hsound : t.Sound n) (hnow : n < now) : (t.pop now).Nested := by
  cases hstack : t.openStack with
  | nil =>
    rw [Track.pop, hstack]
    exact h
  | cons top rest =>
    have htop : top ∈ t.openStack := hstack ▸ List.mem_cons_self
    obtain ⟨old, hold⟩ : ∃ old, t.spans[top]? = some old :=
      ⟨_, List.getElem?_eq_getElem (hsound.bound top htop)⟩
    have hopen : old.closed = none := (hsound.closed_iff top old hold).2 htop
    have hrest : (t.pop now).openStack = rest := by
      rw [Track.pop, hstack]
    refine ⟨?_, ?_, ?_, fun i j a b => h.pairs_pop hsound hnow hstack⟩
    · have horder := h.order
      rw [hstack] at horder
      rw [hrest]
      exact horder.tail
    · have hcount := countP_modify (p := fun span : Span => span.closed.isNone)
        (f := fun span => { span with closed := some now }) hold
      simp only [hopen, h.count, hstack, Option.isNone_none, Option.isNone_some, if_true,
        Bool.false_eq_true, if_false, List.length_cons] at hcount
      rw [pop_spans hstack, hrest]
      omega
    · intro j b hb
      have hlt {before : Span} (hbefore : t.spans[j]? = some before) : before.opened < now :=
        Nat.lt_of_le_of_lt (hsound.within before (List.mem_of_getElem? hbefore)).1 hnow
      rcases pop_cases hb with hsame | ⟨before, hbefore, -, rfl⟩
      · rw [countP_take_pop hstack hold hopen j (hlt hsame)]
        exact h.depth j b hsame
      · exact (h.depth j before hbefore).trans
          (countP_take_pop hstack hold hopen j (hlt hbefore)).symm

end Pop

theorem Nested.push {t : Track} (h : t.Nested) {n now : Nat} (hsound : t.Sound n)
    (hnow : n < now) : (t.push now).Nested := by
  refine ⟨List.pairwise_cons.2 ⟨hsound.bound, h.order⟩, ?_, ?_, ?_⟩
  · rw [Track.push, List.countP_append, h.count]
    rfl
  · intro j b hb
    rcases push_cases hb with hold | ⟨rfl, rfl⟩
    · rw [h.depth j b hold, Track.push, List.take_append_of_le_length]
      exact Nat.le_of_lt (List.getElem?_eq_some_iff.1 hold).1
    · rw [Track.push, List.take_left, ← h.count]
      refine List.countP_congr fun a ha => ?_
      rw [Span.openAt_iff, Option.isNone_iff_eq_none]
      constructor
      · intro hnone later hlater
        rw [hnone] at hlater
        cases hlater
      · intro hopen
        cases hclosed : a.closed with
        | none => rfl
        | some later =>
          exact absurd (hopen later hclosed)
            (Nat.not_lt.2 (Nat.le_of_lt
              (Nat.lt_of_le_of_lt ((hsound.within a ha).2 later hclosed) hnow)))
  · intro i j a b hij ha hb
    have hbound : j ≤ t.spans.length := by
      have := (List.getElem?_eq_some_iff.1 hb).1
      rw [Track.push, List.length_append, List.length_singleton] at this
      omega
    rcases push_cases ha with hold | ⟨rfl, -⟩
    · rcases push_cases hb with hb | ⟨-, rfl⟩
      · exact h.pairs i j a b hij hold hb
      · obtain ⟨hopened, hclosed⟩ := hsound.within a (List.mem_of_getElem? hold)
        refine ⟨Nat.lt_of_le_of_lt hopened hnow, fun later hlater hlt => ?_⟩
        exact absurd (Nat.lt_of_le_of_lt (hclosed later hlater) hnow) (Nat.lt_asymm hlt)
    · exact absurd hij (Nat.not_lt.2 hbound)

theorem Nested.step {t : Track} (h : t.Nested) {resolve : String → String} {name : String}
    {s : Signal} {k : Nat} (hsound : t.Sound (3 * k)) : (t.step resolve name (s, k)).Nested := by
  obtain ⟨u, hclosed, hstep⟩ := exists_step_eq t resolve name s k
  have hu : u.Nested ∧ u.Sound (3 * k + 1) := by
    rcases hclosed with rfl | rfl
    · exact ⟨h, hsound.mono (Nat.le_succ _)⟩
    · exact ⟨h.pop hsound (Nat.lt_succ_self _), (hsound.mono (Nat.le_succ _)).pop⟩
  rcases hstep with hstep | hstep <;> rw [hstep]
  · exact hu.1
  · exact hu.1.push hu.2 (Nat.lt_succ_self _)

/-- A box that is opened inside another one is deeper. -/
theorem Nested.depth_lt {t : Track} (h : t.Nested) {i j : Nat} {a b : Span} (hij : i < j)
    (ha : t.spans[i]? = some a) (hb : t.spans[j]? = some b) (hopen : a.openAt b.opened = true) :
    a.depth < b.depth := by
  have hsplit : t.spans.take j = t.spans.take i ++ a :: (t.spans.take j).drop (i + 1) := by
    have hai : (t.spans.take j)[i]? = some a := (List.getElem?_take_of_lt hij).trans ha
    obtain ⟨hlt, rfl⟩ := List.getElem?_eq_some_iff.1 hai
    rw [← List.drop_eq_getElem_cons hlt]
    conv_lhs => rw [← List.take_append_drop i (t.spans.take j), List.take_take,
      Nat.min_eq_left (Nat.le_of_lt hij)]
  have hmono : (t.spans.take i).countP (fun x => x.openAt a.opened)
      ≤ (t.spans.take i).countP fun x => x.openAt b.opened := by
    refine List.countP_mono_left fun x hx hxopen => ?_
    obtain ⟨m, hmi, hm⟩ := exists_getElem?_of_mem_take hx
    rw [Span.openAt_iff] at hxopen hopen ⊢
    intro later hlater
    obtain ⟨earlier, hearlier, hlt⟩ :=
      (h.pairs m i x a hmi hm ha).2 later hlater (hxopen later hlater)
    exact Nat.lt_trans (hopen earlier hearlier) hlt
  rw [h.depth i a ha, h.depth j b hb, hsplit, List.countP_append, List.countP_cons, if_pos hopen]
  omega

end Track

theorem Replay.nested_track (resolve : String → String) (signals : List Signal) (name : String) :
    (track resolve signals name).Nested := by
  have hupTo : ∀ k ≤ signals.length, (track resolve (signals.take k) name).Nested := by
    intro k
    induction k with
    | zero => exact fun _ => Track.nested_empty
    | succ k ih =>
      intro hk
      rw [track_take_succ (List.getElem?_eq_getElem hk)]
      exact (ih (Nat.le_of_lt hk)).step (sound_track resolve signals name k (Nat.le_of_lt hk))
  exact signals.take_length ▸ hupTo _ (Nat.le_refl _)

/-! ## Boxes over the rationals -/

/-- One box stands around another: it starts above it and ends no higher. -/
def Box.encloses (a b : Box Rat) : Bool := a.start < b.start && b.bottom ≤ a.bottom

/-- The boxes of a lifeline are nested. -/
structure Lifeline.Nested (settings : Settings Rat) (line : Lifeline Rat) : Prop where
  /-- of two boxes the later one follows the earlier one, or stands in it and further in -/
  pairs : ∀ (i j : Nat) (a b : Box Rat), i < j → line.boxes[i]? = some a →
    line.boxes[j]? = some b →
      a.bottom ≤ b.start ∨ a.start < b.start ∧ b.bottom ≤ a.bottom ∧ a.inset < b.inset
  /-- no box starts within another one and ends below it -/
  apart : ∀ a ∈ line.boxes, ∀ b ∈ line.boxes,
    ¬(a.start < b.start ∧ b.start < a.bottom ∧ a.bottom < b.bottom)
  /-- a box stands in by one unit for every box around it -/
  insets : ∀ b ∈ line.boxes,
    b.inset = line.boxes.countP (fun a => a.encloses b) * settings.boxInset

section Replay

variable {settings : Settings Rat} {resolve : String → String} {signals : List Signal}
  {name : String} {i j : Nat} {a b : Span}

/-- The space below a signal lifts the cursor. -/
theorem cursor_lt (h : 0 < settings.fontSize) {k n : Nat} (hk : k < signals.length)
    (hn : 3 * k + 2 < n) : cursor settings signals (3 * k + 2) < cursor settings signals n := by
  have hbottom : 0 < settings.bottomMargin := h
  calc cursor settings signals (3 * k + 2)
      < cursor settings signals (3 * k + 2) + settings.bottomMargin :=
        lt_add_of_pos_right _ hbottom
    _ = cursor settings signals (3 * (k + 1)) :=
        (cursor_next (List.getElem?_eq_getElem hk)).symm
    _ ≤ cursor settings signals n := cursor_mono (le_of_lt h) signals (by omega)

theorem cursor_opened_lt (h : 0 < settings.fontSize)
    (hspan : (track resolve signals name).spans[i]? = some a) {n : Nat} (hn : a.opened < n) :
    cursor settings signals a.opened < cursor settings signals n := by
  obtain ⟨k, hk, hopened, -⟩ := exists_opener hspan
  rw [hopened] at hn ⊢
  exact cursor_lt h hk hn

/-- A box is higher than nothing. -/
theorem start_lt_bottom (h : 0 < settings.fontSize)
    (hspan : (track resolve signals name).spans[i]? = some a) :
    (Replay.box settings (growths settings signals) a).start
      < (Replay.box settings (growths settings signals) a).bottom := by
  rw [bottom_box hspan, start_box]
  exact cursor_opened_lt h hspan (opened_lt_end hspan)

/-- A box that was closed before a later one was opened ends above it. -/
theorem bottom_le_start (h : 0 < settings.fontSize)
    (ha : (track resolve signals name).spans[i]? = some a) (hshut : a.openAt b.opened = false) :
    (Replay.box settings (growths settings signals) a).bottom
      ≤ (Replay.box settings (growths settings signals) b).start := by
  rw [bottom_box ha, start_box]
  cases hclosed : a.closed with
  | none =>
    rw [Span.openAt, hclosed] at hshut
    cases hshut
  | some now =>
    rw [Span.openAt, hclosed] at hshut
    exact cursor_mono (le_of_lt h) signals (Nat.not_lt.1 (of_decide_eq_false hshut))

/-- A box that was still open when a later one was opened stands around it. -/
theorem encloses_of_openAt (h : 0 < settings.fontSize) (hij : i < j)
    (ha : (track resolve signals name).spans[i]? = some a)
    (hb : (track resolve signals name).spans[j]? = some b) (hopen : a.openAt b.opened = true) :
    (Replay.box settings (growths settings signals) a).start
        < (Replay.box settings (growths settings signals) b).start ∧
      (Replay.box settings (growths settings signals) b).bottom
        ≤ (Replay.box settings (growths settings signals) a).bottom := by
  obtain ⟨hopened, hclosed⟩ := (nested_track resolve signals name).pairs i j a b hij ha hb
  rw [bottom_box ha, bottom_box hb, start_box, start_box]
  refine ⟨cursor_opened_lt h ha hopened, ?_⟩
  cases hnow : a.closed with
  | none =>
    have hheight : (Replay.layout settings resolve signals).height = _ := height_layout
    rw [Option.getD_none, ← hheight]
    exact cursor_le_height (le_of_lt h) _
  | some now =>
    obtain ⟨earlier, hearlier, hlt⟩ := hclosed now hnow (Span.openAt_iff.1 hopen now hnow)
    rw [hearlier]
    exact cursor_mono (le_of_lt h) signals (Nat.le_of_lt hlt)

theorem encloses_iff_openAt (h : 0 < settings.fontSize) (hij : i < j)
    (ha : (track resolve signals name).spans[i]? = some a)
    (hb : (track resolve signals name).spans[j]? = some b) :
    (Replay.box settings (growths settings signals) a).encloses
      (Replay.box settings (growths settings signals) b) = a.openAt b.opened := by
  cases hopen : a.openAt b.opened with
  | true => simpa [Box.encloses] using encloses_of_openAt h hij ha hb hopen
  | false =>
    have hbelow := (bottom_le_start h ha hopen).trans_lt (start_lt_bottom h hb)
    simp [Box.encloses, hbelow]

/-- A box that is opened no earlier does not stand around another one. -/
theorem not_encloses_of_le (h : 0 < settings.fontSize) (hopened : b.opened ≤ a.opened) :
    (Replay.box settings (growths settings signals) a).encloses
      (Replay.box settings (growths settings signals) b) = false := by
  have hle := cursor_mono (le_of_lt h) signals hopened
  rw [← start_box, ← start_box] at hle
  simp [Box.encloses, not_lt.2 hle]

/-- The boxes around a box are those that were open when it was opened. -/
theorem countP_encloses (h : 0 < settings.fontSize)
    (hb : (track resolve signals name).spans[j]? = some b) :
    (((track resolve signals name).spans.map (Replay.box settings (growths settings signals))).countP
        fun a => a.encloses (Replay.box settings (growths settings signals) b)) = b.depth := by
  have hnested := nested_track resolve signals name
  rw [List.countP_map, ← List.take_append_drop j (track resolve signals name).spans,
    List.countP_append, hnested.depth j b hb]
  have hbefore : ((track resolve signals name).spans.take j).countP
      ((fun a => a.encloses (Replay.box settings (growths settings signals) b))
        ∘ Replay.box settings (growths settings signals))
      = ((track resolve signals name).spans.take j).countP fun a => a.openAt b.opened := by
    refine List.countP_congr fun a ha => ?_
    obtain ⟨i, hij, hi⟩ := exists_getElem?_of_mem_take ha
    rw [Function.comp_apply, encloses_iff_openAt h hij hi hb]
  have hafter : ((track resolve signals name).spans.drop j).countP
      ((fun a => a.encloses (Replay.box settings (growths settings signals) b))
        ∘ Replay.box settings (growths settings signals)) = 0 := by
    rw [List.countP_eq_zero]
    intro a ha
    obtain ⟨i, hi⟩ := List.mem_iff_getElem?.1 ha
    rw [List.getElem?_drop] at hi
    rw [Function.comp_apply, not_encloses_of_le h]
    · exact Bool.false_ne_true
    · cases i with
      | zero =>
        cases hb.symm.trans hi
        exact Nat.le_refl _
      | succ i => exact Nat.le_of_lt (hnested.pairs j _ b a (by omega) hb hi).1
  rw [hbefore, hafter, Nat.add_zero]

theorem pairs_replay (h : 0 < settings.fontSize) (hinset : 0 < settings.boxInset) (hij : i < j)
    (ha : (track resolve signals name).spans[i]? = some a)
    (hb : (track resolve signals name).spans[j]? = some b) :
    let first := Replay.box settings (growths settings signals) a
    let second := Replay.box settings (growths settings signals) b
    first.bottom ≤ second.start ∨
      first.start < second.start ∧ second.bottom ≤ first.bottom ∧ first.inset < second.inset := by
  cases hopen : a.openAt b.opened with
  | false => exact .inl (bottom_le_start h ha hopen)
  | true =>
    obtain ⟨hstart, hbottom⟩ := encloses_of_openAt h hij ha hb hopen
    have hdepth := (nested_track resolve signals name).depth_lt hij ha hb hopen
    refine .inr ⟨hstart, hbottom, ?_⟩
    show (a.depth : Rat) * settings.boxInset < b.depth * settings.boxInset
    exact mul_lt_mul_of_pos_right (by exact_mod_cast hdepth) hinset

/-- Boxes that start one after the other do not overlap in part. -/
theorem apart_replay (h : 0 < settings.fontSize) (hinset : 0 < settings.boxInset)
    (ha : (track resolve signals name).spans[i]? = some a)
    (hb : (track resolve signals name).spans[j]? = some b) :
    let first := Replay.box settings (growths settings signals) a
    let second := Replay.box settings (growths settings signals) b
    ¬(first.start < second.start ∧ second.start < first.bottom ∧
      first.bottom < second.bottom) := by
  rintro first second ⟨hstart, hwithin, hbelow⟩
  rcases Nat.lt_trichotomy i j with hij | rfl | hji
  · rcases pairs_replay h hinset hij ha hb with habove | ⟨-, hends, -⟩
    · exact not_lt.2 habove hwithin
    · exact not_lt.2 hends hbelow
  · cases ha.symm.trans hb
    exact lt_irrefl _ hstart
  · have hopened := ((nested_track resolve signals name).pairs j i b a hji hb ha).1
    have hlt := cursor_opened_lt h hb hopened
    rw [← start_box, ← start_box] at hlt
    exact lt_asymm hlt hstart

theorem nested_replay (h : 0 < settings.fontSize) (hinset : 0 < settings.boxInset)
    {line : Lifeline Rat}
    (hline : line ∈ (Replay.layout settings resolve signals).lifelines) :
    line.Nested settings where
  pairs i j first second hij hfirst hsecond := by
    obtain ⟨a, ha, rfl⟩ := exists_span hline hfirst
    obtain ⟨b, hb, rfl⟩ := exists_span hline hsecond
    exact pairs_replay h hinset hij ha hb
  apart first hfirst second hsecond := by
    obtain ⟨i, hi⟩ := List.mem_iff_getElem?.1 hfirst
    obtain ⟨j, hj⟩ := List.mem_iff_getElem?.1 hsecond
    obtain ⟨a, ha, rfl⟩ := exists_span hline hi
    obtain ⟨b, hb, rfl⟩ := exists_span hline hj
    exact apart_replay h hinset ha hb
  insets box hbox := by
    obtain ⟨j, hj⟩ := List.mem_iff_getElem?.1 hbox
    obtain ⟨b, hb, rfl⟩ := exists_span hline hj
    obtain ⟨name, -, rfl⟩ := List.mem_map.1 hline
    have hcount := countP_encloses h hb
    exact congrArg (fun n : Nat => (n : Rat) * settings.boxInset) hcount.symm

end Replay

/-- With a font size and an inset that are positive, every chart has a layout, and the boxes of
every lifeline of it are nested. -/
theorem exists_nested (settings : Settings Rat) (h : 0 < settings.fontSize)
    (hinset : 0 < settings.boxInset) (c : Chart) :
    ∃ l, Layout.ofChart settings c = .ok l ∧ ∀ line ∈ l.lifelines, line.Nested settings :=
  ⟨_, run_eq_replay (growing_of_nonneg (le_of_lt h)) c.resolve c.topSignals,
    fun _ hline => nested_replay h hinset hline⟩

/-- The first box stays open; the second one stands in it and is closed, and the third one follows
the second. -/
theorem exists_nested_twice :
    ∃ (c : Chart) (l : Layout Rat), Layout.ofChart ⟨16, 32, 8⟩ c = .ok l ∧
      (∀ line ∈ l.lifelines, line.Nested ⟨16, 32, 8⟩) ∧
      l.lifelines = [⟨"a", [], []⟩,
        ⟨"b", [⟨20, 32, 124, 0⟩, ⟨56, 32, 36, 8⟩, ⟨128, 32, 16, 8⟩], [2, 0]⟩] := by
  let signal (source target : String) (activates deactivates : Bool) : Statement :=
    .signal { source, target, head := some .closed, activates, deactivates }
  let c : Chart :=
    { statements :=
        [signal "a" "b" true true, signal "a" "b" true false, signal "b" "a" false true,
          signal "a" "b" true false] }
  let settings : Settings Rat := ⟨16, 32, 8⟩
  have hrun : ((Layout.ofChart settings c).toOption.map fun l => l.lifelines) =
      some [⟨"a", [], []⟩,
        ⟨"b", [⟨20, 32, 124, 0⟩, ⟨56, 32, 36, 8⟩, ⟨128, 32, 16, 8⟩], [2, 0]⟩] := by
    decide +kernel
  obtain ⟨l, hlayout, hnested⟩ := exists_nested settings (by decide) (by decide) c
  rw [hlayout] at hrun
  exact ⟨c, l, hlayout, hnested, Option.some.inj hrun⟩

end SequenceChart
