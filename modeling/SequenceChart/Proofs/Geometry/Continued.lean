import SequenceChart.Proofs.Geometry.History
set_option autoImplicit false

/-!
# Charts that go on

A chart may go on with more statements.  Main statement: if the longer chart has a layout, so has
the shorter one, and the longer layout continues it.  Lifelines and arrows are only added; a box
keeps its place, its width and its inset; a closed box keeps its height, and an open one gets higher
by the first of the growths that follow.  Both layouts are replays, so it is enough to compare the
replay of some signals with the replay of more.
-/

namespace SequenceChart

open Replay

variable {α : Type} [Measure α]

namespace Replay

/-- The growths that are a growth at all. -/
def moving (amounts : List α) : List α := amounts.filter fun a => !Measure.isZero a

theorem total_append (amounts more : List α) :
    total (amounts ++ more) = (moving more).foldl Measure.add (total amounts) := by
  rw [total, List.filter_append, List.foldl_append]
  rfl

end Replay

/-! ## What is kept -/

/-- A box after some growths: it is higher by them, none of them is negative, and the rest of it is
as it was. -/
structure Box.LengthenedBy (amounts : List α) (b b' : Box α) : Prop where
  start : b'.start = b.start
  width : b'.width = b.width
  inset : b'.inset = b.inset
  height : b'.height = amounts.foldl Measure.add b.height
  growing : ∀ a ∈ amounts, Measure.isNegative a = false

/-- A lifeline continues another one while the layout goes through some growths. -/
structure Lifeline.Continues (amounts : List α) (line line' : Lifeline α) : Prop where
  name : line'.name = line.name
  /-- a closed box stays as it is, and closed -/
  closed : ∀ (j : Nat) (b : Box α), line.boxes[j]? = some b → j ∉ line.openStack →
    line'.boxes[j]? = some b ∧ j ∉ line'.openStack
  /-- an open box is lengthened by the first of the growths, and by all of them if it stays open -/
  opened : ∀ (j : Nat) (b : Box α), line.boxes[j]? = some b → j ∈ line.openStack →
    ∃ (b' : Box α) (n : Nat), line'.boxes[j]? = some b' ∧
      b.LengthenedBy (moving (amounts.take n)) b' ∧
      (j ∈ line'.openStack → amounts.take n = amounts)

/-- A layout continues another one through some growths. -/
structure Layout.Continues (amounts : List α) (l l' : Layout α) : Prop where
  names : l.names <+: l'.names
  arrows : l.arrows <+: l'.arrows
  lifelines : ∀ (i : Nat) (line : Lifeline α), l.lifelines[i]? = some line →
    ∃ line', l'.lifelines[i]? = some line' ∧ line.Continues amounts line'

/-! ## Replays of more signals -/

namespace Replay

variable {settings : Settings α} {resolve : String → String} {signals : List Signal}

theorem names_prefix_append (rest : List Signal) :
    names resolve signals <+: names resolve (signals ++ rest) := by
  have hnoted (known : List String) (name : String) : known <+: Layout.noted known name := by
    unfold Layout.noted
    split
    · exact List.prefix_refl known
    · exact List.prefix_append known _
  induction rest generalizing signals with
  | nil => simp only [List.append_nil, List.prefix_refl]
  | cons s rest ih =>
    have hnext : names resolve signals <+: names resolve (signals ++ [s]) := by
      rw [names_concat]
      exact (hnoted _ _).trans (hnoted _ _)
    have hrest : names resolve (signals ++ [s]) <+: names resolve (signals ++ [s] ++ rest) := ih
    rw [List.append_assoc] at hrest
    exact hnext.trans hrest

theorem arrows_prefix_append (rest : List Signal) :
    (layout settings resolve signals).arrows
      <+: (layout settings resolve (signals ++ rest)).arrows := by
  induction rest generalizing signals with
  | nil => simp only [List.append_nil, List.prefix_refl]
  | cons s rest ih =>
    have hnext : (layout settings resolve signals).arrows
        <+: (layout settings resolve (signals ++ [s])).arrows := by
      have hearlier : signals.zipIdx.map (arrow settings resolve (signals ++ [s]))
          = signals.zipIdx.map (arrow settings resolve signals) :=
        List.map_congr_left fun event hevent => arrow_concat settings resolve hevent s
      show signals.zipIdx.map _ <+: (signals ++ [s]).zipIdx.map _
      rw [List.zipIdx_append, List.map_append, hearlier]
      exact List.prefix_append _ _
    have hrest : (layout settings resolve (signals ++ [s])).arrows
        <+: (layout settings resolve (signals ++ [s] ++ rest)).arrows := ih
    rw [List.append_assoc] at hrest
    exact hnext.trans hrest

variable {rest : List Signal} {name : String} {j : Nat} {span span' : Span}

theorem extends_append (rest : List Signal) (name : String) :
    (track resolve signals name).Extends (track resolve (signals ++ rest) name) := by
  have hextends : (track resolve ((signals ++ rest).take signals.length) name).Extends
      (track resolve ((signals ++ rest).take (signals ++ rest).length) name) :=
    extends_track (by simp) (Nat.le_refl _)
  rwa [List.take_left, List.take_length] at hextends

theorem sound_whole (resolve : String → String) (signals : List Signal) (name : String) :
    (track resolve signals name).Sound (3 * signals.length) := by
  have hsound := sound_track resolve signals name signals.length (Nat.le_refl _)
  rwa [List.take_length] at hsound

/-- A box that is open after some signals is not closed before the next one. -/
theorem length_le_closed (hspan : (track resolve signals name).spans[j]? = some span)
    (hopen : span.closed = none)
    (hspan' : (track resolve (signals ++ rest) name).spans[j]? = some span') :
    3 * signals.length ≤ span'.closed.getD (3 * (signals ++ rest).length) := by
  cases hclosed : span'.closed with
  | none =>
    rw [Option.getD_none, List.length_append]
    omega
  | some now =>
    obtain ⟨k, -, rfl, hbefore, hafter⟩ := exists_closer hspan' hclosed
    rw [Option.getD_some]
    refine Nat.le_of_not_lt fun hlt => ?_
    have hk : k + 1 ≤ signals.length := by omega
    rw [List.take_append_of_le_length (Nat.le_of_succ_le hk)] at hbefore
    rw [List.take_append_of_le_length hk] at hafter
    rw [closed_of_shuts hspan hk hbefore hafter] at hopen
    cases hopen

variable {amounts more : List α}

/-- The box of a span that is closed does not change. -/
theorem box_append_of_closed (hwithin : span.Within amounts.length) {now : Nat}
    (hclosed : span.closed = some now) (hopened' : span'.opened = span.opened)
    (hdepth' : span'.depth = span.depth) (hclosed' : span'.closed = some now) :
    box settings (amounts ++ more) span' = box settings amounts span := by
  have hstart : (amounts ++ more).take span.opened = amounts.take span.opened :=
    List.take_append_of_le_length hwithin.1
  have hstop : (amounts ++ more).take now = amounts.take now :=
    List.take_append_of_le_length (hwithin.2 now hclosed)
  simp only [box, hopened', hdepth', hclosed', hclosed, Option.getD_some, hstart, hstop]

/-- The box of a span that is open gets higher by the growths up to where it is closed. -/
theorem lengthenedBy_box {t : Track} (hspan' : span' ∈ t.spans)
    (hlengthened : t.Lengthened (amounts ++ more)) (hwithin : span.Within amounts.length)
    (hopen : span.closed = none) (hopened' : span'.opened = span.opened)
    (hdepth' : span'.depth = span.depth) {n : Nat}
    (hend : span'.closed.getD (amounts ++ more).length = amounts.length + n) :
    (box settings amounts span).LengthenedBy (moving (more.take n))
      (box settings (amounts ++ more) span') := by
  have hstart : (amounts ++ more).take span.opened = amounts.take span.opened :=
    List.take_append_of_le_length hwithin.1
  have hspanned : ((amounts ++ more).take (amounts.length + n)).drop span.opened
      = amounts.drop span.opened ++ more.take n := by
    rw [List.take_length_add_append, List.drop_append_of_le_length hwithin.1]
  refine ⟨?_, rfl, ?_, ?_, ?_⟩
  · simp only [box, hopened', hstart]
  · simp only [box, hdepth']
  · simp only [box, hopened', hend, hspanned, hopen, Option.getD_none, List.take_length,
      total_append]
  · intro a ha
    obtain ⟨ha, hmoving⟩ := List.mem_filter.1 ha
    refine hlengthened span' hspan' a ?_ (by simpa using hmoving)
    rw [hend, hopened', hspanned]
    exact List.mem_append_right _ ha

/-- A lifeline goes on with the growths of the signals that follow. -/
theorem lifeline_continues (rest : List Signal) (name : String)
    (hlengthened : (track resolve (signals ++ rest) name).Lengthened
      (growths settings (signals ++ rest))) :
    (lifeline settings (growths settings signals) (track resolve signals name) name).Continues
      (growths settings rest)
      (lifeline settings (growths settings (signals ++ rest))
        (track resolve (signals ++ rest) name) name) := by
  have hsound := sound_whole resolve signals name
  have hsound' := sound_whole resolve (signals ++ rest) name
  have hgrowths : growths settings (signals ++ rest)
      = growths settings signals ++ growths settings rest := List.flatMap_append
  have hlength := length_growths settings signals
  have hlength' := length_growths settings (signals ++ rest)
  rw [hgrowths] at hlengthened hlength' ⊢
  refine ⟨rfl, ?_, ?_⟩
  · intro j b hb hshut
    obtain ⟨span, hspan, rfl⟩ := Option.map_eq_some_iff.1 (List.getElem?_map ▸ hb)
    obtain ⟨span', hspan', hopened', hdepth', hclosed'⟩ := extends_append rest name j span hspan
    obtain ⟨now, hnow⟩ := Option.ne_none_iff_exists'.1 fun hnone =>
      hshut ((hsound.closed_iff j span hspan).1 hnone)
    have hwithin := hlength ▸ hsound.within span (List.mem_of_getElem? hspan)
    refine ⟨?_, fun hopen => ?_⟩
    · rw [lifeline, List.getElem?_map, hspan', Option.map_some,
        box_append_of_closed hwithin hnow hopened' hdepth' (hclosed' now hnow)]
    · have hnone := (hsound'.closed_iff j span' hspan').2 hopen
      rw [hclosed' now hnow] at hnone
      cases hnone
  · intro j b hb hopen
    obtain ⟨span, hspan, rfl⟩ := Option.map_eq_some_iff.1 (List.getElem?_map ▸ hb)
    obtain ⟨span', hspan', hopened', hdepth', -⟩ := extends_append rest name j span hspan
    have hnone := (hsound.closed_iff j span hspan).2 hopen
    have hwithin := hlength ▸ hsound.within span (List.mem_of_getElem? hspan)
    have hend := length_le_closed hspan hnone hspan'
    rw [← hlength, ← hlength'] at hend
    obtain ⟨n, hn⟩ := Nat.exists_eq_add_of_le hend
    refine ⟨box settings (growths settings signals ++ growths settings rest) span', n, ?_, ?_,
      fun hstill => ?_⟩
    · rw [lifeline, List.getElem?_map, hspan', Option.map_some]
    · exact lengthenedBy_box (List.mem_of_getElem? hspan') hlengthened hwithin hnone hopened'
        hdepth' hn
    · rw [(hsound'.closed_iff j span' hspan').2 hstill, Option.getD_none, List.length_append] at hn
      exact List.take_of_length_le (by omega)

/-- The replay of some signals goes on with the growths of the signals that follow. -/
theorem layout_continues (rest : List Signal)
    (hlengthened : ∀ name, (track resolve (signals ++ rest) name).Lengthened
      (growths settings (signals ++ rest))) :
    (layout settings resolve signals).Continues (growths settings rest)
      (layout settings resolve (signals ++ rest)) := by
  have hnames (signals : List Signal) :
      (layout settings resolve signals).names = names resolve signals := by
    rw [Layout.names, layout, List.map_map]
    exact List.map_id _
  refine ⟨?_, arrows_prefix_append rest, ?_⟩
  · rw [hnames, hnames]
    exact names_prefix_append rest
  · intro i line hline
    obtain ⟨name, hname, rfl⟩ := Option.map_eq_some_iff.1 (List.getElem?_map ▸ hline)
    have hprefix : names resolve signals <+: names resolve (signals ++ rest) :=
      names_prefix_append rest
    have hname' : (names resolve (signals ++ rest))[i]? = some name := by
      obtain ⟨later, hlater⟩ := hprefix
      rw [← hlater, List.getElem?_append_left (List.getElem?_eq_some_iff.1 hname).1, hname]
    refine ⟨_, ?_, lifeline_continues rest name (hlengthened name)⟩
    rw [layout, List.getElem?_map, hname', Option.map_some]

end Replay

/-! ## Charts -/

/-- If a chart that goes on with more statements has a layout, so has the chart, and the layout of
the longer one continues it with the growths of the statements that follow. -/
theorem exists_continues (settings : Settings α) {c c' : Chart} {more : List Statement}
    {l' : Layout α} (haliases : c'.aliases = c.aliases)
    (hstatements : c'.statements = c.statements ++ more)
    (h : Layout.ofChart settings c' = .ok l') :
    ∃ l, Layout.ofChart settings c = .ok l ∧
      l.Continues (growths settings { c with statements := more }.topSignals) l' := by
  have hresolve : c'.resolve = c.resolve := by
    funext name
    rw [Chart.resolve, Chart.alias?, haliases]
    rfl
  have hsignals : c'.topSignals
      = c.topSignals ++ { c with statements := more }.topSignals := by
    rw [Chart.topSignals, hstatements, List.filterMap_append]
    rfl
  have hreplays := Replays.of_ofChart h
  rw [Layout.ofChart, hsignals, hresolve, List.foldlM_append] at h
  obtain ⟨l, hl, -⟩ := Halted.bind_eq_ok h
  rw [hsignals, hresolve] at hreplays
  refine ⟨l, hl, ?_⟩
  rw [(Replays.of_ofChart hl).eq_layout, hreplays.eq_layout]
  exact layout_continues _ hreplays.tracks.lengthened

/-- After the first three signals one box of `b` is closed and one is open; the fourth signal
lengthens it by a margin, closes it and adds a lifeline. -/
theorem exists_continues_closing :
    ∃ (c c' : Chart) (more : List Statement) (l l' : Layout Rat),
      c'.aliases = c.aliases ∧ c'.statements = c.statements ++ more ∧
      Layout.ofChart ⟨16, 32, 8⟩ c' = .ok l' ∧ Layout.ofChart ⟨16, 32, 8⟩ c = .ok l ∧
      l.Continues (growths ⟨16, 32, 8⟩ { c with statements := more }.topSignals) l' ∧
      l.lifelines = [⟨"a", [], []⟩, ⟨"b", [⟨20, 32, 36, 0⟩, ⟨92, 32, 16, 0⟩], [1]⟩] ∧
      l'.lifelines = [⟨"a", [], []⟩, ⟨"b", [⟨20, 32, 36, 0⟩, ⟨92, 32, 36, 0⟩], []⟩,
        ⟨"d", [⟨128, 32, 16, 0⟩], [0]⟩] := by
  let signal (source target : String) (activates deactivates : Bool) : Statement :=
    .signal { source, target, head := some .closed, activates, deactivates }
  let c : Chart :=
    { statements :=
        [signal "a" "b" true false, signal "b" "a" false true, signal "a" "b" true false] }
  let more : List Statement := [signal "b" "d" true true]
  let c' : Chart := { c with statements := c.statements ++ more }
  let settings : Settings Rat := ⟨16, 32, 8⟩
  have hrun : ((Layout.ofChart settings c).toOption.map Layout.lifelines,
        (Layout.ofChart settings c').toOption.map Layout.lifelines)
      = (some [⟨"a", [], []⟩, ⟨"b", [⟨20, 32, 36, 0⟩, ⟨92, 32, 16, 0⟩], [1]⟩],
        some [⟨"a", [], []⟩, ⟨"b", [⟨20, 32, 36, 0⟩, ⟨92, 32, 36, 0⟩], []⟩,
          ⟨"d", [⟨128, 32, 16, 0⟩], [0]⟩]) := by
    decide +kernel
  obtain ⟨hshort, hlong⟩ := Prod.mk.inj hrun
  cases hl' : Layout.ofChart settings c' with
  | error halt =>
    rw [hl'] at hlong
    cases hlong
  | ok l' =>
    rw [hl'] at hlong
    have haliases : c'.aliases = c.aliases := rfl
    have hstatements : c'.statements = c.statements ++ more := rfl
    obtain ⟨l, hl, hcontinues⟩ := exists_continues settings haliases hstatements hl'
    rw [hl] at hshort
    exact ⟨c, c', more, l, l', haliases, hstatements, hl', hl, hcontinues, Option.some.inj hshort,
      Option.some.inj hlong⟩

end SequenceChart
