import SequenceChart.Proofs.Geometry.Growth
set_option autoImplicit false

/-!
# One pass is the replay of every lifeline

A run of signals is followed through its sub-steps.  Between any two of them the layout shows, for
the growths so far, the track of every lifeline that it has: looking up a lifeline adds one whose
track is empty, a growth is one more growth of all, and closing or opening a box changes the track
of one lifeline alone.
-/

namespace SequenceChart

open Layout Replay

variable {α : Type}

theorem arrows_lifelineFor (l : Layout α) (name : String) :
    (l.lifelineFor name).2.arrows = l.arrows := by
  unfold Layout.lifelineFor
  split <;> rfl

theorem arrows_deactivateIf (l : Layout α) (closes : Bool) (i : Nat) :
    (l.deactivateIf closes i).arrows = l.arrows := by
  cases closes <;> rfl

variable [Measure α]

/-- After some growths, a layout shows the tracks of its lifelines; the other tracks are empty, and
no growth that a box spans is negative. -/
structure Shows (settings : Settings α) (amounts : List α) (tracks : String → Track)
    (l : Layout α) : Prop where
  lifelines : ∀ line ∈ l.lifelines, line = lifeline settings amounts (tracks line.name) line.name
  height : l.height = total amounts
  distinct : l.names.Nodup
  sound : ∀ name, (tracks name).Sound amounts.length
  idle : ∀ name, name ∉ l.names → tracks name = {}
  lengthened : ∀ name, (tracks name).Lengthened amounts

/-- Closing the innermost box leaves every box as it is: it ends where the growths end so far. -/
theorem deactivate_lifeline {settings : Settings α} {amounts : List α} {t : Track}
    (h : t.Sound amounts.length) (name : String) :
    (lifeline settings amounts t name).deactivate
      = lifeline settings amounts (t.pop amounts.length) name := by
  obtain ⟨spans, openStack⟩ := t
  cases openStack with
  | nil => rfl
  | cons top rest =>
    have hboxes : (spans.modify top fun span => { span with closed := some amounts.length }).map
        (box settings amounts) = spans.map (box settings amounts) := by
      apply List.ext_getElem?
      intro i
      rw [List.getElem?_map, List.getElem?_map, List.getElem?_modify]
      cases hspan : spans[i]? with
      | none => rfl
      | some span =>
        by_cases hi : top = i
        · have hopen : span.closed = none :=
            (h.closed_iff i span hspan).2 (hi ▸ List.mem_cons_self)
          simp [hi, box, hopen]
        · simp [hi]
    exact (congrArg (Lifeline.mk name · rest) hboxes).symm

theorem activate_lifeline (settings : Settings α) (amounts : List α) (t : Track) (name : String) :
    (lifeline settings amounts t name).activate (total amounts) settings.boxWidth settings.boxInset
      = lifeline settings amounts (t.push amounts.length) name := by
  have hbox : box settings amounts ⟨amounts.length, none, t.openStack.length⟩
      = ⟨total amounts, settings.boxWidth, Measure.zero,
          Measure.times t.openStack.length settings.boxInset⟩ := by
    simp [box, total]
  simp [lifeline, Lifeline.activate, Track.push, hbox]

theorem arrows_activateIf (settings : Settings α) (l : Layout α) (opens : Bool) (i : Nat) :
    (l.activateIf settings opens i).arrows = l.arrows := by
  cases opens <;> rfl

/-- A signal that is placed, in its steps; both ends are among the names found. -/
theorem place_ok_cases {settings : Settings α} {resolve : String → String} {l l' : Layout α}
    {s : Signal} (h : Layout.place settings resolve l s = .ok l') :
    ∃ found l₁ l₂ l₃ : Layout α,
      found = ((l.lifelineFor (resolve s.source)).2.lifelineFor (resolve s.target)).2 ∧
      found.grow settings.topMargin = .ok l₁ ∧
      (l₁.deactivateIf s.deactivates (found.names.idxOf (resolve s.source))).grow
        (loop settings s) = .ok l₂ ∧
      (l₂.activateIf settings s.activates (found.names.idxOf (resolve s.target))).grow
        settings.bottomMargin = .ok l₃ ∧
      l' = { l₃ with
        arrows := l₃.arrows ++
          [⟨l₁.anchorAt (found.names.idxOf (resolve s.source)),
            (l₂.activateIf settings s.activates (found.names.idxOf (resolve s.target))).anchorAt
              (found.names.idxOf (resolve s.target)), s.message, s.dotted⟩] } := by
  have hsource : (l.lifelineFor (resolve s.source)).1
      = ((l.lifelineFor (resolve s.source)).2.lifelineFor (resolve s.target)).2.names.idxOf
          (resolve s.source) := by
    rw [lifelineFor_fst, names_lifelineFor _ (resolve s.target), idxOf_noted]
    rw [names_lifelineFor]
    exact mem_noted.2 (Or.inr rfl)
  rw [place_eq] at h
  dsimp only at h
  rw [hsource, lifelineFor_fst _ (resolve s.target)] at h
  obtain ⟨l₁, h₁, h⟩ := Halted.bind_eq_ok h
  obtain ⟨l₂, h₂, h⟩ := Halted.bind_eq_ok h
  obtain ⟨l₃, h₃, h⟩ := Halted.bind_eq_ok h
  cases h
  exact ⟨_, l₁, l₂, l₃, rfl, h₁, h₂, h₃, rfl⟩

namespace Shows

variable {settings : Settings α} {amounts : List α} {tracks : String → Track} {l : Layout α}

theorem empty (settings : Settings α) : Shows settings [] (fun _ => {}) Layout.empty where
  lifelines line h := by cases h
  height := rfl
  distinct := List.nodup_nil
  sound _ := Track.sound_empty
  idle _ _ := rfl
  lengthened _ := nofun

theorem lifelineFor (h : Shows settings amounts tracks l) (name : String) :
    Shows settings amounts tracks (l.lifelineFor name).2 := by
  by_cases hmem : name ∈ l.names
  · rw [lifelineFor_of_mem hmem]
    exact h
  · have hnames := names_lifelineFor l name
    rw [noted, if_neg hmem] at hnames
    refine ⟨?_, ?_, ?_, h.sound, ?_, h.lengthened⟩
    · intro line hline
      rw [lifelineFor_of_not_mem hmem] at hline
      rcases List.mem_append.1 hline with hold | hnew
      · exact h.lifelines line hold
      · rw [List.mem_singleton.1 hnew, h.idle name hmem]
        rfl
    · rw [lifelineFor_of_not_mem hmem]
      exact h.height
    · rw [names_lifelineFor]
      exact nodup_noted h.distinct name
    · intro other hother
      rw [hnames] at hother
      exact h.idle other fun hold => hother (List.mem_append_left _ hold)

/-- After both ends of a signal have been looked up, each of them has a lifeline. -/
theorem lookup (h : Shows settings amounts tracks l) {source target : String} {found : Layout α}
    (hfound : found = ((l.lifelineFor source).2.lifelineFor target).2) :
    Shows settings amounts tracks found ∧ source ∈ found.names ∧ target ∈ found.names ∧
      found.arrows = l.arrows := by
  have hnames : found.names = noted (noted l.names source) target := by
    rw [hfound, names_lifelineFor, names_lifelineFor]
  refine ⟨?_, ?_, ?_, ?_⟩
  · rw [hfound]
    exact (h.lifelineFor source).lifelineFor target
  · rw [hnames, mem_noted, mem_noted]
    exact Or.inl (Or.inr rfl)
  · rw [hnames, mem_noted]
    exact Or.inr rfl
  · rw [hfound, arrows_lifelineFor, arrows_lifelineFor]

/-- Where a box is open, a growth that goes through is not negative. -/
theorem isNegative_eq_false (h : Shows settings amounts tracks l) {a : α}
    {lines : List (Lifeline α)} (hlines : growLifelines a l.lifelines = .ok lines)
    {name : String} (hopen : (tracks name).openStack ≠ []) : Measure.isNegative a = false := by
  have hname : name ∈ l.names := Decidable.not_not.1 fun hidle => hopen (by rw [h.idle name hidle])
  obtain ⟨line, hline, rfl⟩ := List.mem_map.1 hname
  obtain ⟨i, hi⟩ := List.exists_mem_of_ne_nil _ hopen
  have hshown := h.lifelines line hline
  refine isNegative_of_growLifelines hlines hline (i := i) ?_ ?_
  · rw [hshown]
    exact hi
  · rw [hshown, lifeline, List.length_map]
    exact (h.sound line.name).bound i hi

/-- A growth of the layout is one more growth of its tracks. -/
theorem grow (h : Shows settings amounts tracks l) {a : α} {l' : Layout α}
    (hgrow : l.grow a = .ok l') :
    Shows settings (amounts ++ [a]) tracks l' ∧ l'.names = l.names ∧ l'.arrows = l.arrows := by
  have hnames : l'.names = l.names := by
    have hreached := names_grow l a
    rwa [hgrow] at hreached
  have hsound (name : String) : (tracks name).Sound (amounts ++ [a]).length := by
    rw [List.length_append]
    exact (h.sound name).mono (Nat.le_add_right _ _)
  have hdistinct : l'.names.Nodup := hnames ▸ h.distinct
  have hidle (name : String) (hname : name ∉ l'.names) : tracks name = {} :=
    h.idle name (hnames ▸ hname)
  unfold Layout.grow at hgrow
  cases hzero : Measure.isZero a with
  | true =>
    rw [hzero] at hgrow
    cases hgrow
    have hlengthened (name : String) : (tracks name).Lengthened (amounts ++ [a]) :=
      (h.lengthened name).concat (h.sound name) fun _ hmoving => by
        rw [hzero] at hmoving
        cases hmoving
    refine ⟨⟨?_, ?_, hdistinct, hsound, hidle, hlengthened⟩, rfl, rfl⟩
    · intro line hline
      rw [lifeline_concat_of_isZero settings hzero (h.sound line.name)]
      exact h.lifelines line hline
    · rw [total_concat, hzero]
      exact h.height
  | false =>
    rw [hzero] at hgrow
    cases hlines : growLifelines a l.lifelines with
    | error halt =>
      rw [hlines] at hgrow
      cases hgrow
    | ok lines =>
      rw [hlines] at hgrow
      cases hgrow
      have hlengthened (name : String) : (tracks name).Lengthened (amounts ++ [a]) :=
        (h.lengthened name).concat (h.sound name) fun hopen _ => h.isNegative_eq_false hlines hopen
      refine ⟨⟨?_, ?_, hdistinct, hsound, hidle, hlengthened⟩, hnames, rfl⟩
      · intro line hline
        have hnodup (old : Lifeline α) (hold : old ∈ l.lifelines) : old.openStack.Nodup := by
          rw [h.lifelines old hold]
          exact (h.sound old.name).nodup
        rw [show lines = _ from growLifelines_eq hnodup hlines] at hline
        obtain ⟨old, hold, rfl⟩ := List.mem_map.1 hline
        rw [lifeline_concat settings hzero (h.sound _)]
        exact congrArg (Lifeline.grown a) (h.lifelines old hold)
      · rw [total_concat, hzero, ← h.height]
        rfl

/-- A change of one lifeline is a change of its track alone. -/
theorem modifyLifeline (h : Shows settings amounts tracks l) {name : String}
    (hname : name ∈ l.names) {f : Lifeline α → Lifeline α} {change : Track → Track}
    (hf : ∀ t : Track, t.Sound amounts.length →
      f (lifeline settings amounts t name) = lifeline settings amounts (change t) name)
    (hsound : ∀ t : Track, t.Sound amounts.length → (change t).Sound amounts.length)
    (hlengthened : ∀ t : Track, t.Sound amounts.length → t.Lengthened amounts →
      (change t).Lengthened amounts) :
    Shows settings amounts
      (fun other => if name = other then change (tracks other) else tracks other)
      (l.modifyLifeline (l.names.idxOf name) f) := by
  have hkept : (f (lifeline settings amounts (tracks name) name)).name = name := by
    rw [hf _ (h.sound name)]
    rfl
  have hlines : (l.modifyLifeline (l.names.idxOf name) f).lifelines
      = l.lifelines.map fun line => if line.name = name then f line else line :=
    modify_idxOf h.distinct name f
  have hnames : (l.modifyLifeline (l.names.idxOf name) f).names = l.names := by
    rw [Layout.names, hlines, List.map_map]
    refine List.map_congr_left ?_
    intro line hline
    show (if line.name = name then f line else line).name = line.name
    split
    · next heq =>
      rw [h.lifelines line hline, heq, hkept]
      rfl
    · rfl
  have hdistinct : (l.modifyLifeline (l.names.idxOf name) f).names.Nodup := by
    rw [hnames]
    exact h.distinct
  refine ⟨?_, h.height, hdistinct, ?_, ?_, ?_⟩
  · intro line hline
    rw [hlines] at hline
    obtain ⟨old, hold, rfl⟩ := List.mem_map.1 hline
    have hshown := h.lifelines old hold
    by_cases heq : old.name = name
    · rw [if_pos heq, hshown, heq, hkept, if_pos rfl]
      exact hf _ (h.sound name)
    · have hne : ¬name = old.name := fun he => heq he.symm
      rw [if_neg heq, if_neg hne]
      exact hshown
  · intro other
    show (if name = other then change (tracks other) else tracks other).Sound amounts.length
    split
    · exact hsound _ (h.sound other)
    · exact h.sound other
  · intro other hother
    rw [hnames] at hother
    have hne : ¬name = other := fun he => hother (he ▸ hname)
    rw [if_neg hne]
    exact h.idle other hother
  · intro other
    show (if name = other then change (tracks other) else tracks other).Lengthened amounts
    split
    · exact hlengthened _ (h.sound other) (h.lengthened other)
    · exact h.lengthened other

theorem deactivateIf (h : Shows settings amounts tracks l) {name : String} (hname : name ∈ l.names)
    (closes : Bool) :
    Shows settings amounts
      (fun other =>
        if closes && name = other then (tracks other).pop amounts.length else tracks other)
      (l.deactivateIf closes (l.names.idxOf name)) := by
  cases closes with
  | false => simpa [Layout.deactivateIf] using h
  | true =>
    simpa [Layout.deactivateIf] using
      h.modifyLifeline hname (fun t ht => deactivate_lifeline ht name) (fun t ht => ht.pop)
        fun t ht hlengthened => hlengthened.pop ht

theorem activateIf (h : Shows settings amounts tracks l) {name : String} (hname : name ∈ l.names)
    (opens : Bool) :
    Shows settings amounts
      (fun other =>
        if opens && name = other then (tracks other).push amounts.length else tracks other)
      (l.activateIf settings opens (l.names.idxOf name)) := by
  cases opens with
  | false => simpa [Layout.activateIf] using h
  | true =>
    have hpush (t : Track) (_ : t.Sound amounts.length) :=
      h.height ▸ activate_lifeline settings amounts t name
    simpa [Layout.activateIf] using
      h.modifyLifeline hname hpush (fun t ht => ht.push) fun t _ hlengthened => hlengthened.push

/-- The end of an arrow stands at the cursor, at the innermost open box of its track. -/
theorem anchorAt (h : Shows settings amounts tracks l) {name : String} (hname : name ∈ l.names) :
    l.anchorAt (l.names.idxOf name)
      = ⟨l.names.idxOf name, (tracks name).openStack.head?, total amounts⟩ := by
  have hlt : l.names.idxOf name < l.names.length := List.idxOf_lt_length_of_mem hname
  have hat : l.names[l.names.idxOf name]? = some name := by
    rw [List.getElem?_eq_getElem hlt, List.getElem_idxOf]
  rw [Layout.names, List.getElem?_map, Option.map_eq_some_iff] at hat
  obtain ⟨line, hline, hlinename⟩ := hat
  have hshown := h.lifelines line (List.mem_of_getElem? hline)
  have hbox : l.activeBox (l.names.idxOf name) = (tracks name).openStack.head? := by
    rw [Layout.activeBox, Layout.names, hline, hshown, hlinename]
    rfl
  rw [Layout.anchorAt, hbox, h.height]

/-- One signal is one step of every track, and three growths. -/
theorem place (h : Shows settings amounts tracks l) {resolve : String → String} {s : Signal}
    {k : Nat} (hk : amounts.length = 3 * k) {l' : Layout α}
    (hplace : Layout.place settings resolve l s = .ok l') :
    Shows settings (amounts ++ growthsOf settings s)
        (fun name => (tracks name).step resolve name (s, k)) l' ∧
      l'.arrows = l.arrows ++
        [{ start :=
            { lifeline := l'.names.idxOf (resolve s.source)
              box := (tracks (resolve s.source)).openStack.head?
              y := total (amounts ++ (growthsOf settings s).take 1) }
           finish :=
            { lifeline := l'.names.idxOf (resolve s.target)
              box := ((tracks (resolve s.target)).step resolve (resolve s.target)
                (s, k)).openStack.head?
              y := total (amounts ++ (growthsOf settings s).take 2) }
           label := s.message
           dotted := s.dotted }] := by
  obtain ⟨found, l₁, l₂, l₃, hfound, h₁, h₂, h₃, rfl⟩ := place_ok_cases hplace
  obtain ⟨hshows, hsource, htarget, harrows⟩ := h.lookup hfound
  -- Before the source closes a box: its anchor is taken here.
  obtain ⟨hshows₁, hnames₁, harrows₁⟩ := hshows.grow h₁
  rw [← hnames₁] at h₂ h₃ hsource htarget ⊢
  have hlength₁ : (amounts ++ [settings.topMargin]).length = 3 * k + 1 := by simp [hk]
  have hclosed := hshows₁.deactivateIf hsource s.deactivates
  rw [hlength₁] at hclosed
  have hnamesClosed := names_deactivateIf l₁ s.deactivates (l₁.names.idxOf (resolve s.source))
  -- After the target opens a box: its anchor is taken here.
  obtain ⟨hshows₂, hnames₂, harrows₂⟩ := hclosed.grow h₂
  rw [hnamesClosed] at hnames₂
  have hlength₂ : (amounts ++ [settings.topMargin] ++ [Layout.loop settings s]).length
      = 3 * k + 2 := by simp [hk]
  rw [← hnames₂] at h₃ htarget ⊢
  have hopened := hshows₂.activateIf htarget s.activates
  rw [hlength₂] at hopened
  have hnamesOpened := names_activateIf settings l₂ s.activates (l₂.names.idxOf (resolve s.target))
  obtain ⟨hshows₃, hnames₃, harrows₃⟩ := hopened.grow h₃
  rw [hnamesOpened] at hnames₃
  have hstart : l₁.anchorAt (l₂.names.idxOf (resolve s.source))
      = ⟨l₂.names.idxOf (resolve s.source), (tracks (resolve s.source)).openStack.head?,
          total (amounts ++ [settings.topMargin])⟩ := by
    rw [hnames₂]
    exact hshows₁.anchorAt hsource
  have hfinish := hopened.anchorAt (hnamesOpened ▸ htarget)
  rw [hnamesOpened] at hfinish
  have hdone : l₃.arrows = l.arrows := by
    rw [harrows₃, arrows_activateIf, harrows₂, arrows_deactivateIf, harrows₁, harrows]
  rw [List.append_assoc, List.append_assoc] at hshows₃
  refine ⟨⟨hshows₃.lifelines, hshows₃.height, hshows₃.distinct, hshows₃.sound, hshows₃.idle,
    hshows₃.lengthened⟩, ?_⟩
  rw [List.append_assoc] at hfinish
  dsimp only
  rw [hstart, hfinish, hdone]
  show _ = l.arrows ++ [(⟨⟨l₃.names.idxOf _, _, _⟩, ⟨l₃.names.idxOf _, _, _⟩, _, _⟩ : Arrow α)]
  rw [hnames₃]
  rfl

end Shows

/-! ## The run -/

/-- The layout is the replay of some signals, part by part. -/
structure Replays (settings : Settings α) (resolve : String → String) (signals : List Signal)
    (l : Layout α) : Prop where
  tracks : Shows settings (growths settings signals) (track resolve signals) l
  names : l.names = Replay.names resolve signals
  arrows : l.arrows = signals.zipIdx.map (arrow settings resolve signals)

namespace Replays

variable {settings : Settings α} {resolve : String → String} {signals : List Signal}
  {l l' : Layout α}

theorem empty (settings : Settings α) (resolve : String → String) :
    Replays settings resolve [] Layout.empty where
  tracks := Shows.empty settings
  names := rfl
  arrows := rfl

theorem eq_layout (h : Replays settings resolve signals l) :
    l = Replay.layout settings resolve signals := by
  have hlines : l.lifelines = l.names.map fun name =>
      lifeline settings (growths settings signals) (track resolve signals name) name := by
    rw [Layout.names, List.map_map]
    exact (List.map_id l.lifelines).symm.trans (List.map_congr_left h.tracks.lifelines)
  obtain ⟨lifelines, arrows, height⟩ := l
  rw [Replay.layout, ← h.names, ← hlines, ← h.arrows, ← h.tracks.height]

theorem length_arrows (h : Replays settings resolve signals l) :
    l.arrows.length = signals.length := by
  rw [h.eq_layout, Replay.length_arrows]

theorem place (h : Replays settings resolve signals l) {s : Signal}
    (hplace : Layout.place settings resolve l s = .ok l') :
    Replays settings resolve (signals ++ [s]) l' := by
  have hlength := length_growths settings signals
  obtain ⟨htracks, harrows⟩ := h.tracks.place hlength hplace
  have hnames : l'.names = Replay.names resolve (signals ++ [s]) := by
    have hreached := names_place settings resolve l s
    rw [hplace] at hreached
    rw [names_concat, ← h.names]
    exact hreached
  refine ⟨?_, hnames, ?_⟩
  · rw [growths_concat]
    have hsteps : (fun name => (track resolve signals name).step resolve name (s, signals.length))
        = track resolve (signals ++ [s]) :=
      funext fun name => (track_concat resolve signals s name).symm
    exact hsteps ▸ htracks
  · have hzip : (signals ++ [s]).zipIdx = signals.zipIdx ++ [(s, signals.length)] := by
      simp [List.zipIdx_append]
    have hearlier : signals.zipIdx.map (arrow settings resolve (signals ++ [s])) = l.arrows := by
      rw [h.arrows]
      exact List.map_congr_left fun event hevent => arrow_concat settings resolve hevent s
    rw [harrows, hzip, List.map_append, hearlier, List.map_singleton, arrow_last, hnames]

/-- What is placed after some signals is replayed with them. -/
theorem foldlM (h : Replays settings resolve signals l) {rest : List Signal}
    (hrun : rest.foldlM (Layout.place settings resolve) l = .ok l') :
    Replays settings resolve (signals ++ rest) l' := by
  induction rest generalizing signals l with
  | nil =>
    cases hrun
    rwa [List.append_nil]
  | cons s rest ih =>
    rw [List.foldlM_cons] at hrun
    obtain ⟨next, hplace, hrest⟩ := Halted.bind_eq_ok hrun
    have hall := ih (h.place hplace) hrest
    rwa [List.append_assoc] at hall

/-- A layout that is finished replays the signals at the top level. -/
theorem of_ofChart {c : Chart} (h : Layout.ofChart settings c = .ok l) :
    Replays settings c.resolve c.topSignals l :=
  (Replays.empty settings c.resolve).foldlM h

end Replays

/-- A layout that is finished is the replay of the signals at the top level: the cursor, each box of
each lifeline and both ends of each arrow are what they are on their own. -/
theorem ofChart_eq_replay {settings : Settings α} {c : Chart} {l : Layout α}
    (h : Layout.ofChart settings c = .ok l) :
    l = Replay.layout settings c.resolve c.topSignals :=
  (Replays.of_ofChart h).eq_layout

/-- The second signal is a self signal of an alias: its box stands in the one that the first signal
opened under the other name, and the third signal closes it. -/
theorem ofChart_eq_replay_nested :
    ∃ (c : Chart) (l : Layout Rat), Layout.ofChart ⟨16, 32, 8⟩ c = .ok l ∧
      l = Replay.layout ⟨16, 32, 8⟩ c.resolve c.topSignals ∧
      l.lifelines =
        [⟨"a", [], []⟩, ⟨"b", [⟨20, 32, 104, 0⟩, ⟨72, 32, 36, 8⟩], [0]⟩] := by
  let signal (source target : String) (activates deactivates : Bool) : Statement :=
    .signal { source, target, head := some .closed, activates, deactivates }
  let c : Chart :=
    { statements :=
        [signal "a" "b" true false, signal "x" "x" true false, signal "x" "a" false true]
      aliases := Table.empty.insert "x" "b" }
  let settings : Settings Rat := ⟨16, 32, 8⟩
  have hrun : ((Layout.ofChart settings c).toOption.map fun l => l.lifelines) =
      some [⟨"a", [], []⟩, ⟨"b", [⟨20, 32, 104, 0⟩, ⟨72, 32, 36, 8⟩], [0]⟩] := by
    decide +kernel
  cases hlayout : Layout.ofChart settings c with
  | error halt =>
    rw [hlayout] at hrun
    cases hrun
  | ok l =>
    rw [hlayout] at hrun
    exact ⟨c, l, hlayout, ofChart_eq_replay hlayout, Option.some.inj hrun⟩

end SequenceChart
