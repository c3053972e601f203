import SequenceChart.Pipeline
import SequenceChart.Proofs.Chart.Consistent
import SequenceChart.Proofs.Geometry.Depicted
import SequenceChart.Proofs.Written.Derived
set_option autoImplicit false

/-!
# Names that are bound anew

A name is resolved twice: where it is read, with the aliases bound so far, and when its signal is
laid out, with the final ones.  Main statement: in a chart without warnings the two differ only if
the name was an alias where it was read and a later declaration binds it to another participant.
A name that was none is registered as a participant where it is read, so that to bind it later is
to shadow a participant, which is warned about.  Nothing warns about binding an alias anew.
-/

namespace SequenceChart

/-- The participant that an item binds a name to. -/
def Item.binding? (name : String) : Item → Option String
  | .participant target (some short) => if name = short then some target else none
  | _ => none

namespace Document

/-- The participant that the last of the items to bind a name binds it to. -/
def binding? (items : List Item) (name : String) : Option String :=
  (items.filterMap (Item.binding? name)).getLast?

/-- A name that the items before a place bind is bound to another participant after it. -/
def Rebound (before after : List Item) (name target : String) : Prop :=
  binding? after name = some target ∧ ∃ old, binding? before name = some old ∧ old ≠ target

end Document

/-- An end of an arrow stands where its name was read: on the lifeline of the participant that the
name stood for then, or, if it is rebound after that, on that of the participant it is bound to
last. -/
def Layout.StandsAsRead {α : Type} (l : Layout α) (before after : List Item) (name : String)
    (a : Anchor α) : Prop :=
  (∃ target, Document.Rebound before after name target ∧ l.StandsOn target a) ∨
    (∀ target, ¬Document.Rebound before after name target) ∧
      l.StandsOn ((Chart.ofItems before).resolve name) a

/-- An arrow is that of a signal that was read between some items: it has its message and its line,
its ends stand where their names were read, and the participants that the names stood for then were
registered with the signal. -/
structure Layout.DrawsAsRead {α : Type} (l : Layout α) (before : List Item) (s : Signal)
    (after : List Item) (arrow : Arrow α) : Prop where
  label : arrow.label = s.message
  dotted : arrow.dotted = s.dotted
  source : (Chart.ofItems (before ++ [.statement (.signal s)])).isParticipant
    ((Chart.ofItems before).resolve s.source)
  target : (Chart.ofItems (before ++ [.statement (.signal s)])).isParticipant
    ((Chart.ofItems before).resolve s.target)
  start : l.StandsAsRead before after s.source arrow.start
  finish : l.StandsAsRead before after s.target arrow.finish

/-- Each arrow is that of the item with as many signals before it. -/
def Layout.DrawsItems {α : Type} (l : Layout α) (items : List Item) : Prop :=
  ∀ (k : Nat) (arrow : Arrow α), l.arrows[k]? = some arrow →
    ∃ before s after, items = before ++ .statement (.signal s) :: after ∧
      (Chart.ofItems before).topSignals.length = k ∧ l.DrawsAsRead before s after arrow

namespace Chart

/-! ## The last binding counts -/

theorem alias?_add (c : Chart) (item : Item) (name : String) :
    (c.add item).alias? name = (item.binding? name).or (c.alias? name) := by
  cases item with
  | title text => rfl
  | participant target short? =>
    cases short? with
    | none => rfl
    | some short =>
      have hget : ((c.addParticipant target).addAlias short target).alias? name
          = if name = short then some target else c.alias? name :=
        Table.get?_insert c.aliases short target name
      rw [add, hget, Item.binding?]
      split <;> rfl
  | statement s => exact alias?_foldl_mentionEnds s.signals c name

/-- Under a name stands its last binding among the items, or what stood there before. -/
theorem alias?_foldl_add (items : List Item) (c : Chart) (name : String) :
    (items.foldl add c).alias? name = (Document.binding? items name).or (c.alias? name) := by
  induction items generalizing c with
  | nil => rfl
  | cons item items ih =>
    rw [List.foldl_cons, ih, alias?_add, Document.binding?, Document.binding?]
    cases hbound : item.binding? name <;> simp [hbound, List.getLast?_cons]

theorem alias?_ofItems (items : List Item) (name : String) :
    (ofItems items).alias? name = Document.binding? items name := by
  rw [ofItems, alias?_foldl_add]
  exact Option.or_none

/-- A statement binds nothing. -/
theorem alias?_ofItems_append (before : List Item) (s : Statement) (after : List Item)
    (name : String) :
    (ofItems (before ++ .statement s :: after)).alias? name
      = (Document.binding? after name).or ((ofItems before).alias? name) := by
  have hplace : ((ofItems before).add (.statement s)).alias? name = (ofItems before).alias? name :=
    alias?_foldl_mentionEnds s.signals (ofItems before) name
  rw [ofItems, List.foldl_append, List.foldl_cons, alias?_foldl_add, ← ofItems, hplace]

/-- In the end a name stands for what the last item to bind it binds it to, whether that item is
after a statement or before it. -/
theorem resolve_ofItems_append (before : List Item) (s : Statement) (after : List Item)
    (name : String) :
    (ofItems (before ++ .statement s :: after)).resolve name
      = (Document.binding? after name).getD ((ofItems before).resolve name) := by
  rw [resolve, alias?_ofItems_append, resolve]
  cases Document.binding? after name <;> rfl

/-! ## A name that was no alias is a participant -/

theorem isParticipant_add {c : Chart} {name : String} (h : c.isParticipant name) (item : Item) :
    (c.add item).isParticipant name := by
  cases item with
  | title text => exact h
  | participant target short? =>
    cases short? with
    | none => exact isParticipant_addParticipant_of h target
    | some short => exact isParticipant_addParticipant_of h target
  | statement s => exact isParticipant_foldl_mentionEnds h s.signals

theorem isParticipant_foldl_add {c : Chart} {name : String} (h : c.isParticipant name)
    (items : List Item) : (items.foldl add c).isParticipant name := by
  induction items generalizing c with
  | nil => exact h
  | cons item items ih => exact ih (isParticipant_add h item)

/-- The ends of a signal are registered with it, under the names that they stand for there. -/
theorem isParticipant_resolve_of_mem (before : List Item) {s : Statement} {signal : Signal}
    (hmem : signal ∈ s.signals) {name : String}
    (hname : name = signal.source ∨ name = signal.target) :
    (ofItems (before ++ [.statement s])).isParticipant ((ofItems before).resolve name) := by
  have hends := known_foldl_mentionEnds s.signals (ofItems before) signal hmem
  have hknown : (s.signals.foldl mentionEnds (ofItems before)).Known name := by
    rcases hname with rfl | rfl
    · exact hends.1
    · exact hends.2
  rw [Known, resolve, alias?_foldl_mentionEnds, ← resolve] at hknown
  rw [ofItems, List.foldl_append]
  exact hknown

/-- Without a warning no alias is a participant. -/
theorem not_isParticipant_of_alias? {c : Chart} (hsilent : (Audit.ofChart c).warnings = [])
    {name target : String} (h : c.alias? name = some target) : ¬c.isParticipant name := by
  intro hparticipant
  have hmem : (name, target) ∈ c.aliases.entries := Table.mem_of_get? h
  have hwarnings : c.aliases.entries.flatMap (Audit.aliasWarnings c) = [] :=
    (List.append_eq_nil_iff.1 hsilent).1
  have hnone : Audit.aliasWarnings c (name, target) = [] :=
    List.flatMap_eq_nil_iff.1 hwarnings _ hmem
  have hshadow := (List.append_eq_nil_iff.1 hnone).2
  rw [if_pos hparticipant] at hshadow
  cases hshadow

/-- Without a warning a name that a signal used is bound later only if it was bound before. -/
theorem binding?_before_of_after {before after : List Item} {s : Statement}
    (hsilent : (Audit.ofChart (ofItems (before ++ .statement s :: after))).warnings = [])
    {signal : Signal} (hmem : signal ∈ s.signals) {name target : String}
    (hname : name = signal.source ∨ name = signal.target)
    (hafter : Document.binding? after name = some target) :
    ∃ old, Document.binding? before name = some old := by
  cases hbefore : Document.binding? before name with
  | some old => exact ⟨old, rfl⟩
  | none =>
    have hitself : (ofItems before).resolve name = name := by
      rw [resolve, alias?_ofItems, hbefore, Option.getD_none]
    have hparticipant : (ofItems (before ++ .statement s :: after)).isParticipant name := by
      have hthen := isParticipant_resolve_of_mem before hmem hname
      rw [hitself] at hthen
      rw [← List.singleton_append, ← List.append_assoc, ofItems, List.foldl_append]
      exact isParticipant_foldl_add hthen after
    have halias : (ofItems (before ++ .statement s :: after)).alias? name = some target := by
      rw [alias?_ofItems_append, hafter, Option.some_or]
    exact absurd hparticipant (not_isParticipant_of_alias? hsilent halias)

/-- A name that is rebound stands for what it is bound to last. -/
theorem resolve_of_rebound {before after : List Item} {name target : String}
    (h : Document.Rebound before after name target) (s : Statement) :
    (ofItems (before ++ .statement s :: after)).resolve name = target := by
  rw [resolve_ofItems_append, h.1, Option.getD_some]

/-- Without a warning, a name that a signal used and that is not rebound after it stands for the
same in the end. -/
theorem resolve_of_not_rebound {before after : List Item} {s : Statement}
    (hsilent : (Audit.ofChart (ofItems (before ++ .statement s :: after))).warnings = [])
    {signal : Signal} (hmem : signal ∈ s.signals) {name : String}
    (hname : name = signal.source ∨ name = signal.target)
    (h : ∀ target, ¬Document.Rebound before after name target) :
    (ofItems (before ++ .statement s :: after)).resolve name = (ofItems before).resolve name := by
  rw [resolve_ofItems_append]
  cases hafter : Document.binding? after name with
  | none => rfl
  | some target =>
    obtain ⟨old, hbefore⟩ := binding?_before_of_after hsilent hmem hname hafter
    -- It is bound anew, but to the same participant.
    have hsame : old = target := by
      by_contra hne
      exact h target ⟨hafter, old, hbefore, hne⟩
    rw [resolve, alias?_ofItems, hbefore, hsame]
    rfl

end Chart

/-- Without a warning, what stands at the end of a signal stands where the name was read. -/
theorem Layout.StandsOn.standsAsRead {α : Type} {l : Layout α} {before after : List Item}
    {s : Statement}
    (hsilent : (Audit.ofChart (Chart.ofItems (before ++ .statement s :: after))).warnings = [])
    {signal : Signal} (hmem : signal ∈ s.signals) {name : String}
    (hname : name = signal.source ∨ name = signal.target) {a : Anchor α}
    (h : l.StandsOn ((Chart.ofItems (before ++ .statement s :: after)).resolve name) a) :
    l.StandsAsRead before after name a := by
  by_cases hrebound : ∃ target, Document.Rebound before after name target
  · obtain ⟨target, htarget⟩ := hrebound
    rw [Chart.resolve_of_rebound htarget s] at h
    exact Or.inl ⟨target, htarget, h⟩
  · have hkept : ∀ target, ¬Document.Rebound before after name target := not_exists.1 hrebound
    rw [Chart.resolve_of_not_rebound hsilent hmem hname hkept] at h
    exact Or.inr ⟨hkept, h⟩

/-! ## Signals and their items -/

/-- The signal that an item is. -/
def Item.signal? : Item → Option Signal
  | .statement (.signal s) => some s
  | _ => none

namespace Chart

theorem topSignals_ofItems (items : List Item) :
    (ofItems items).topSignals = items.filterMap Item.signal? := by
  rw [topSignals, statements_ofItems, Document.statements, List.filterMap_filterMap]
  congr 1
  funext item
  cases item with
  | title text => rfl
  | participant name alias? => rfl
  | statement s => cases s <;> rfl

/-- A signal at the top level is an item, and the signals before it are those of the items before
it. -/
theorem exists_item_of_topSignals {items : List Item} {k : Nat} {s : Signal}
    (h : (ofItems items).topSignals[k]? = some s) :
    ∃ before after, items = before ++ .statement (.signal s) :: after ∧
      (ofItems before).topSignals.length = k := by
  obtain ⟨hk, hs⟩ := List.getElem?_eq_some_iff.1 h
  have hsplit : items.filterMap Item.signal?
      = (ofItems items).topSignals.take k ++ s :: (ofItems items).topSignals.drop (k + 1) := by
    rw [← topSignals_ofItems, ← hs, List.getElem_cons_drop, List.take_append_drop]
  obtain ⟨first, rest, rfl, hfirst, hrest⟩ := List.filterMap_eq_append_iff.1 hsplit
  obtain ⟨skipped, item, after, rfl, hskipped, hitem, -⟩ := List.filterMap_eq_cons_iff.1 hrest
  have hsignal : item = .statement (.signal s) := by
    unfold Item.signal? at hitem
    split at hitem
    · cases hitem
      rfl
    · cases hitem
  refine ⟨first ++ skipped, after, ?_, ?_⟩
  · rw [hsignal, List.append_assoc]
  · rw [topSignals_ofItems, List.filterMap_append, hfirst, List.filterMap_eq_nil_iff.2 hskipped,
      List.append_nil, List.length_take, Nat.min_eq_left (Nat.le_of_lt hk)]

end Chart

/-- The arrows of a layout are those of the signals of a source, each of which stands as it was
read, if the chart of the source has no warning. -/
theorem drawsItems_of_ofSource {α : Type} [Measure α] {source : String} {c : Chart}
    (hread : Chart.ofSource source = .ok c) (hsilent : (Audit.ofChart c).warnings = [])
    {settings : Settings α} {l : Layout α} (h : Layout.ofChart settings c = .ok l) :
    ∃ tokens phrases, tokenize source = .ok tokens ∧ Derives phrases tokens ∧
      c = Chart.ofItems (phrases.map Phrase.item) ∧ l.DrawsItems (phrases.map Phrase.item) := by
  obtain ⟨tokens, phrases, htokens, hderives, rfl⟩ := Chart.derives_of_ofSource hread
  refine ⟨tokens, phrases, htokens, hderives, rfl, ?_⟩
  generalize phrases.map Phrase.item = items at *
  intro k arrow harrow
  have hreplays := Replays.of_ofChart h
  have hk : k < (Chart.ofItems items).topSignals.length := by
    rw [← hreplays.length_arrows]
    exact (List.getElem?_eq_some_iff.1 harrow).1
  have hs := List.getElem?_eq_getElem hk
  generalize (Chart.ofItems items).topSignals[k] = s at hs
  have hdraws : l.Draws (Chart.ofItems items) s arrow := by
    rw [hreplays.eq_layout] at harrow ⊢
    rw [Replay.getElem?_arrows, hs] at harrow
    cases harrow
    exact Replay.draws_layout hs
  obtain ⟨before, after, rfl, hbefore⟩ := Chart.exists_item_of_topSignals hs
  have hmem : s ∈ (Statement.signal s).signals := List.mem_singleton.2 rfl
  refine ⟨before, s, after, rfl, hbefore, ?_⟩
  exact
    { label := hdraws.label
      dotted := hdraws.dotted
      source := Chart.isParticipant_resolve_of_mem before hmem (Or.inl rfl)
      target := Chart.isParticipant_resolve_of_mem before hmem (Or.inr rfl)
      start := hdraws.start.standsAsRead hsilent hmem (Or.inl rfl)
      finish := hdraws.finish.standsAsRead hsilent hmem (Or.inr rfl) }

/-- After the signal, the name at its start is bound anew to another participant and the name at its
end to the same one. -/
theorem drawsItems_of_ofSource_again :
    let source :=
      "participant A as X\nparticipant D as Y\nX->Y\nparticipant C as X\nparticipant D as Y"
    ∃ (c : Chart) (l : Layout Rat) (tokens : List Token) (phrases : List Phrase),
      Chart.ofSource source = .ok c ∧ (Audit.ofChart c).warnings = [] ∧
      Layout.ofChart ⟨16, 32, 8⟩ c = .ok l ∧ l.lifelines.map Lifeline.name = ["C", "D"] ∧
      tokenize source = .ok tokens ∧ Derives phrases tokens ∧
      c = Chart.ofItems (phrases.map Phrase.item) ∧ l.DrawsItems (phrases.map Phrase.item) := by
  intro source
  let settings : Settings Rat := ⟨16, 32, 8⟩
  have hrun : ((Chart.ofSource source).toOption.map fun c => ((Audit.ofChart c).warnings,
      (Layout.ofChart settings c).toOption.map fun l => l.lifelines.map Lifeline.name))
      = some ([], some ["C", "D"]) := by
    decide +kernel
  cases hread : Chart.ofSource source with
  | error why =>
    rw [hread] at hrun
    cases hrun
  | ok c =>
    rw [hread] at hrun
    obtain ⟨hsilent, hnames⟩ := Prod.mk.inj (Option.some.inj hrun)
    cases hlayout : Layout.ofChart settings c with
    | error halt =>
      rw [hlayout] at hnames
      cases hnames
    | ok l =>
      rw [hlayout] at hnames
      obtain ⟨tokens, phrases, hdraws⟩ := drawsItems_of_ofSource hread hsilent hlayout
      exact ⟨c, l, tokens, phrases, rfl, hsilent, hlayout, Option.some.inj hnames, hdraws⟩

/-- Without a warning, an arrow starts on another lifeline than that of the participant that its
signal was read and registered with. -/
theorem not_standsOn_rebound :
    let source := "participant A as X\nX->B\nparticipant C as X"
    let before : List Item := [.participant "A" (some "X")]
    let signal : Signal := { source := "X", target := "B", head := some .closed }
    let after : List Item := [.participant "C" (some "X")]
    ∃ (c : Chart) (l : Layout Rat) (tokens : List Token) (phrases : List Phrase)
        (arrow : Arrow Rat),
      Chart.ofSource source = .ok c ∧ (Audit.ofChart c).warnings = [] ∧
      Layout.ofChart ⟨16, 32, 8⟩ c = .ok l ∧ tokenize source = .ok tokens ∧
      Derives phrases tokens ∧
      phrases.map Phrase.item = before ++ .statement (.signal signal) :: after ∧
      l.arrows = [arrow] ∧ (Chart.ofItems before).topSignals = [] ∧
      (Chart.ofItems before).resolve signal.source = "A" ∧ ¬l.StandsOn "A" arrow.start := by
  intro source before signal after
  let items : List Item := before ++ .statement (.signal signal) :: after
  let tight : Spacing := ⟨fun _ => "", fun _ c hc => nomatch hc⟩
  have htext : Document.text (fun _ => tight) items ++ "" = source := by decide +kernel
  have hwritable : items.all Item.isWritable := by decide
  obtain ⟨tokens, phrases, htokens, hderives, hitems⟩ :=
    exists_derives_text hwritable (fun _ => tight) (Or.inl rfl)
  rw [htext] at htokens
  have hread := ofSource_of_derives htokens hderives
  rw [hitems] at hread
  let l : Layout Rat :=
    { lifelines := [⟨"C", [], []⟩, ⟨"B", [], []⟩]
      arrows := [⟨⟨0, none, 20⟩, ⟨1, none, 20⟩, none, false⟩]
      height := 36 }
  refine ⟨Chart.ofItems items, l, tokens, phrases, _, hread, by decide +kernel, by decide +kernel,
    htokens, hderives, hitems, rfl, rfl, rfl, ?_⟩
  rintro ⟨line, hline, hname, -⟩
  cases hline
  exact absurd hname (by decide)

end SequenceChart
