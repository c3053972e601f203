import Mathlib.Algebra.BigOperators.Group.List.Basic
import Mathlib.Algebra.GroupWithZero.Nat
import SequenceChart.Proofs.Chart.Items
import SequenceChart.Proofs.Geometry.Simulation
import SequenceChart.Proofs.Reading.Explains
set_option autoImplicit false

/-!
# Every signal is drawn, reported or silent

A layout draws the signals at the top level, and an audit reports the signals inside the blocks
there.  Main statement: what neither of them counts are the signals inside the groups at the top
level, so no signal is dropped silently exactly if those groups have none.  A group that was read
from a source has none; other charts may have groups with signals, which no warning is about.
-/

namespace SequenceChart

namespace Audit

/-- The number of signals that a warning reports as not laid out. -/
def Warning.count : Warning → Nat
  | unplacedSignals count _ => count
  | _ => 0

/-- The number of signals that an audit reports as not laid out. -/
def reported (a : Audit) : Nat := (a.warnings.map Warning.count).sum

end Audit

/-- The signals of a statement that is a group. -/
def Statement.groupSignals : Statement → List Signal
  | .group branches => Block.allSignals branches
  | _ => []

namespace Chart

/-- The signals in the groups at the top level. -/
def groupSignals (c : Chart) : List Signal := c.statements.flatMap Statement.groupSignals

/-- A block is reported with all its signals, and not at all if it has none. -/
theorem sum_blockWarnings (b : Block) :
    ((Audit.blockWarnings (.block b)).map Audit.Warning.count).sum = b.signals.length := by
  unfold Audit.blockWarnings
  dsimp only
  split
  · next hnone =>
    rw [hnone]
    rfl
  · exact List.sum_singleton

/-- Each signal of some statements stands at the top level, in a block there or in a group there. -/
theorem length_allSignals (statements : List Statement) :
    (Statement.allSignals statements).length
      = ({ statements } : Chart).topSignals.length
        + ((statements.flatMap Audit.blockWarnings).map Audit.Warning.count).sum
        + (statements.flatMap Statement.groupSignals).length := by
  induction statements with
  | nil => rfl
  | cons first rest ih =>
    rw [Statement.allSignals, List.length_append, ih, List.flatMap_cons, List.flatMap_cons,
      List.map_append, List.sum_append, List.length_append]
    cases first with
    | signal s =>
      have htop : ({ statements := .signal s :: rest } : Chart).topSignals.length
          = 1 + ({ statements := rest } : Chart).topSignals.length := Nat.add_comm _ 1
      have hone : (Statement.signal s).signals.length = 1 := rfl
      have hwarned : ((Audit.blockWarnings (.signal s)).map Audit.Warning.count).sum = 0 := rfl
      have hgroup : (Statement.signal s).groupSignals.length = 0 := rfl
      omega
    | block b =>
      have htop : ({ statements := .block b :: rest } : Chart).topSignals
          = ({ statements := rest } : Chart).topSignals := rfl
      have hall : (Statement.block b).signals.length = b.signals.length := rfl
      have hwarned := sum_blockWarnings b
      have hgroup : (Statement.block b).groupSignals.length = 0 := rfl
      rw [htop]
      omega
    | group branches =>
      have htop : ({ statements := .group branches :: rest } : Chart).topSignals
          = ({ statements := rest } : Chart).topSignals := rfl
      have hall : (Statement.group branches).signals.length
          = (Statement.group branches).groupSignals.length := rfl
      have hwarned : ((Audit.blockWarnings (.group branches)).map Audit.Warning.count).sum = 0 :=
        rfl
      rw [htop]
      omega

/-- A warning about an alias counts no signal. -/
theorem count_of_mem_aliasWarnings {c : Chart} {entry : String × String} {warning : Audit.Warning}
    (h : warning ∈ Audit.aliasWarnings c entry) : warning.count = 0 := by
  rcases List.mem_append.1 h with hchain | hshadow
  · split at hchain
    · rw [List.mem_singleton.1 hchain]
      rfl
    · cases hchain
  · split at hshadow
    · rw [List.mem_singleton.1 hshadow]
      rfl
    · cases hshadow

/-- Only the blocks at the top level are reported. -/
theorem reported_ofChart (c : Chart) :
    (Audit.ofChart c).reported
      = ((c.statements.flatMap Audit.blockWarnings).map Audit.Warning.count).sum := by
  have hnone : ∀ n ∈ (c.aliases.entries.flatMap (Audit.aliasWarnings c)).map Audit.Warning.count,
      n = 0 := by
    intro n hn
    obtain ⟨warning, hwarning, rfl⟩ := List.mem_map.1 hn
    obtain ⟨entry, -, hentry⟩ := List.mem_flatMap.1 hwarning
    exact count_of_mem_aliasWarnings hentry
  rw [Audit.reported, Audit.ofChart, List.map_append, List.sum_append, List.sum_eq_zero hnone,
    Nat.zero_add]

/-- There are silent signals unless the groups at the top level have none. -/
theorem groupSignals_eq_nil_iff (c : Chart) : c.groupSignals = [] ↔
    ∀ branches, .group branches ∈ c.statements → Block.allSignals branches = [] := by
  rw [groupSignals, List.flatMap_eq_nil_iff]
  constructor
  · intro h branches hmem
    exact h _ hmem
  · intro h statement hmem
    cases statement with
    | signal s => rfl
    | block b => rfl
    | group branches => exact h branches hmem

/-- Every signal is drawn, or it is reported, or it is in a group at the top level. -/
theorem drawn_add_reported_add {α : Type} [Measure α] {settings : Settings α} {c : Chart}
    {l : Layout α} (h : Layout.ofChart settings c = .ok l) :
    l.arrows.length + (Audit.ofChart c).reported + c.groupSignals.length
      = (Statement.allSignals c.statements).length := by
  rw [(Replays.of_ofChart h).length_arrows, reported_ofChart, length_allSignals]
  rfl

/-- A group that a derivation writes has no signal: its branches are empty. -/
theorem groupSignals_statement (p : StatementPhrase) : p.statement.groupSignals = [] := by
  cases p with
  | opt word condition body stop => rfl
  | signal p => rfl
  | alt word condition more stop =>
    show Block.allSignals (more.map ElsePhrase.block) = []
    induction more with
    | nil => rfl
    | cons branch more ih => exact ih

/-- In a chart that was read every signal is drawn or reported. -/
theorem drawn_add_reported_of_ofTokens {α : Type} [Measure α] {settings : Settings α}
    {ts : List Token} {c : Chart} (hread : ofTokens ts = .ok c) {l : Layout α}
    (h : Layout.ofChart settings c = .ok l) :
    l.arrows.length + (Audit.ofChart c).reported = (Statement.allSignals c.statements).length := by
  obtain ⟨phrases, -, rfl⟩ := derives_of_ofTokens hread
  have hsilent : (ofItems (phrases.map Phrase.item)).groupSignals = [] := by
    rw [groupSignals, statements_ofItems, List.flatMap_eq_nil_iff]
    intro statement hmem
    obtain ⟨item, hitem, hstatement⟩ := List.mem_filterMap.1 hmem
    obtain ⟨phrase, -, rfl⟩ := List.mem_map.1 hitem
    cases phrase with
    | title word text => cases hstatement
    | participant word name alias? => cases hstatement
    | statement p =>
      cases hstatement
      exact groupSignals_statement p
  have hall := drawn_add_reported_add h
  rwa [hsilent, List.length_nil, Nat.add_zero] at hall

end Chart

/-- The signals that are drawn and those that are reported are all signals exactly if no group at
the top level has a signal; those are counted nowhere. -/
theorem drawn_add_reported_eq_iff {α : Type} [Measure α] {settings : Settings α} {c : Chart}
    {l : Layout α} (h : Layout.ofChart settings c = .ok l) :
    l.arrows.length + (Audit.ofChart c).reported + c.groupSignals.length
        = (Statement.allSignals c.statements).length ∧
      (l.arrows.length + (Audit.ofChart c).reported = (Statement.allSignals c.statements).length ↔
        ∀ branches, .group branches ∈ c.statements → Block.allSignals branches = []) := by
  have hall := Chart.drawn_add_reported_add h
  refine ⟨hall, ?_⟩
  rw [← Chart.groupSignals_eq_nil_iff, ← List.length_eq_zero_iff]
  omega

/-- A group inside a block is reported with the block, and one at the top level that has no signal
leaves nothing out. -/
theorem drawn_add_reported_eq_iff_inner :
    let signal : Statement := .signal { source := "a", target := "b", head := some .closed }
    let inner : Statement := .group [⟨.alt, none, [signal]⟩]
    let c : Chart := { statements := [signal, .block ⟨.opt, none, [signal, inner]⟩, .group []] }
    ∃ l : Layout Rat, Layout.ofChart ⟨16, 32, 8⟩ c = .ok l ∧ l.arrows.length = 1 ∧
      l.arrows.length + (Audit.ofChart c).reported = (Statement.allSignals c.statements).length ∧
      (Statement.allSignals c.statements).length = 3 := by
  intro signal inner c
  let settings : Settings Rat := ⟨16, 32, 8⟩
  have hrun : ((Layout.ofChart settings c).toOption.map fun l => l.arrows.length) = some 1 := by
    decide +kernel
  have hgroups : ∀ branches, .group branches ∈ c.statements → Block.allSignals branches = [] := by
    intro branches hmem
    simp only [c, signal, List.mem_cons, List.not_mem_nil, or_false, reduceCtorEq, false_or,
      Statement.group.injEq] at hmem
    rw [hmem, Block.allSignals]
  cases hlayout : Layout.ofChart settings c with
  | error halt =>
    rw [hlayout] at hrun
    cases hrun
  | ok l =>
    rw [hlayout] at hrun
    exact ⟨l, rfl, Option.some.inj hrun, (drawn_add_reported_eq_iff hlayout).2.2 hgroups, rfl⟩

/-- A signal in a group at the top level is neither drawn nor reported. -/
theorem drawn_add_reported_ne_group :
    let c : Chart :=
      { statements :=
          [.group [⟨.alt, none, [.signal { source := "a", target := "b", head := some .closed }]⟩]]
        participants := (Table.empty.insert "a" Chart.defaultRole).insert "b" Chart.defaultRole }
    Layout.ofChart (⟨16, 32, 8⟩ : Settings Rat) c = .ok Layout.empty ∧
      Audit.ofChart c = ⟨[], []⟩ ∧
      (Layout.empty : Layout Rat).arrows.length + (Audit.ofChart c).reported
        ≠ (Statement.allSignals c.statements).length := by
  decide +kernel

end SequenceChart
