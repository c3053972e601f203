import SequenceChart.Chart.Basic
set_option autoImplicit false

/-!
# Documents

A source is a list of items in document order: titles, participant declarations and statements.
Putting the items together gives the chart: the last title counts, a declaration registers its
participant and binds its alias, and a signal registers both ends under the names that the aliases
declared before it give them.
-/

namespace SequenceChart

/-- One top-level construct of a source. -/
inductive Item where
  | title (text : String)
  | participant (name : String) (alias? : Option String)
  | statement (s : Statement)

namespace Item

instance : Inhabited Item := ⟨.title ""⟩

end Item

namespace Chart

/-- Registers the participant that a written name stands for, unless it is registered already. -/
def mention (c : Chart) (name : String) : Chart :=
  if c.isParticipant (c.resolve name) then c else c.addParticipant (c.resolve name)

/-- Registers both ends of a signal, the source first. -/
def mentionEnds (c : Chart) (s : Signal) : Chart := (c.mention s.source).mention s.target

/-- Takes the next item of a document into the chart. -/
def add (c : Chart) : Item → Chart
  | .title text => { c with title := some text }
  | .participant name none => c.addParticipant name
  | .participant name (some short) => (c.addParticipant name).addAlias short name
  | .statement s => { s.signals.foldl mentionEnds c with statements := c.statements ++ [s] }

/-- The chart of a document. -/
def ofItems (items : List Item) : Chart := items.foldl add {}

end Chart

end SequenceChart
