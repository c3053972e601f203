import SequenceChart.Chart.Table
import SequenceChart.Source.Token
set_option autoImplicit false

/-!
# Charts

A chart is a tree of statements with a title and two name tables.  A statement is a signal between
two participants, a labelled block of statements, or a group of blocks that are alternatives.
Names in signals are kept as written; an alias is resolved when a participant is looked up, in a
single step.
-/

namespace SequenceChart

/-- A message from one participant to another: the shapes of its two ends, whether its line is
dotted, and whether it opens an activation at its target or closes one at its source. -/
structure Signal where
  source : String
  target : String
  tail : Option ArrowEnd := none
  head : Option ArrowEnd := none
  dotted : Bool := false
  message : Option String := none
  activates : Bool := false
  deactivates : Bool := false
  deriving DecidableEq, Repr, Inhabited

namespace Signal

/-- Both ends are written alike. -/
def isSelfSignal (s : Signal) : Bool := s.source = s.target

end Signal

/-- What a block is labelled with. -/
inductive BlockLabel where
  | opt | alt | else_
  deriving DecidableEq, Repr, Inhabited

/-- The word of a label. -/
def BlockLabel.text : BlockLabel → String
  | opt => "opt"
  | alt => "alt"
  | else_ => "else"

mutual

/-- A statement of a chart. -/
inductive Statement where
  | signal (s : Signal)
  | block (b : Block)
  | group (branches : List Block)

/-- A labelled block with an optional condition. -/
structure Block where
  label : BlockLabel
  condition : Option String
  body : List Statement

end

instance : Inhabited Statement := ⟨.group []⟩

instance : Inhabited Block := ⟨⟨.opt, none, []⟩⟩

mutual

/-- The signals of a statement in document order, at every depth. -/
def Statement.signals : Statement → List Signal
  | .signal s => [s]
  | .block b => b.signals
  | .group branches => Block.allSignals branches

/-- The signals of a block. -/
def Block.signals : Block → List Signal
  | ⟨_, _, body⟩ => Statement.allSignals body

/-- The signals of a list of statements. -/
def Statement.allSignals : List Statement → List Signal
  | [] => []
  | s :: rest => s.signals ++ Statement.allSignals rest

/-- The signals of a list of blocks. -/
def Block.allSignals : List Block → List Signal
  | [] => []
  | b :: rest => b.signals ++ Block.allSignals rest

end

/-- A chart: its title, its statements in document order, the role of every participant and the
participant behind every alias. -/
structure Chart where
  title : Option String := none
  statements : List Statement := []
  participants : Table := .empty
  aliases : Table := .empty

namespace Chart

instance : Inhabited Chart := ⟨{}⟩

/-- The role of a participant that is given none. -/
def defaultRole : String := "entity"

/-- The role of a participant. -/
def participant? (c : Chart) (name : String) : Option String := c.participants.get? name

/-- The name behind an alias. -/
def alias? (c : Chart) (name : String) : Option String := c.aliases.get? name

/-- The name is a participant's. -/
def isParticipant (c : Chart) (name : String) : Bool := c.participants.contains name

/-- Registers a participant, or gives it another role. -/
def addParticipant (c : Chart) (name : String) (role : String := defaultRole) : Chart :=
  { c with participants := c.participants.insert name role }

/-- Binds an alias, or binds it anew. -/
def addAlias (c : Chart) (name target : String) : Chart :=
  { c with aliases := c.aliases.insert name target }

/-- The participant that a written name stands for.  An alias is looked up once: what it is bound
to is not looked up again. -/
def resolve (c : Chart) (name : String) : String := (c.alias? name).getD name

/-- The signals that stand at the top level. -/
def topSignals (c : Chart) : List Signal :=
  c.statements.filterMap fun
    | .signal s => some s
    | _ => none

end Chart

end SequenceChart
