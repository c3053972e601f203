import SequenceChart.Chart.Basic
set_option autoImplicit false

/-!
# Auditing a chart

An audit finds what a layout cannot place and names that may be resolved in a way that was not
meant.  Faults come first from the alias table, then from the signals, one for each unknown name;
warnings come from the alias table and then from the top-level blocks.
-/

namespace SequenceChart

namespace Audit

/-- A fault makes the chart inconsistent. -/
inductive Fault where
  | danglingAlias (name target : String)
  | unknownParticipant (name : String)
  deriving DecidableEq, Repr, Inhabited

/-- A warning does not keep the chart from being laid out. -/
inductive Warning where
  | aliasChain (name target : String)
  | shadowingAlias (name : String)
  | unplacedSignals (count : Nat) (label : BlockLabel)
  deriving DecidableEq, Repr, Inhabited

def Fault.message : Fault → String
  | danglingAlias name target =>
    "Alias '" ++ name ++ "' refers to unknown participant '" ++ target ++ "'"
  | unknownParticipant name => "Signal refers to unknown participant '" ++ name ++ "'"

def Warning.message : Warning → String
  | aliasChain name target =>
    "Alias '" ++ name ++ "' refers to alias '" ++ target ++ "'; alias chains are not followed"
  | shadowingAlias name => "Alias '" ++ name ++ "' shadows participant '" ++ name ++ "'"
  | unplacedSignals count label =>
    toString count ++ " signal(s) inside '" ++ label.text ++ "' block are not laid out"

/-- Faults of one alias: its target is neither an alias nor a participant. -/
def aliasFaults (c : Chart) (entry : String × String) : List Fault :=
  if c.aliases.contains entry.2 || c.isParticipant entry.2 then []
  else [.danglingAlias entry.1 entry.2]

/-- Warnings of one alias: its target is an alias; its name is a participant's. -/
def aliasWarnings (c : Chart) (entry : String × String) : List Warning :=
  (if c.aliases.contains entry.2 then [.aliasChain entry.1 entry.2] else [])
    ++ (if c.isParticipant entry.1 then [.shadowingAlias entry.1] else [])

/-- A list without the repetitions of earlier members. -/
def firstOccurrences : List String → List String
  | [] => []
  | name :: rest => name :: (firstOccurrences rest).filter (· ≠ name)

/-- The names that the ends of all signals stand for, in document order. -/
def endpoints (c : Chart) : List String :=
  (Statement.allSignals c.statements).flatMap fun s => [c.resolve s.source, c.resolve s.target]

/-- One fault for each name at the end of a signal that is no participant's. -/
def endpointFaults (c : Chart) : List Fault :=
  (firstOccurrences ((endpoints c).filter fun name => !c.isParticipant name)).map
    Fault.unknownParticipant

/-- A block at the top level with signals, at any depth, that are not laid out. -/
def blockWarnings : Statement → List Warning
  | .block b =>
    let count := b.signals.length
    if count = 0 then [] else [.unplacedSignals count b.label]
  | _ => []

end Audit

/-- What an audit finds. -/
structure Audit where
  warnings : List Audit.Warning
  faults : List Audit.Fault
  deriving DecidableEq, Repr, Inhabited

namespace Audit

/-- The chart is inconsistent. -/
def hasFaults (a : Audit) : Bool := !a.faults.isEmpty

/-- Audits a chart. -/
def ofChart (c : Chart) : Audit where
  warnings :=
    c.aliases.entries.flatMap (aliasWarnings c) ++ c.statements.flatMap blockWarnings
  faults := c.aliases.entries.flatMap (aliasFaults c) ++ endpointFaults c

end Audit

end SequenceChart
