import SequenceChart.Chart.Record
import SequenceChart.Proofs.Json.RoundTrip
set_option autoImplicit false

/-!
# Values that describe charts

A value describes a chart if it has every field of the chart, in any order and beside any others.
What kind of statement an object describes is told by its kind alone, and the objects in its lists
describe the statements in it one by one.  Main statement: the value of a chart has a text and
describes the chart, however deep its statements are.
-/

namespace SequenceChart

namespace Json

/-! ## Members by their names -/

section Members

variable {members fields : List (String × Json)} {name : String} {v : Json}

/-- The members have one name each, and the fields are among them. -/
structure Holds (members fields : List (String × Json)) : Prop where
  distinct : (members.map Prod.fst).Nodup
  subset : fields ⊆ members

theorem holds_self (h : (fields.map Prod.fst).Nodup) : Holds fields fields :=
  ⟨h, List.Subset.refl fields⟩

theorem lookup?_cons (member : String × Json) (rest : List (String × Json)) :
    lookup? name (member :: rest) =
      (lookup? name rest).or (if member.1 = name then some member.2 else none) := by
  rw [lookup?, List.reverse_cons, List.find?_append, lookup?, Option.map_or]
  by_cases h : member.1 = name <;> simp [h]

theorem lookup?_of_mem (hdistinct : (members.map Prod.fst).Nodup) (h : (name, v) ∈ members) :
    lookup? name members = some v := by
  induction members with
  | nil => cases h
  | cons member rest ih =>
    rw [List.map_cons, List.nodup_cons] at hdistinct
    rw [lookup?_cons]
    rcases List.mem_cons.1 h with rfl | hrest
    · have hnone : lookup? name rest = none := by
        rw [lookup?, Option.map_eq_none_iff, List.find?_eq_none]
        intro other hother heq
        refine hdistinct.1 (List.mem_map.2 ⟨other, List.mem_reverse.1 hother, ?_⟩)
        simpa using heq
      rw [hnone, if_pos rfl]
      rfl
    · rw [ih hdistinct.2 hrest]
      rfl

/-- A field is found under its name. -/
theorem Holds.lookup (h : Holds members fields) (hfield : (name, v) ∈ fields) :
    lookup? name members = some v :=
  lookup?_of_mem h.distinct (h.subset hfield)

end Members

/-! ## What values describe -/

/-- The members hold the fields of a signal. -/
def HoldsSignal (members : List (String × Json)) (s : Signal) : Prop :=
  Holds members [("kind", .string "signal"), ("source", .string s.source),
    ("target", .string s.target), ("tail", ofOption (s.tail.map ArrowEnd.text)),
    ("head", ofOption (s.head.map ArrowEnd.text)), ("dotted", .bool s.dotted),
    ("message", ofOption s.message), ("activates", .bool s.activates),
    ("deactivates", .bool s.deactivates)]

mutual

/-- The object describes the statement, whose kind it names. -/
inductive DescribesStatement : Json → Statement → Prop where
  | signal {members : List (String × Json)} {s : Signal} (h : HoldsSignal members s) :
    DescribesStatement (.object members) (.signal s)
  | block {v : Json} {b : Block} (h : DescribesBlock v b) : DescribesStatement v (.block b)
  | group {members : List (String × Json)} {items : List Json} {branches : List Block}
    (h : Holds members [("kind", .string "alt_group"), ("blocks", .array items)])
    (hitems : DescribesBlocks items branches) :
    DescribesStatement (.object members) (.group branches)

/-- The object describes the block. -/
inductive DescribesBlock : Json → Block → Prop where
  | mk {members : List (String × Json)} {items : List Json} {label : BlockLabel}
    {condition : Option String} {body : List Statement}
    (h : Holds members [("kind", .string "block"), ("label", .string label.text),
      ("condition", ofOption condition), ("statements", .array items)])
    (hitems : DescribesStatements items body) :
    DescribesBlock (.object members) ⟨label, condition, body⟩

/-- The objects describe the statements one by one. -/
inductive DescribesStatements : List Json → List Statement → Prop where
  | nil : DescribesStatements [] []
  | cons {v : Json} {s : Statement} {items : List Json} {body : List Statement}
    (h : DescribesStatement v s) (hitems : DescribesStatements items body) :
    DescribesStatements (v :: items) (s :: body)

/-- The objects describe the blocks one by one. -/
inductive DescribesBlocks : List Json → List Block → Prop where
  | nil : DescribesBlocks [] []
  | cons {v : Json} {b : Block} {items : List Json} {branches : List Block}
    (h : DescribesBlock v b) (hitems : DescribesBlocks items branches) :
    DescribesBlocks (v :: items) (b :: branches)

end

/-- The object describes the chart.  A table is an object with its entries in their order. -/
inductive DescribesChart : Json → Chart → Prop where
  | mk {members : List (String × Json)} {items : List Json} {c : Chart}
    (h : Holds members [("title", ofOption c.title), ("statements", .array items),
      ("participants", c.participants.toJson), ("aliases", c.aliases.toJson)])
    (hitems : DescribesStatements items c.statements) :
    DescribesChart (.object members) c

theorem legible_ofOption (text : Option String) : (ofOption text).Legible := by
  cases text <;> trivial

end Json

/-! ## The value of a chart has a text -/

theorem Signal.legible_toJson (s : Signal) : s.toJson.Legible := by
  refine Json.legible_object ?_
  simp only [List.forall_mem_cons]
  exact ⟨trivial, trivial, trivial, Json.legible_ofOption _, Json.legible_ofOption _, trivial,
    Json.legible_ofOption _, trivial, trivial, nofun⟩

theorem Table.legible_toJson (t : Table) : t.toJson.Legible := by
  refine Json.legible_object ?_
  intro member hmember
  obtain ⟨entry, -, rfl⟩ := List.mem_map.1 hmember
  trivial

mutual

theorem Statement.legible_toJson : ∀ s : Statement, s.toJson.Legible
  | .signal s => s.legible_toJson
  | .block b => b.legible_toJson
  | .group branches => ⟨trivial, Block.legible_listToJson branches, trivial⟩

theorem Block.legible_toJson : ∀ b : Block, b.toJson.Legible
  | ⟨_, condition, body⟩ => ⟨trivial, trivial, Json.legible_ofOption condition,
      Statement.legible_listToJson body, trivial⟩

theorem Statement.legible_listToJson :
    ∀ statements, Json.LegibleItems (Statement.listToJson statements)
  | [] => trivial
  | s :: rest => ⟨s.legible_toJson, Statement.legible_listToJson rest⟩

theorem Block.legible_listToJson : ∀ blocks, Json.LegibleItems (Block.listToJson blocks)
  | [] => trivial
  | b :: rest => ⟨b.legible_toJson, Block.legible_listToJson rest⟩

end

theorem Chart.legible_toJson (c : Chart) : c.toJson.Legible :=
  ⟨Json.legible_ofOption c.title, Statement.legible_listToJson c.statements,
    c.participants.legible_toJson, c.aliases.legible_toJson, trivial⟩

/-! ## The value of a chart describes it -/

mutual

/-- At every depth the kind that is written is that of the statement. -/
theorem Statement.describes_toJson : ∀ s : Statement, s.toJson.DescribesStatement s
  | .signal _ => .signal (Json.holds_self (by simp))
  | .block b => .block b.describes_toJson
  | .group branches =>
    .group (Json.holds_self (by simp)) (Block.describes_listToJson branches)

theorem Block.describes_toJson : ∀ b : Block, b.toJson.DescribesBlock b
  | ⟨_, _, body⟩ => .mk (Json.holds_self (by simp)) (Statement.describes_listToJson body)

theorem Statement.describes_listToJson :
    ∀ statements, Json.DescribesStatements (Statement.listToJson statements) statements
  | [] => .nil
  | s :: rest => .cons s.describes_toJson (Statement.describes_listToJson rest)

theorem Block.describes_listToJson :
    ∀ blocks, Json.DescribesBlocks (Block.listToJson blocks) blocks
  | [] => .nil
  | b :: rest => .cons b.describes_toJson (Block.describes_listToJson rest)

end

theorem Chart.describes_toJson (c : Chart) : c.toJson.DescribesChart c :=
  .mk (Json.holds_self (by simp)) (Statement.describes_listToJson c.statements)

end SequenceChart
