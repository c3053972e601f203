import SequenceChart.Proofs.Chart.Items
import SequenceChart.Proofs.Chart.Table
set_option autoImplicit false

/-!
# The chart of two documents in a row

A chart is built up item by item, so the chart of two documents in a row is that of the first one
with the items of the second one added.  Title, statements and aliases depend on nothing else in
the chart, and come from those of the two charts alone.  The participants do not: a signal of the
second document mentions a name under the aliases of both.  But a participant once registered keeps
its place and its role.
-/

namespace SequenceChart

/-- The aliases after an item. -/
def Item.bind (aliases : Table) : Item → Table
  | .participant name (some short) => aliases.insert short name
  | _ => aliases

namespace Chart

/-- The chart is that of a document with the first chart and then one with the second. -/
structure Joins (c₁ c₂ c : Chart) : Prop where
  statements : c.statements = c₁.statements ++ c₂.statements
  /-- The last title counts. -/
  title : c.title = c₂.title.or c₁.title
  /-- What the second document binds anew keeps its place. -/
  aliases : c.aliases = c₁.aliases.update c₂.aliases
  /-- The participants of the first document come first. -/
  participants : c₁.participants.entries <+: c.participants.entries

/-! ## Aliases -/

theorem aliases_add (c : Chart) (item : Item) : (c.add item).aliases = item.bind c.aliases := by
  cases item with
  | title text => rfl
  | participant name alias? => cases alias? <;> rfl
  | statement s =>
    obtain ⟨participants, h⟩ := foldl_mentionEnds_eq s.signals c
    rw [add, h]
    rfl

theorem update_bind (t u : Table) (item : Item) :
    t.update (item.bind u) = item.bind (t.update u) := by
  cases item with
  | participant name alias? =>
    cases alias? with
    | none => rfl
    | some short => exact Table.update_insert t u short name
  | _ => rfl

/-- The same items keep one chart's aliases an update with those of another. -/
theorem aliases_foldl_add (items : List Item) {t : Table} {c d : Chart}
    (h : c.aliases = t.update d.aliases) :
    (items.foldl add c).aliases = t.update (items.foldl add d).aliases := by
  induction items generalizing c d with
  | nil => exact h
  | cons item items ih =>
    rw [List.foldl_cons, List.foldl_cons]
    refine ih ?_
    rw [aliases_add, aliases_add, h, update_bind]

/-! ## Participants -/

/-- Every participant has the role of one that is given none. -/
def IsPlain (c : Chart) : Prop := ∀ entry ∈ c.participants.entries, entry.2 = defaultRole

/-- The participants of the first chart come first in the second one. -/
def GrowsTo (c d : Chart) : Prop :=
  c.IsPlain → d.IsPlain ∧ c.participants.entries <+: d.participants.entries

namespace GrowsTo

variable {c d e : Chart}

theorem of_eq (h : d.participants = c.participants) : GrowsTo c d := by
  intro hplain
  rw [IsPlain, h]
  exact ⟨hplain, List.prefix_refl _⟩

theorem trans (h : GrowsTo c d) (h' : GrowsTo d e) : GrowsTo c e := by
  intro hplain
  obtain ⟨hd, hcd⟩ := h hplain
  obtain ⟨he, hde⟩ := h' hd
  exact ⟨he, hcd.trans hde⟩

end GrowsTo

/-- A participant that is registered again keeps its place and its role; a new one comes last. -/
theorem growsTo_addParticipant (c : Chart) (name : String) : c.GrowsTo (c.addParticipant name) := by
  by_cases hname : name ∈ c.participants.keys
  · intro hplain
    obtain ⟨role, hrole⟩ := Option.isSome_iff_exists.1 ((Table.mem_keys_iff _ _).1 hname)
    have hdefault : role = defaultRole := hplain _ (Table.mem_of_get? hrole)
    have hsame : (c.addParticipant name).participants = c.participants :=
      Table.insert_eq_self (hdefault ▸ hrole)
    exact GrowsTo.of_eq hsame hplain
  · intro hplain
    have hlast : (c.addParticipant name).participants.entries
        = c.participants.entries ++ [(name, defaultRole)] := Table.put_of_not_mem hname
    rw [IsPlain, hlast]
    refine ⟨fun entry hentry => ?_, List.prefix_append _ _⟩
    rcases List.mem_append.1 hentry with hold | hnew
    · exact hplain entry hold
    · rw [List.mem_singleton.1 hnew]

theorem growsTo_mention (c : Chart) (name : String) : c.GrowsTo (c.mention name) := by
  unfold mention
  split
  · exact .of_eq rfl
  · exact growsTo_addParticipant c (c.resolve name)

theorem growsTo_foldl_mentionEnds (signals : List Signal) (c : Chart) :
    c.GrowsTo (signals.foldl mentionEnds c) := by
  induction signals generalizing c with
  | nil => exact .of_eq rfl
  | cons s signals ih =>
    have hends : c.GrowsTo (c.mentionEnds s) :=
      (growsTo_mention c s.source).trans (growsTo_mention _ s.target)
    exact hends.trans (ih (c.mentionEnds s))

theorem growsTo_add (c : Chart) (item : Item) : c.GrowsTo (c.add item) := by
  cases item with
  | title text => exact .of_eq rfl
  | participant name alias? =>
    cases alias? with
    | none => exact growsTo_addParticipant c name
    | some short => exact (growsTo_addParticipant c name).trans (.of_eq rfl)
  | statement s => exact (growsTo_foldl_mentionEnds s.signals c).trans (.of_eq rfl)

theorem growsTo_foldl_add (items : List Item) (c : Chart) : c.GrowsTo (items.foldl add c) := by
  induction items generalizing c with
  | nil => exact .of_eq rfl
  | cons item items ih => exact (growsTo_add c item).trans (ih (c.add item))

/-- The participants of a chart of items all have the same role. -/
theorem isPlain_ofItems (items : List Item) : (ofItems items).IsPlain := by
  have hempty : IsPlain {} := fun _ hentry => by cases hentry
  exact (growsTo_foldl_add items {} hempty).1

/-! ## Documents in a row -/

theorem joins_ofItems (items more : List Item) :
    Joins (ofItems items) (ofItems more) (ofItems (items ++ more)) where
  statements := by
    simp only [statements_ofItems, Document.statements, List.filterMap_append]
  title := by
    simp only [title_ofItems, Document.title?, List.filterMap_append, List.getLast?_append]
  aliases := by
    rw [ofItems, List.foldl_append]
    exact aliases_foldl_add more (Table.update_empty _).symm
  participants := by
    rw [ofItems, ofItems, List.foldl_append]
    exact (growsTo_foldl_add more (ofItems items) (isPlain_ofItems items)).2

end Chart

end SequenceChart
