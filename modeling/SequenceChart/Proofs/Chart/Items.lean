import SequenceChart.Proofs.Grammar.Phrase
set_option autoImplicit false

/-!
# Title and statements of a chart of items

Registering names touches neither the title nor the statements, so these are the last title of the
items and the statements among them.
-/

namespace SequenceChart.Chart

/-- Mentioning a name changes the table of participants at most. -/
theorem mention_eq (c : Chart) (name : String) :
    ∃ participants, c.mention name = { c with participants } := by
  unfold mention
  split
  · exact ⟨c.participants, rfl⟩
  · exact ⟨c.participants.insert (c.resolve name) defaultRole, rfl⟩

theorem foldl_mentionEnds_eq (signals : List Signal) (c : Chart) :
    ∃ participants, signals.foldl mentionEnds c = { c with participants } := by
  induction signals generalizing c with
  | nil => exact ⟨c.participants, rfl⟩
  | cons s signals ih =>
    obtain ⟨source, hsource⟩ := mention_eq c s.source
    obtain ⟨target, htarget⟩ := mention_eq (c.mention s.source) s.target
    obtain ⟨rest, hrest⟩ := ih (c.mentionEnds s)
    exact ⟨rest, by rw [List.foldl_cons, hrest, mentionEnds, htarget, hsource]⟩

/-- Mentioning names binds none. -/
theorem alias?_foldl_mentionEnds (signals : List Signal) (c : Chart) (name : String) :
    (signals.foldl mentionEnds c).alias? name = c.alias? name := by
  obtain ⟨participants, h⟩ := foldl_mentionEnds_eq signals c
  rw [h]
  rfl

theorem title_add (c : Chart) (item : Item) : (c.add item).title = item.title?.or c.title := by
  cases item with
  | title text => rfl
  | participant name alias? => cases alias? <;> rfl
  | statement s =>
    obtain ⟨participants, h⟩ := foldl_mentionEnds_eq s.signals c
    rw [add, h]
    rfl

theorem statements_add (c : Chart) (item : Item) :
    (c.add item).statements = c.statements ++ item.statement?.toList := by
  cases item with
  | title text => exact (List.append_nil _).symm
  | participant name alias? => cases alias? <;> exact (List.append_nil _).symm
  | statement s => rfl

theorem title_ofItems (items : List Item) : (ofItems items).title = Document.title? items := by
  have hfold (c : Chart) :
      (items.foldl add c).title = (items.filterMap Item.title?).getLast?.or c.title := by
    induction items generalizing c with
    | nil => rfl
    | cons item items ih =>
      rw [List.foldl_cons, ih, title_add]
      cases h : item.title? <;> simp [h, List.getLast?_cons]
  simpa [ofItems, Document.title?] using hfold {}

theorem statements_ofItems (items : List Item) :
    (ofItems items).statements = Document.statements items := by
  have hfold (c : Chart) :
      (items.foldl add c).statements = c.statements ++ items.filterMap Item.statement? := by
    induction items generalizing c with
    | nil => simp
    | cons item items ih =>
      rw [List.foldl_cons, ih, statements_add]
      cases h : item.statement? <;> simp [h]
  simpa [ofItems, Document.statements] using hfold {}

end SequenceChart.Chart
