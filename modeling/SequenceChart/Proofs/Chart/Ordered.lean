import SequenceChart.Proofs.Chart.Joined
import SequenceChart.Proofs.Chart.Rebound
import SequenceChart.Proofs.Reading.Exact
set_option autoImplicit false

/-!
# The order in which names are registered

Along a document every declaration registers its participant, and every signal, at whatever depth,
what its source and then what its target stands for under the aliases declared before it.  Main
statement: the participants are the names registered, in the order of their first registration and
all with one role, and the aliases are the ones declared, in the order of their first declaration
and each with its last binding.  Nothing that is registered again moves, and nothing is dropped.
-/

namespace SequenceChart

/-- The alias that an item declares. -/
def Item.alias? : Item → Option String
  | .participant _ alias? => alias?
  | _ => none

/-- The names that an item registers, in their order, if written names stand for these. -/
def Item.registers (standsFor : String → String) : Item → List String
  | .title _ => []
  | .participant name _ => [name]
  | .statement s => s.signals.flatMap fun s => [standsFor s.source, standsFor s.target]

namespace Document

/-- What a written name stands for behind items: the last of them to bind it counts. -/
def standsFor (before : List Item) (name : String) : String := (binding? before name).getD name

/-- The names that items register behind others, in their order.  No alias is declared inside a
statement, so each of its signals has the aliases declared before the statement. -/
def registrations (before : List Item) : List Item → List String
  | [] => []
  | item :: rest => item.registers (standsFor before) ++ registrations (before ++ [item]) rest

end Document

/-- Each name is noted once, in the order of the first occurrences. -/
theorem Audit.firstOccurrences_append (names more : List String) :
    firstOccurrences (names ++ more) = more.foldl Layout.noted (firstOccurrences names) := by
  induction more generalizing names with
  | nil => rw [List.append_nil, List.foldl_nil]
  | cons name more ih =>
    rw [List.append_cons, ih, Replay.firstOccurrences_concat, List.foldl_cons]

namespace Chart

/-! ## Participants -/

theorem keys_addParticipant (c : Chart) (name : String) :
    (c.addParticipant name).participants.keys = Layout.noted c.participants.keys name :=
  Table.keys_insert c.participants name defaultRole

/-- Mentioning a name notes what it stands for. -/
theorem keys_mention (c : Chart) (name : String) :
    (c.mention name).participants.keys = Layout.noted c.participants.keys (c.resolve name) := by
  unfold mention
  split
  · next h =>
    have hmem : c.resolve name ∈ c.participants.keys := by
      rw [Table.mem_keys_iff, ← Table.contains_eq_isSome]
      exact h
    rw [Layout.noted, if_pos hmem]
  · exact keys_addParticipant c (c.resolve name)

theorem resolve_mention (c : Chart) (name : String) : (c.mention name).resolve = c.resolve := by
  obtain ⟨participants, h⟩ := mention_eq c name
  rw [h]
  rfl

theorem resolve_mentionEnds (c : Chart) (s : Signal) : (c.mentionEnds s).resolve = c.resolve := by
  rw [mentionEnds, resolve_mention, resolve_mention]

/-- Mentioning the ends of signals notes what they stand for. -/
theorem keys_foldl_mentionEnds (signals : List Signal) (c : Chart) :
    (signals.foldl mentionEnds c).participants.keys
      = (signals.flatMap fun s => [c.resolve s.source, c.resolve s.target]).foldl Layout.noted
          c.participants.keys := by
  induction signals generalizing c with
  | nil => rfl
  | cons s signals ih =>
    rw [List.foldl_cons, ih, resolve_mentionEnds, mentionEnds, keys_mention, keys_mention,
      resolve_mention, List.flatMap_cons, List.foldl_append]
    rfl

/-- An item notes the names that it registers. -/
theorem keys_add (c : Chart) (item : Item) :
    (c.add item).participants.keys
      = (item.registers c.resolve).foldl Layout.noted c.participants.keys := by
  cases item with
  | title text => rfl
  | participant name alias? => cases alias? <;> exact keys_addParticipant c name
  | statement s => exact keys_foldl_mentionEnds s.signals c

theorem resolve_ofItems (items : List Item) (name : String) :
    (ofItems items).resolve name = Document.standsFor items name := by
  rw [resolve, alias?_ofItems, Document.standsFor]

/-- Items note the names that they register behind those before them. -/
theorem keys_foldl_add (items before : List Item) :
    (items.foldl add (ofItems before)).participants.keys
      = (Document.registrations before items).foldl Layout.noted
          (ofItems before).participants.keys := by
  induction items generalizing before with
  | nil => rfl
  | cons item items ih =>
    have hitem : (ofItems before).add item = ofItems (before ++ [item]) := by
      rw [ofItems, ofItems, List.foldl_append]
      rfl
    have hresolve : (ofItems before).resolve = Document.standsFor before :=
      funext (resolve_ofItems before)
    rw [List.foldl_cons, hitem, ih, ← hitem, keys_add, hresolve, Document.registrations,
      List.foldl_append]

theorem keys_participants_ofItems (items : List Item) :
    (ofItems items).participants.keys
      = Audit.firstOccurrences (Document.registrations [] items) := by
  have hkeys := keys_foldl_add items []
  rw [← List.nil_append (Document.registrations [] items), Audit.firstOccurrences_append]
  exact hkeys

/-- Participants without roles of their own are determined by their names. -/
theorem IsPlain.entries_eq {c : Chart} (h : c.IsPlain) :
    c.participants.entries = c.participants.keys.map fun name => (name, defaultRole) := by
  rw [Table.keys, List.map_map]
  refine (List.map_id _).symm.trans (List.map_congr_left fun entry hentry => ?_)
  exact Prod.ext rfl (h entry hentry)

/-! ## Aliases -/

theorem keys_bind (t : Table) (item : Item) :
    (item.bind t).keys = item.alias?.toList.foldl Layout.noted t.keys := by
  cases item with
  | participant name alias? =>
    cases alias? with
    | none => rfl
    | some short => exact Table.keys_insert t short name
  | _ => rfl

/-- Items note the aliases that they declare. -/
theorem keys_aliases_foldl_add (items : List Item) (c : Chart) :
    (items.foldl add c).aliases.keys
      = (items.filterMap Item.alias?).foldl Layout.noted c.aliases.keys := by
  induction items generalizing c with
  | nil => rfl
  | cons item items ih =>
    rw [List.foldl_cons, ih, aliases_add, keys_bind]
    cases hitem : item.alias? <;> simp [hitem]

theorem keys_aliases_ofItems (items : List Item) :
    (ofItems items).aliases.keys = Audit.firstOccurrences (items.filterMap Item.alias?) := by
  have hkeys := keys_aliases_foldl_add items {}
  rw [← List.nil_append (items.filterMap Item.alias?), Audit.firstOccurrences_append]
  exact hkeys

/-! ## Both tables -/

/-- The names of a chart stand in the order in which items register them. -/
structure RegistersInOrder (c : Chart) (items : List Item) : Prop where
  /-- The participants are the names registered, by first registration, with one role. -/
  participants : c.participants.entries
    = (Audit.firstOccurrences (Document.registrations [] items)).map fun name => (name, "entity")
  /-- The aliases are the ones declared, by first declaration. -/
  aliases : c.aliases.keys = Audit.firstOccurrences (items.filterMap Item.alias?)
  /-- An alias is bound to what the last item to bind it binds it to. -/
  bindings : ∀ short, c.alias? short = Document.binding? items short

theorem registersInOrder_ofItems (items : List Item) : (ofItems items).RegistersInOrder items where
  participants := by
    rw [(isPlain_ofItems items).entries_eq, keys_participants_ofItems]
    rfl
  aliases := keys_aliases_ofItems items
  bindings := alias?_ofItems items

/-- The names of a row of tokens that is read are registered along its only derivation. -/
theorem registersInOrder_of_ofTokens {ts : List Token} {c : Chart} (h : ofTokens ts = .ok c) :
    ∃ ps, Derives ps ts ∧ (∀ qs, Derives qs ts → qs = ps) ∧
      c.RegistersInOrder (ps.map Phrase.item) := by
  obtain ⟨ps, hps, rfl⟩ := derives_of_ofTokens h
  exact ⟨ps, hps, fun qs hqs => hqs.unique hps, registersInOrder_ofItems _⟩

/-- An alias is bound anew between two signals that use it, and two participants are declared after
signals have used them. -/
theorem registersInOrder_of_ofTokens_again :
    ∃ ts c ps,
      tokenize ("participant bob as b\nopt\na -> b: hi\nend\nparticipant carol as b\nb -> x\n"
        ++ "participant x as y\nparticipant a\na -> b") = .ok ts ∧
      ofTokens ts = .ok c ∧ Derives ps ts ∧ c.RegistersInOrder (ps.map Phrase.item) ∧
      c.participants.keys = ["bob", "a", "carol", "x"] ∧
      c.aliases.entries = [("b", "carol"), ("y", "x")] := by
  generalize hsource : "participant bob as b\nopt\na -> b: hi\nend\nparticipant carol as b\nb -> x\n"
    ++ "participant x as y\nparticipant a\na -> b" = source
  have hrun : ((tokenize source).toOption.map fun ts => (ofTokens ts).toOption.map fun c =>
      (c.participants.keys, c.aliases.entries))
      = some (some (["bob", "a", "carol", "x"], [("b", "carol"), ("y", "x")])) := by
    rw [← hsource]
    decide +kernel
  cases htokens : tokenize source with
  | error why =>
    rw [htokens] at hrun
    cases hrun
  | ok ts =>
    rw [htokens] at hrun
    cases hchart : ofTokens ts with
    | error why =>
      rw [Except.toOption, Option.map_some, hchart] at hrun
      cases hrun
    | ok c =>
      rw [Except.toOption, Option.map_some, hchart] at hrun
      obtain ⟨hkeys, hentries⟩ := Prod.mk.inj (Option.some.inj (Option.some.inj hrun))
      obtain ⟨ps, hderives, -, hordered⟩ := registersInOrder_of_ofTokens hchart
      exact ⟨ts, c, ps, rfl, hchart, hderives, hordered, hkeys, hentries⟩

end Chart

end SequenceChart
