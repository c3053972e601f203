import SequenceChart.Proofs.Chart.Registered
import SequenceChart.Proofs.Geometry.Names
import SequenceChart.Proofs.Reading.Explains
set_option autoImplicit false

/-!
# Charts that are read are consistent

Reading resolves names with the aliases known so far, an audit and a layout with the final ones.
All the same, an audit finds no fault in a chart that was read, and a layout draws no lifeline but
those of participants.
-/

namespace SequenceChart

namespace Chart

theorem registered_of_ofTokens {ts : List Token} {c : Chart} (h : Chart.ofTokens ts = .ok c) :
    c.Registered := by
  obtain ⟨ps, -, rfl⟩ := derives_of_ofTokens h
  exact registered_ofItems _

/-- Every run of a layout, halted or not, draws the lifelines of participants only. -/
theorem Registered.isParticipant_lifeline {c : Chart} (h : c.Registered) {α : Type} [Measure α]
    (settings : Settings α) {line : Lifeline α}
    (hline : line ∈ (Halted.reached (Layout.ofChart settings c)).lifelines) :
    c.isParticipant line.name := by
  obtain ⟨s, hs, hend⟩ := Layout.names_ofChart settings c line.name (List.mem_map_of_mem hline)
  have hboth := h.ends s (mem_allSignals_of_mem_topSignals hs)
  rcases hend with hsource | htarget
  · exact hsource ▸ hboth.1
  · exact htarget ▸ hboth.2

end Chart

/-- A chart that was read has no fault: its aliases are bound to participants, the ends of its
signals stand for participants under the final aliases, at every depth, and every lifeline that is
drawn for it is a participant's. -/
theorem consistent_of_ofTokens {ts : List Token} {c : Chart} (h : Chart.ofTokens ts = .ok c) :
    (Audit.ofChart c).faults = [] ∧
    (∀ entry ∈ c.aliases.entries, c.isParticipant entry.2) ∧
    (∀ s ∈ Statement.allSignals c.statements,
      c.isParticipant (c.resolve s.source) ∧ c.isParticipant (c.resolve s.target)) ∧
    ∀ (α : Type) [Measure α] (settings : Settings α),
      ∀ line ∈ (Halted.reached (Layout.ofChart settings c)).lifelines,
        c.isParticipant line.name := by
  have hregistered := Chart.registered_of_ofTokens h
  refine ⟨hregistered.faults_eq_nil, ?_, hregistered.ends,
    fun α _ settings line hline => hregistered.isParticipant_lifeline settings hline⟩
  intro entry hentry
  exact hregistered.targets entry.1 entry.2 (Table.get?_of_mem hentry)

/-- A signal from a name to itself, inside a block, before the name becomes an alias: the aliases
that were known when it was read are not the final ones. -/
theorem consistent_of_ofTokens_rebound :
    let token (kind : TokenKind) (text : String) : Token := ⟨kind, some text, 1, 1⟩
    let ts := [token (.keyword .opt) "opt", token .identifier "a", token (.shaft false) "-",
      token (.head .closed) ">", token .identifier "a", token (.keyword .end_) "end",
      token (.keyword .participant) "participant", token .identifier "b",
      token (.keyword .as_) "as", token .identifier "a"]
    ∃ c, Chart.ofTokens ts = .ok c ∧ c.resolve "a" = "b" ∧ (Audit.ofChart c).faults = [] ∧
      ∀ s ∈ Statement.allSignals c.statements, c.isParticipant (c.resolve s.source) := by
  intro token ts
  let signal : Signal := { source := "a", target := "a", head := some .closed }
  let block : Block := ⟨.opt, none, [.signal signal]⟩
  let items : List Item := [.statement (.block block), .participant "b" (some "a")]
  have hread : Chart.ofTokens ts = .ok (Chart.ofItems items) := rfl
  obtain ⟨hfaults, -, hends, -⟩ := consistent_of_ofTokens hread
  exact ⟨Chart.ofItems items, hread, rfl, hfaults, fun s hs => (hends s hs).1⟩

end SequenceChart
