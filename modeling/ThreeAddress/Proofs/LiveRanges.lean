import ThreeAddress.Proofs.DeadValues

set_option autoImplicit false

namespace ThreeAddress

/-- Behind the first line, control comes to each line up to the last only from the line above. -/
def Program.Straight (program : Program) (first last : Line) : Prop :=
  ∀ line next, first < next → next ≤ last → (program.Step line next ↔ next = line + 1)

theorem Program.straight_of_plain (program : Program) (first last : Line) (bound : last < program.size)
    (leaves : ∀ line statement, first ≤ line → line < last → program.get? line = some statement →
      statement.opcode ≠ .ret ∧ statement.opcode ≠ .goto)
    (enters : ∀ line statement, first < line → line ≤ last → program.get? line = some statement →
      statement.opcode ≠ .func ∧ statement.opcode ≠ .label) : program.Straight first last := by
  intro line next above upTo
  constructor
  · rintro (⟨_, same⟩ | ⟨_, label, _, _, ⟨mark, found, names⟩, _⟩)
    · exact same
    · exact absurd names.1 (enters next mark above upTo found).2
  · rintro rfl
    obtain ⟨statement, found⟩ := program.get_of_lt line (by lia)
    obtain ⟨after, foundAfter⟩ := program.get_of_lt (line + 1) (by lia)
    obtain ⟨runs, stays⟩ := leaves line statement (by lia) (by lia) found
    have body := (enters (line + 1) after above upTo foundAfter).1
    exact Or.inl ⟨⟨statement, after, found, runs, stays, foundAfter, body⟩, rfl⟩

namespace Liveness

section Range

variable {program : Program} {table : SymbolTable} {graph : FlowGraph} {start : Line}
  (complete : FlowGraph.Complete program start graph) {id : SymbolId} {first last : Line}
  (straight : program.Straight first last)
  (writes : ∀ line, (∃ statement, program.get? line = some statement ∧ statement.writes table = some id) ↔
    line = first)

include complete straight writes

theorem path_in_range (order : first < last) (line : Line) (passed : List Line)
    (path : graph.LinePath line passed last) (reachable : graph.isReachable line = true)
    (clear : ∀ other ∈ passed, ∀ step, program.get? other = some step → step.writes table ≠ some id) :
    first < line ∧ line ≤ last := by
  -- Backwards from the last line, control can only have come from the line above.
  induction path with
  | here line => exact ⟨order, Nat.le_refl _⟩
  | step line next last passed flow _ ih =>
      obtain ⟨above, upTo⟩ := ih straight order (FlowGraph.line_flow_reachable complete line next flow)
        fun other member => clear other (List.mem_cons_of_mem line member)
      have same := (straight line next above upTo).mp ((FlowGraph.line_flow_iff complete line next reachable).mp flow)
      have different : line ≠ first := by
        intro here
        obtain ⟨writer, found, written⟩ := (writes line).mpr here
        exact clear line List.mem_cons_self writer found written
      exact ⟨by lia, by lia⟩

theorem range_live (reader : Statement) (found : program.get? last = some reader) (read : id ∈ reader.reads table)
    (line : Line) (reachable : graph.isReachable line = true) (above : first < line) (upTo : line ≤ last) :
    (compute program table graph).LiveIn line id := by
  obtain ⟨distance, far⟩ := Nat.exists_eq_add_of_le upTo
  induction distance generalizing line with
  | zero =>
      obtain rfl : last = line := far
      exact live_of_reads complete last reachable reader found id read
  | succ distance ih =>
      have step : program.Step line (line + 1) := (straight line (line + 1) (by lia) (by lia)).mpr rfl
      have flow := (FlowGraph.line_flow_iff complete line (line + 1) reachable).mpr step
      obtain ⟨statement, here⟩ := program.get_of_lt line (FlowGraph.reachable_lt complete line reachable)
      apply live_of_next complete line (line + 1) reachable flow statement here id
      · intro written
        have first := (writes line).mp ⟨statement, here, written⟩
        lia
      · exact ih (line + 1) (FlowGraph.line_flow_reachable complete line (line + 1) flow) (by lia) (by lia) (by lia)

variable (order : first < last)
  (reads : ∀ line, (∃ statement, program.get? line = some statement ∧ id ∈ statement.reads table) ↔ line = last)

include order reads

theorem live_in_range (line : Line) (reachable : graph.isReachable line = true) :
    (compute program table graph).LiveIn line id ↔ first < line ∧ line ≤ last := by
  constructor
  · intro live
    obtain ⟨passed, stop, statement, path, found, read, clear⟩ :=
      ((compute_exact table complete).liveIn line reachable id).mp live
    obtain rfl := (reads stop).mp ⟨statement, found, read⟩
    exact path_in_range complete straight writes order line passed path reachable clear
  · rintro ⟨above, upTo⟩
    obtain ⟨reader, found, read⟩ := (reads last).mpr rfl
    exact range_live complete straight writes reader found read line reachable above upTo

theorem live_out_range (line : Line) (reachable : graph.isReachable line = true) :
    (compute program table graph).LiveOut line id ↔ first ≤ line ∧ line < last := by
  have flows := FlowGraph.line_flow_iff complete line
  have arrives := FlowGraph.line_flow_reachable complete line
  rw [(compute_exact table complete).liveOut line reachable id]
  constructor
  · rintro ⟨next, flow, live⟩
    obtain ⟨above, upTo⟩ :=
      (live_in_range complete straight writes order reads next (arrives next flow)).mp live
    have same := (straight line next above upTo).mp ((flows next reachable).mp flow)
    exact ⟨by lia, by lia⟩
  · rintro ⟨above, below⟩
    have flow := (flows (line + 1) reachable).mpr ((straight line (line + 1) (by lia) below).mpr rfl)
    refine ⟨line + 1, flow, ?_⟩
    rw [live_in_range complete straight writes order reads (line + 1) (arrives (line + 1) flow)]
    exact ⟨by lia, below⟩

end Range

section Computed

variable {program : Program} {table : SymbolTable} {graph : FlowGraph} {start : Line}
  (complete : FlowGraph.Complete program start graph)

include complete

theorem live_reachable (line : Line) (id : SymbolId)
    (live : (compute program table graph).LiveIn line id ∨ (compute program table graph).LiveOut line id) :
    graph.isReachable line = true := by
  have exact := compute_exact table complete
  rcases live with ⟨set, present, _⟩ | ⟨set, present, _⟩
  · exact (exact.inPresent line).mp (by rw [present]; rfl)
  · exact (exact.outPresent line).mp (by rw [present]; rfl)

theorem unread_dead (id : SymbolId)
    (unread : ∀ line statement, program.get? line = some statement → id ∉ statement.reads table) (line : Line) :
    ¬ (compute program table graph).LiveIn line id ∧ ¬ (compute program table graph).LiveOut line id := by
  have exact := compute_exact table complete
  have never : ∀ line, ¬ (compute program table graph).LiveIn line id := by
    intro line live
    obtain ⟨_, last, statement, _, found, read, _⟩ :=
      (exact.liveIn line (live_reachable complete line id (Or.inl live)) id).mp live
    exact unread last statement found read
  refine ⟨never line, ?_⟩
  intro live
  obtain ⟨next, _, ahead⟩ := (exact.liveOut line (live_reachable complete line id (Or.inr live)) id).mp live
  exact never next ahead

end Computed

end Liveness

end ThreeAddress
