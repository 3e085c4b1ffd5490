import ThreeAddress.Liveness
import ThreeAddress.Proofs.DataFlow.Solution
import ThreeAddress.Proofs.Flow.Paths

set_option autoImplicit false

namespace ThreeAddress

namespace Liveness

variable (program : Program) (table : SymbolTable) (graph : FlowGraph)

/-- Some path from the line leads to a line that reads the variable, and passes no line that
overwrites it. -/
def ReadAhead (line : Line) (id : SymbolId) : Prop :=
  ∃ passed last statement, graph.LinePath line passed last ∧ program.get? last = some statement ∧
    id ∈ statement.reads table ∧
    ∀ other ∈ passed, ∀ step, program.get? other = some step → step.writes table ≠ some id

def LiveIn (liveness : Liveness) (line : Line) (id : SymbolId) : Prop :=
  ∃ set, liveness.liveIn? line = some set ∧ id ∈ set

def LiveOut (liveness : Liveness) (line : Line) (id : SymbolId) : Prop :=
  ∃ set, liveness.liveOut? line = some set ∧ id ∈ set

theorem mem_sets (ids : Statement → List SymbolId) (line : Line) (id : SymbolId) :
    id ∈ (program.statements.map fun statement => Std.ExtTreeSet.ofList (ids statement)).getD line ∅ ↔
      ∃ statement, program.get? line = some statement ∧ id ∈ ids statement := by
  rw [List.getD_eq_getElem?_getD, List.getElem?_map, Program.get?]
  cases program.statements[line]? with
  | none => simp
  | some statement => simp

theorem mem_gen (line : Line) (id : SymbolId) :
    id ∈ (analysis program table).gen.getD line ∅ ↔
      ∃ statement, program.get? line = some statement ∧ id ∈ statement.reads table :=
  mem_sets program (·.reads table) line id

theorem mem_kill (line : Line) (id : SymbolId) :
    id ∈ (analysis program table).kill.getD line ∅ ↔
      ∃ statement, program.get? line = some statement ∧ statement.writes table = some id := by
  have listed := mem_sets program (fun statement => (statement.writes table).toList) line id
  simp only [Option.mem_toList] at listed
  exact listed

theorem holds_before (liveness : Liveness) (line : Line) (id : SymbolId) :
    Slots.Holds liveness.facts.before line id ↔ liveness.LiveIn line id := by
  simp only [Slots.Holds, LiveIn, liveIn?, LineFacts.before?, Option.join_eq_some_iff]

theorem holds_after (liveness : Liveness) (line : Line) (id : SymbolId) :
    Slots.Holds liveness.facts.after line id ↔ liveness.LiveOut line id := by
  simp only [Slots.Holds, LiveOut, liveOut?, LineFacts.after?, Option.join_eq_some_iff]

variable {program graph} {start : Line}

theorem read_ahead_bounds (complete : FlowGraph.Complete program start graph) :
    (analysis program table).Bounds graph.controlFlow (ReadAhead program table graph)
      (fun line id => ∃ next, graph.LineFlow line next ∧ ReadAhead program table graph next id) := by
  refine ⟨?_, ?_, ?_, ?_, ?_⟩
  · intro line id member
    obtain ⟨statement, found, reads⟩ := (mem_gen program table line id).mp member
    exact ⟨[], line, statement, .here line, found, reads, by simp⟩
  · intro line id ahead kept
    obtain ⟨next, flow, passed, last, statement, path, found, reads, clear⟩ := ahead
    refine ⟨line :: passed, last, statement, .step line next last passed flow path, found, reads, ?_⟩
    intro other member step foundStep writes
    rcases List.mem_cons.mp member with rfl | later
    · exact kept ((mem_kill program table other id).mpr ⟨step, foundStep, writes⟩)
    · exact clear other later step foundStep writes
  · intro block known line id low high ahead
    have found := List.getElem?_eq_getElem known
    rw [(graph.control_flow_get block _ found).1] at low high
    refine ⟨line + 1, ⟨block, _, found, ?_, ?_⟩, ahead⟩
    · rw [LineRange.contains_iff]
      exact ⟨low, Nat.le_of_lt high⟩
    · rw [if_neg (Nat.ne_of_lt high)]
  · intro block known child edge id ahead
    have found := List.getElem?_eq_getElem known
    obtain ⟨lines, successors⟩ := graph.control_flow_get block _ found
    rw [successors] at edge
    have bound := (FlowGraph.children_follow complete block _ found).2.1 child edge
    refine ⟨_, ⟨block, _, found, ?_, ?_⟩, ahead⟩
    · rw [lines, LineRange.contains_iff]
      exact ⟨(FlowGraph.block_bounds complete block _ found).1, Nat.le_refl _⟩
    · rw [if_pos (by rw [lines])]
      exact ⟨child, edge, graph.start_of_lines child bound⟩
  · intro block _ _ id member
    exact absurd member Std.ExtTreeSet.not_mem_empty

section Solved

variable {table} (complete : FlowGraph.Complete program start graph) (facts : LineFacts SymbolId)
  (solution : (analysis program table).Solution graph.controlFlow program.size facts)

include complete solution

theorem settled_block (id : BlockId) (block : Block) (found : graph.blocks[id]? = some block) :
    (analysis program table).Settled graph.controlFlow facts id :=
  solution.settled id
    (FlowGraph.mem_reverse_post_order complete id (List.getElem?_eq_some_iff.mp found).1)

theorem holds_transfer (line : Line) (reachable : graph.isReachable line = true) (id : SymbolId)
    (source : id ∈ (analysis program table).gen.getD line ∅ ∨
      (Slots.Holds facts.after line id ∧ id ∉ (analysis program table).kill.getD line ∅)) :
    Slots.Holds facts.before line id := by
  obtain ⟨blockId, block, found, contains⟩ := (FlowGraph.reachable_iff complete line).mp reachable
  have settled := settled_block complete facts solution blockId block found
  rw [LineRange.contains_iff, ← (graph.control_flow_get blockId block found).1] at contains
  obtain ⟨set, after, before⟩ := settled.transfer line contains.1 contains.2
  refine ⟨_, before, ?_⟩
  rw [GenKill.mem_transfer]
  rcases source with gen | ⟨⟨other, same, member⟩, kept⟩
  · exact Or.inl gen
  · obtain rfl : other = set := by simpa [after] using same.symm
    exact Or.inr ⟨member, kept⟩

theorem holds_flow (line next : Line) (flow : graph.LineFlow line next) (id : SymbolId)
    (ahead : Slots.Holds facts.before next id) : Slots.Holds facts.after line id := by
  obtain ⟨blockId, block, found, contains, goes⟩ := flow
  have settled := settled_block complete facts solution blockId block found
  obtain ⟨lines, successors⟩ := graph.control_flow_get blockId block found
  rw [LineRange.contains_iff] at contains
  by_cases last : line = block.lines.last
  · rw [if_pos last] at goes
    obtain ⟨child, edge, first⟩ := goes
    have bound := (FlowGraph.children_follow complete blockId block found).2.1 child edge
    rw [graph.start_of_lines child bound] at first
    rw [last, ← lines]
    refine ⟨_, settled.last, ?_⟩
    rw [GenKill.mem_block_end, successors]
    exact Or.inr ⟨child, edge, by rw [Option.some.inj first]; exact ahead⟩
  · rw [if_neg last] at goes
    obtain ⟨set, same, member⟩ := ahead
    refine ⟨set, ?_, member⟩
    rw [settled.next line (by rw [lines]; exact contains.1) (by rw [lines]; lia), ← goes]
    exact same

theorem holds_of_path (line last : Line) (passed : List Line) (path : graph.LinePath line passed last)
    (reachable : graph.isReachable line = true) (statement : Statement)
    (found : program.get? last = some statement) (id : SymbolId) (reads : id ∈ statement.reads table)
    (clear : ∀ other ∈ passed, ∀ step, program.get? other = some step → step.writes table ≠ some id) :
    Slots.Holds facts.before line id := by
  induction path with
  | here line =>
      exact holds_transfer complete facts solution line reachable id
        (Or.inl ((mem_gen program table line id).mpr ⟨statement, found, reads⟩))
  | step line next last passed flow _ ih =>
      have ahead := ih (FlowGraph.line_flow_reachable complete line next flow) found
        (fun other member => clear other (List.mem_cons_of_mem line member))
      apply holds_transfer complete facts solution line reachable id
      refine Or.inr ⟨holds_flow complete facts solution line next flow id ahead, ?_⟩
      intro killed
      obtain ⟨step, foundStep, writes⟩ := (mem_kill program table line id).mp killed
      exact clear line List.mem_cons_self step foundStep writes

end Solved

structure Exact (program : Program) (table : SymbolTable) (graph : FlowGraph) (liveness : Liveness) :
    Prop where
  inPresent : ∀ line, (liveness.liveIn? line).isSome = true ↔ graph.isReachable line = true
  outPresent : ∀ line, (liveness.liveOut? line).isSome = true ↔ graph.isReachable line = true
  liveIn : ∀ line, graph.isReachable line = true → ∀ id,
    liveness.LiveIn line id ↔ ReadAhead program table graph line id
  liveOut : ∀ line, graph.isReachable line = true → ∀ id,
    liveness.LiveOut line id ↔ ∃ next, graph.LineFlow line next ∧ liveness.LiveIn next id

theorem slots_present (complete : FlowGraph.Complete program start graph)
    (slots : Slots SymbolId) (covered : GenKill.Covered graph.controlFlow program.size slots) (line : Line) :
    ((slots[line]?).join).isSome = true ↔ graph.isReachable line = true := by
  rw [← FlowGraph.control_flow_contains complete line, ← covered.present line, Option.isSome_iff_exists]
  simp only [Option.join_eq_some_iff]

theorem compute_exact (complete : FlowGraph.Complete program start graph) :
    Exact program table graph (compute program table graph) := by
  have solution := (analysis program table).solve_solution graph.controlFlow program.size
    (FlowGraph.control_flow_tiled complete)
  have within := solution.least _ _ (read_ahead_bounds table complete)
  have exact : ∀ line, graph.isReachable line = true → ∀ id,
      (compute program table graph).LiveIn line id ↔ ReadAhead program table graph line id := by
    intro line reachable id
    rw [← holds_before]
    constructor
    · exact within.before line id
    · intro ahead
      obtain ⟨passed, last, statement, path, found, reads, clear⟩ := ahead
      exact holds_of_path complete _ solution line last passed path reachable statement found id reads clear
  refine ⟨?_, ?_, exact, ?_⟩
  · exact slots_present complete _ solution.consistent.coveredBefore
  · exact slots_present complete _ solution.consistent.coveredAfter
  · intro line reachable id
    rw [← holds_after]
    constructor
    · intro held
      obtain ⟨next, flow, ahead⟩ := within.after line id held
      exact ⟨next, flow, (exact next (FlowGraph.line_flow_reachable complete line next flow) id).mpr ahead⟩
    · intro ahead
      obtain ⟨next, flow, live⟩ := ahead
      exact holds_flow complete _ solution line next flow id ((holds_before _ next id).mpr live)

theorem liveness_exact (program : Program) (table : SymbolTable) (name : String) (graph : FlowGraph)
    (built : FlowGraph.build program table name = .ok graph) :
    Exact program table graph (compute program table graph) := by
  obtain ⟨_, start, _, _, complete⟩ := FlowGraph.build_complete program table name graph built
  exact compute_exact table complete

theorem roundabout_liveness_exact : ∃ graph,
    FlowGraph.build FlowGraph.roundabout FlowGraph.roundaboutTable "main" = .ok graph ∧
    Exact FlowGraph.roundabout FlowGraph.roundaboutTable graph
      (compute FlowGraph.roundabout FlowGraph.roundaboutTable graph) := by
  obtain ⟨graph, built⟩ := FlowGraph.roundabout_builds
  exact ⟨graph, built, liveness_exact FlowGraph.roundabout FlowGraph.roundaboutTable "main" graph built⟩

end Liveness

end ThreeAddress
