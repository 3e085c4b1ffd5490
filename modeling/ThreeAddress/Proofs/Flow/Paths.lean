import ThreeAddress.Proofs.DataFlow.Sweep
import ThreeAddress.Proofs.Flow.Refinement

set_option autoImplicit false

namespace ThreeAddress

namespace FlowGraph

def LineFlow (graph : FlowGraph) (line next : Line) : Prop :=
  ∃ (id : BlockId) (block : Block), graph.blocks[id]? = some block ∧ block.lines.contains line = true ∧
    if line = block.lines.last then ∃ child ∈ block.children, startOf? graph.blocks child = some next
    else next = line + 1

inductive LinePath (graph : FlowGraph) : Line → List Line → Line → Prop where
  | here (line : Line) : LinePath graph line [] line
  | step (line next last : Line) (passed : List Line) (flow : graph.LineFlow line next)
      (rest : LinePath graph next passed last) : LinePath graph line (line :: passed) last

theorem control_flow_get (graph : FlowGraph) (id : BlockId) (block : Block)
    (found : graph.blocks[id]? = some block) :
    graph.controlFlow.lines id = block.lines ∧ graph.controlFlow.successors id = block.next := by
  simp [controlFlow, found]

theorem start_of_lines (graph : FlowGraph) (id : BlockId) (bound : id < graph.blocks.length) :
    startOf? graph.blocks id = some (graph.controlFlow.lines id).first := by
  have found := List.getElem?_eq_getElem bound
  rw [(graph.control_flow_get id _ found).1, startOf?, found]
  rfl

section Completed

variable {program : Program} {start : Line} {graph : FlowGraph}

theorem control_flow_tiled (complete : Complete program start graph) :
    graph.controlFlow.Tiled program.size := by
  refine ⟨?_, ?_, ?_⟩
  · intro id bound
    have found := List.getElem?_eq_getElem bound
    rw [(graph.control_flow_get id _ found).1]
    exact (block_bounds complete id _ found).1
  · intro id bound
    have found := List.getElem?_eq_getElem bound
    rw [(graph.control_flow_get id _ found).1]
    exact (block_bounds complete id _ found).2.1
  · intro a boundA b boundB line insideA insideB
    have foundA := List.getElem?_eq_getElem boundA
    have foundB := List.getElem?_eq_getElem boundB
    rw [(graph.control_flow_get a _ foundA).1] at insideA
    rw [(graph.control_flow_get b _ foundB).1] at insideB
    have blockA := (block_of_iff complete line a).mpr ⟨_, foundA, insideA⟩
    have blockB := (block_of_iff complete line b).mpr ⟨_, foundB, insideB⟩
    exact Option.some.inj (blockA.symm.trans blockB)

theorem mem_reverse_post_order (complete : Complete program start graph) (id : BlockId)
    (bound : id < graph.blocks.length) : id ∈ graph.controlFlow.reversePostOrder := by
  apply ControlFlow.mem_order
  have connected := complete.connected id bound
  induction connected with
  | root id member => exact .root id member bound
  | child parent id block _ found edge ih =>
      have known := (List.getElem?_eq_some_iff.mp found).1
      apply ControlFlow.Found.child parent id (ih known) _ bound
      rw [(graph.control_flow_get parent block found).2]
      exact edge

theorem control_flow_contains (complete : Complete program start graph) (line : Line) :
    (∃ id < graph.controlFlow.blockCount, (graph.controlFlow.lines id).contains line = true) ↔
      graph.isReachable line = true := by
  rw [reachable_iff complete]
  constructor
  · intro inside
    obtain ⟨id, bound, contains⟩ := inside
    have found := List.getElem?_eq_getElem bound
    rw [(graph.control_flow_get id _ found).1] at contains
    exact ⟨id, _, found, contains⟩
  · intro inside
    obtain ⟨id, block, found, contains⟩ := inside
    refine ⟨id, (List.getElem?_eq_some_iff.mp found).1, ?_⟩
    rw [(graph.control_flow_get id block found).1]
    exact contains

theorem line_flow_iff (complete : Complete program start graph) (line next : Line)
    (reachable : graph.isReachable line = true) : graph.LineFlow line next ↔ program.Step line next := by
  have own : ∀ (id : BlockId) (block : Block), graph.blocks[id]? = some block → block.lines.contains line = true →
      ((if line = block.lines.last then ∃ child ∈ block.children, startOf? graph.blocks child = some next
        else next = line + 1) ↔ program.Step line next) := by
    intro id block found contains
    rw [LineRange.contains_iff] at contains
    by_cases last : line = block.lines.last
    · rw [if_pos last, last]
      exact (children_follow complete id block found).2.2.1 next
    · rw [if_neg last]
      exact ((interior_line complete id block found line contains.1 (by lia)).1 next).symm
  constructor
  · rintro ⟨id, block, found, contains, goes⟩
    exact (own id block found contains).mp goes
  · intro step
    obtain ⟨id, block, found, contains⟩ := (reachable_iff complete line).mp reachable
    exact ⟨id, block, found, contains, (own id block found contains).mpr step⟩

theorem line_flow_reachable (complete : Complete program start graph) (line next : Line)
    (flow : graph.LineFlow line next) : graph.isReachable next = true := by
  obtain ⟨id, block, found, contains, goes⟩ := flow
  by_cases last : line = block.lines.last
  · rw [if_pos last] at goes
    obtain ⟨child, _, first⟩ := goes
    exact start_contained complete child next first
  · rw [if_neg last] at goes
    rw [reachable_iff complete]
    refine ⟨id, block, found, ?_⟩
    rw [LineRange.contains_iff] at contains ⊢
    lia

end Completed

end FlowGraph

end ThreeAddress
