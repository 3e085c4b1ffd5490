import ThreeAddress.Proofs.Flow.Construction

set_option autoImplicit false

namespace ThreeAddress

namespace FlowGraph

section Completed

variable {program : Program} {start : Line} {graph : FlowGraph}

theorem block_of_iff (complete : Complete program start graph) (line : Line) (id : BlockId) :
    graph.blockOf? line = some id ↔
      ∃ block, graph.blocks[id]? = some block ∧ block.lines.contains line = true :=
  block_containing_iff program graph.landmarks complete.describes graph.blocks complete.placed line id

theorem reachable_iff (complete : Complete program start graph) (line : Line) :
    graph.isReachable line = true ↔
      ∃ (id : BlockId) (block : Block), graph.blocks[id]? = some block ∧ block.lines.contains line = true := by
  unfold isReachable
  rw [Option.isSome_iff_exists]
  simp only [block_of_iff complete]

theorem block_bounds (complete : Complete program start graph) (id : BlockId) (block : Block)
    (found : graph.blocks[id]? = some block) :
    block.lines.first ≤ block.lines.last ∧ block.lines.last < program.size ∧
      ∀ line, block.lines.first < line → line ≤ block.lines.last → ¬ program.Leader line := by
  have listed : block.lines ∈ graph.blocks.map Block.lines :=
    List.mem_map_of_mem (List.mem_of_getElem? found)
  obtain ⟨order, bound, inside, _⟩ :=
    placed_bounds program graph.landmarks complete.describes _ complete.placed block.lines listed
  refine ⟨order, bound, ?_⟩
  intro line after before leader
  exact inside line after before ((complete.describes.leaders line).mpr leader)

theorem reachable_lt (complete : Complete program start graph) (line : Line)
    (reachable : graph.isReachable line = true) : line < program.size := by
  obtain ⟨id, block, found, contains⟩ := (reachable_iff complete line).mp reachable
  have bound := (block_bounds complete id block found).2.1
  rw [LineRange.contains_iff] at contains
  lia

theorem interior_line (complete : Complete program start graph) (id : BlockId) (block : Block)
    (found : graph.blocks[id]? = some block) (line : Line) (after : block.lines.first ≤ line)
    (before : line < block.lines.last) :
    (∀ next, program.Step line next ↔ next = line + 1) ∧
      ∃ statement, program.get? line = some statement ∧ statement.opcode ≠ .call := by
  obtain ⟨_, bound, inside⟩ := block_bounds complete id block found
  obtain ⟨falls, jumpless, plain⟩ := program.inside_falls_through line (by lia)
    (inside (line + 1) (by lia) before)
  refine ⟨?_, plain⟩
  intro next
  constructor
  · intro step
    rcases step with through | jumps
    · exact through.2
    · exact absurd jumps (jumpless next)
  · intro same
    exact Or.inl ⟨falls, same⟩

theorem children_follow (complete : Complete program start graph) (id : BlockId) (block : Block)
    (found : graph.blocks[id]? = some block) :
    block.children.Nodup ∧ (∀ child ∈ block.children, child < graph.blocks.length) ∧
    (∀ next, (∃ child ∈ block.children, startOf? graph.blocks child = some next) ↔
      program.Step block.lines.last next) ∧
    (program.FallsThrough block.lines.last →
      block.children.head?.bind (startOf? graph.blocks) = some (block.lines.last + 1)) := by
  obtain ⟨⟨lines, follow, starts⟩, _⟩ := complete.linked id block found
  refine ⟨?_, ?_, ?_, ?_⟩
  · apply List.Nodup.of_map (startOf? graph.blocks)
    rw [starts]
    exact follow.nodup.map (fun _ _ => Option.some.inj)
  · intro child member
    exact Construction.child_lt graph.blocks block.children lines.toList starts child member
  · intro next
    rw [← follow.mem]
    constructor
    · intro present
      obtain ⟨child, member, first⟩ := present
      have listed : startOf? graph.blocks child ∈ lines.toList.map some := by
        rw [← starts]
        exact List.mem_map_of_mem member
      rw [first] at listed
      simpa using listed
    · intro member
      have listed : some next ∈ block.children.map (startOf? graph.blocks) := by
        rw [starts]
        exact List.mem_map_of_mem member
      exact List.mem_map.mp listed
  · intro falls
    have first := follow.head falls
    have heads := congrArg List.head? starts
    rw [List.head?_map, List.head?_map, first] at heads
    cases child : block.children.head? with
    | none => simp [child] at heads
    | some child' => simpa [child] using heads

theorem start_contained (complete : Complete program start graph) (id : BlockId) (line : Line)
    (first : startOf? graph.blocks id = some line) : graph.isReachable line = true := by
  obtain ⟨block, found, rfl⟩ := Option.map_eq_some_iff.mp first
  rw [reachable_iff complete]
  refine ⟨id, block, found, ?_⟩
  rw [LineRange.contains_iff]
  exact ⟨Nat.le_refl _, (block_bounds complete id block found).1⟩

theorem reachable_step (complete : Complete program start graph) (line next : Line)
    (reachable : graph.isReachable line = true)
    (moves : program.Step line next ∨ program.Calls line next) : graph.isReachable next = true := by
  obtain ⟨id, block, found, contains⟩ := (reachable_iff complete line).mp reachable
  rw [LineRange.contains_iff] at contains
  by_cases last : line = block.lines.last
  · subst last
    rcases moves with step | calls
    · obtain ⟨child, _, first⟩ := ((children_follow complete id block found).2.2.1 next).mpr step
      exact start_contained complete child next first
    · obtain ⟨root, _, first⟩ := (complete.linked id block found).called next calls
      exact start_contained complete root next first
  · obtain ⟨steps, statement, here, notCall⟩ :=
      interior_line complete id block found line contains.1 (by lia)
    rcases moves with step | calls
    · rw [(steps next).mp step, reachable_iff complete]
      refine ⟨id, block, found, ?_⟩
      rw [LineRange.contains_iff]
      exact ⟨by lia, by lia⟩
    · obtain ⟨other, function, otherHere, callee, _⟩ := calls
      obtain rfl : other = statement := Option.some.inj (otherHere.symm.trans here)
      exact absurd (other.callee_call function callee) notCall

theorem reachable_iff_reaches (complete : Complete program start graph) (line : Line) :
    graph.isReachable line = true ↔ program.Reaches start line := by
  constructor
  · intro reachable
    obtain ⟨id, block, found, contains⟩ := (reachable_iff complete line).mp reachable
    have present := List.mem_of_getElem? found
    exact (complete.reached block present).trans (Construction.block_runs complete.describes _
      complete.placed block.lines (List.mem_map_of_mem present) line contains)
  · intro reaches
    induction reaches with
    | refl =>
        obtain ⟨root, _, first⟩ := complete.entry
        exact start_contained complete root start first
    | tail _ moves ih => exact reachable_step complete _ _ ih moves

end Completed

structure RefinesLines (program : Program) (table : SymbolTable) (name : String) (graph : FlowGraph) :
    Prop where
  reachable : ∃ function start, table.findFunction? name = some function ∧
    program.LastNaming .func function start ∧
    ∀ line, graph.isReachable line = true ↔ program.Reaches start line
  childrenNodup : ∀ (id : BlockId) (block : Block), graph.blocks[id]? = some block →
    block.children.Nodup
  childrenBound : ∀ (id : BlockId) (block : Block), graph.blocks[id]? = some block →
    ∀ child ∈ block.children, child < graph.blocks.length
  children : ∀ (id : BlockId) (block : Block), graph.blocks[id]? = some block →
    ∀ next, (∃ child ∈ block.children, startOf? graph.blocks child = some next) ↔
      program.Step block.lines.last next
  fallthroughFirst : ∀ (id : BlockId) (block : Block), graph.blocks[id]? = some block →
    program.FallsThrough block.lines.last →
      block.children.head?.bind (startOf? graph.blocks) = some (block.lines.last + 1)
  interior : ∀ (id : BlockId) (block : Block), graph.blocks[id]? = some block →
    ∀ line, block.lines.first ≤ line → line < block.lines.last →
      (∀ next, program.Step line next ↔ next = line + 1) ∧
        ∃ statement, program.get? line = some statement ∧ statement.opcode ≠ .call

theorem graph_refines_lines (program : Program) (table : SymbolTable) (name : String)
    (graph : FlowGraph) (built : build program table name = .ok graph) :
    RefinesLines program table name graph := by
  obtain ⟨function, start, named, last, complete⟩ := build_complete program table name graph built
  refine ⟨⟨function, start, named, last, reachable_iff_reaches complete⟩, ?_, ?_, ?_, ?_, ?_⟩
  · intro id block found
    exact (children_follow complete id block found).1
  · intro id block found
    exact (children_follow complete id block found).2.1
  · intro id block found
    exact (children_follow complete id block found).2.2.1
  · intro id block found
    exact (children_follow complete id block found).2.2.2
  · intro id block found
    exact interior_line complete id block found

/-- A recursive function with a loop, two lines for one label, and a jump nowhere in dead code. -/
def roundabout : Program :=
  let name (id : SymbolId) (ty : ValueType) : Option Operand := some (.symbol ⟨id, ty⟩)
  ⟨[⟨.void, .func, name 1 .int, none, none⟩,
    ⟨.void, .label, name 4 .void, none, none⟩,
    ⟨.void, .label, name 3 .void, none, none⟩,
    ⟨.long, .jumpZero, name 2 .int, none, name 4 .void⟩,
    ⟨.long, .call, name 1 .int, none, name 2 .int⟩,
    ⟨.void, .goto, name 3 .void, none, none⟩,
    ⟨.void, .goto, some (.immediate (.bool true)), none, none⟩,
    ⟨.void, .label, name 4 .void, none, none⟩,
    ⟨.void, .ret, name 2 .int, none, none⟩]⟩

def roundaboutTable : SymbolTable :=
  ⟨[⟨"main", .int, .function, none⟩, ⟨"x", .int, .variable, some 1⟩, ⟨"@0", .void, .label, some 1⟩,
    ⟨"@1", .void, .label, some 1⟩], [⟨1, [], [2]⟩]⟩

theorem roundabout_builds : ∃ graph, build roundabout roundaboutTable "main" = .ok graph := by
  have succeeds : (build roundabout roundaboutTable "main").isOk = true := by decide
  cases result : build roundabout roundaboutTable "main" with
  | error reason => simp [result, Except.isOk, Except.toBool] at succeeds
  | ok graph => exact ⟨graph, rfl⟩

theorem roundabout_refines_lines : ∃ graph, build roundabout roundaboutTable "main" = .ok graph ∧
    RefinesLines roundabout roundaboutTable "main" graph := by
  obtain ⟨graph, built⟩ := roundabout_builds
  exact ⟨graph, built, graph_refines_lines roundabout roundaboutTable "main" graph built⟩

end FlowGraph

end ThreeAddress
