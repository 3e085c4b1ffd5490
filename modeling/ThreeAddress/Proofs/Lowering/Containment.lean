import ThreeAddress.Proofs.Flow.Refinement
import ThreeAddress.Proofs.Lowering.Extents

set_option autoImplicit false

namespace ThreeAddress

namespace FlowGraph

theorem block_enclosed {program : Program} {start : Line} {graph : FlowGraph}
    (complete : Complete program start graph) (id : BlockId) (block : Block) (found : graph.blocks[id]? = some block)
    (function : SymbolId) (first : program.EnclosedBy block.lines.first function) (line : Line)
    (inside : block.lines.contains line = true) : program.EnclosedBy line function := by
  obtain ⟨above, below⟩ := (LineRange.contains_iff block.lines line).mp inside
  obtain ⟨_, bound, clear⟩ := block_bounds complete id block found
  clear inside
  induction line, above using Nat.le_induction with
  | base => exact first
  | succ line above ih =>
      obtain ⟨statement, here⟩ := program.get_of_lt (line + 1) (by lia)
      have plain : statement.opcode ≠ .func := fun opcode =>
        clear (line + 1) (by lia) below (Or.inr (Or.inl ⟨statement, here, opcode⟩))
      exact (program.enclosed_next line function statement here plain).mpr (ih (by lia))

end FlowGraph

namespace Lower

section Generated

variable {bodies : Bodies} {table : SymbolTable} {options : Options} {result : Intermediate} {whole : Lowering}

theorem generated_jump (unit : Generated bodies table options result whole) (line : Line) (statement : Statement)
    (label : SymbolId) (found : whole.program.get? line = some statement)
    (jumps : statement.jumpTarget? = some label) :
    ∃ target id, (∀ other, (∃ mark, whole.program.get? other = some mark ∧ mark.Names .label label) ↔ other = target) ∧
      whole.program.EnclosedBy line id ∧ whole.program.EnclosedBy target id ∧
      ∃ symbol, whole.table.get? label = some symbol ∧ symbol.kind = .label ∧ symbol.owner = some id := by
  obtain ⟨id, _, symbol, before, finished, extent, above, below⟩ :=
    unit.covers line (whole.program.get_lt_size line statement found)
  obtain ⟨target, mark, behind, upTo, marked, names, owned⟩ :=
    extent_jump extent line above below statement found label jumps
  refine ⟨target, id, ?_, extent_encloses extent line above below,
    extent_encloses extent target (Nat.le_of_lt behind) upTo, owned⟩
  have last := Machine.named_last whole.program unit.distinct target mark label marked names
  intro other
  constructor
  · rintro ⟨otherMark, foundOther, namesOther⟩
    exact whole.program.last_naming_unique .label label other target
      (Machine.named_last whole.program unit.distinct other otherMark label foundOther namesOther) last
  · rintro rfl
    exact ⟨mark, marked, names⟩

theorem generated_step (unit : Generated bodies table options result whole) (line next : Line) (function : SymbolId)
    (step : whole.program.Step line next) (inside : whole.program.EnclosedBy line function) :
    whole.program.EnclosedBy next function := by
  rcases step with ⟨falls, rfl⟩ | ⟨statement, label, found, jumps, last⟩
  · obtain ⟨_, after, _, _, _, foundAfter, plain⟩ := falls
    exact (whole.program.enclosed_next line function after foundAfter plain).mpr inside
  · obtain ⟨target, id, only, source, lands, _⟩ := generated_jump unit line statement label found jumps
    obtain rfl := (only next).mp last.1
    exact whole.program.enclosed_unique line id function source inside ▸ lands

theorem generated_enclosed (unit : Generated bodies table options result whole) (line : Line)
    (bound : line < whole.program.size) : ∃ function, whole.program.EnclosedBy line function := by
  obtain ⟨id, _, symbol, before, finished, extent, above, below⟩ := unit.covers line bound
  exact ⟨id, extent_encloses extent line above below⟩

end Generated

structure Contained (result : Intermediate) (after : SymbolTable) : Prop where
  jumps : ∀ line statement label, result.program.get? line = some statement →
    statement.jumpTarget? = some label →
    ∃ target function, (∀ other, (∃ mark, result.program.get? other = some mark ∧ mark.Names .label label) ↔
        other = target) ∧
      result.graph.landmarks.functionOf line = some function ∧
      result.graph.landmarks.functionOf target = some function ∧
      ∃ symbol, after.get? label = some symbol ∧ symbol.kind = .label ∧ symbol.owner = some function
  edges : ∀ (id : BlockId) (block : Block), result.graph.blocks[id]? = some block → ∀ child ∈ block.children,
    ∃ next : Block, result.graph.blocks[child]? = some next ∧
      ∃ function, ∀ line, block.lines.contains line = true ∨ next.lines.contains line = true →
        result.graph.landmarks.functionOf line = some function
  blocks : ∀ (id : BlockId) (block : Block), result.graph.blocks[id]? = some block →
    ∃ function, ∀ line, block.lines.contains line = true →
      result.graph.landmarks.functionOf line = some function

theorem generate_contained (bodies : Bodies) (table after : SymbolTable) (options : Options) (result : Intermediate)
    (generated : generate bodies table options = (.ok result, after)) : Contained result after := by
  obtain ⟨whole, _, rfl, unit⟩ := generate_whole bodies table after options result generated
  obtain ⟨_, start, _, _, complete⟩ :=
    FlowGraph.build_complete whole.program whole.table options.entryPoint result.graph unit.built
  have encloses := FlowGraph.function_of_line whole.program whole.table options.entryPoint result.graph unit.built
  have inside : ∀ (id : BlockId) (block : Block), result.graph.blocks[id]? = some block →
      ∃ function, ∀ line, block.lines.contains line = true → whole.program.EnclosedBy line function := by
    intro id block found
    obtain ⟨order, bound, _⟩ := FlowGraph.block_bounds complete id block found
    obtain ⟨function, first⟩ := generated_enclosed unit block.lines.first (by lia)
    exact ⟨function, FlowGraph.block_enclosed complete id block found function first⟩
  refine ⟨?_, ?_, ?_⟩
  · intro line statement label found jumps
    rw [unit.program] at found ⊢
    simp only [encloses]
    exact generated_jump unit line statement label found jumps
  · intro id block found child member
    obtain ⟨function, lines⟩ := inside id block found
    obtain ⟨_, bounded, follow, _⟩ := FlowGraph.children_follow complete id block found
    obtain ⟨next, foundNext⟩ : ∃ next, result.graph.blocks[child]? = some next :=
      ⟨_, List.getElem?_eq_getElem (bounded child member)⟩
    have step : whole.program.Step block.lines.last next.lines.first :=
      (follow next.lines.first).mp ⟨child, member, by simp [FlowGraph.startOf?, foundNext]⟩
    have last := lines block.lines.last
      ((LineRange.contains_iff _ _).mpr ⟨(FlowGraph.block_bounds complete id block found).1, Nat.le_refl _⟩)
    have first := generated_step unit block.lines.last next.lines.first function step last
    refine ⟨next, foundNext, function, ?_⟩
    simp only [encloses]
    rintro line (own | other)
    · exact lines line own
    · exact FlowGraph.block_enclosed complete child next foundNext function first line other
  · intro id block found
    simp only [encloses]
    exact inside id block found

def ringTable : SymbolTable :=
  ⟨[⟨"main", .int, .function, none⟩, ⟨"x", .int, .variable, some 1⟩, ⟨"spin", .void, .function, none⟩],
    [⟨1, [], [2]⟩, ⟨3, [], []⟩]⟩

def ringBodies : Bodies :=
  let x : Node := .identifier 2 .int
  let choice : Node := .binary .conditional .void x (.binary .branches .void (.unary .ret .void x) .empty)
  let spin : Node := .binary .loop .void (.number (.int 1)) .empty
  let caller : Node := .binary .call .void (.identifier 3 .void) .empty
  ((Bodies.empty.insert 1 (.list .statementList [.binary .loop .void x choice, caller])).2.insert 3 spin).2

theorem ring_contained : ∃ result after,
    generate ringBodies ringTable {} = (.ok result, after) ∧ Contained result after := by
  obtain ⟨result, after, generated, _⟩ :=
    generate_yields ringBodies ringTable {} (fun _ => ()) () (by decide +kernel)
  exact ⟨result, after, generated, generate_contained ringBodies ringTable after {} result generated⟩

end Lower

end ThreeAddress
