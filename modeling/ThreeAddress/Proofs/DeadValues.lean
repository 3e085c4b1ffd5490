import ThreeAddress.Proofs.Liveness

set_option autoImplicit false

namespace ThreeAddress

universe u v

variable {ν : Type u} {μ : Type v}

structure Memory (ν : Type u) (μ : Type v) where
  store : SymbolId → ν
  rest : μ

structure Behaviour (ν : Type u) (μ : Type v) where
  next : Line → Memory ν μ → Option Line
  effect : Line → Memory ν μ → Memory ν μ

namespace Behaviour

def step (behaviour : Behaviour ν μ) : Option Line × Memory ν μ → Option Line × Memory ν μ
  | (none, memory) => (none, memory)
  | (some line, memory) => (behaviour.next line memory, behaviour.effect line memory)

def run (behaviour : Behaviour ν μ) (start : Option Line × Memory ν μ) :
    Nat → Option Line × Memory ν μ
  | 0 => start
  | steps + 1 => behaviour.step (behaviour.run start steps)

/-- Control goes along the graph. What a line does depends on the variables that its statement reads
and on the rest of the memory, and of the variables it changes the one that it writes. -/
structure Respects (program : Program) (table : SymbolTable) (graph : FlowGraph)
    (behaviour : Behaviour ν μ) : Prop where
  flow : ∀ line memory next, behaviour.next line memory = some next → graph.LineFlow line next
  reads : ∀ line statement (a b : Memory ν μ), program.get? line = some statement → a.rest = b.rest →
    (∀ id ∈ statement.reads table, a.store id = b.store id) →
    behaviour.next line a = behaviour.next line b ∧
      (behaviour.effect line a).rest = (behaviour.effect line b).rest ∧
      ∀ id, statement.writes table = some id →
        (behaviour.effect line a).store id = (behaviour.effect line b).store id
  frame : ∀ line statement memory id, program.get? line = some statement → table.isTracked id = true →
    statement.writes table ≠ some id → (behaviour.effect line memory).store id = memory.store id

end Behaviour

theorem Statement.mem_reads (statement : Statement) (table : SymbolTable) (id : SymbolId)
    (reads : id ∈ statement.reads table) : ∃ operand ∈ statement.operands, tracked? table (some operand) = some id := by
  have filled : ∀ slot : Option Operand, tracked? table slot = some id →
      ∃ operand, slot = some operand ∧ tracked? table (some operand) = some id := by
    intro slot found
    cases slot with
    | none => cases found
    | some operand => exact ⟨operand, rfl, found⟩
  unfold Statement.reads at reads
  rcases List.mem_append.mp reads with first | second
  · split at first
    next =>
      obtain ⟨operand, slot, found⟩ := filled statement.first (Option.mem_toList.mp first)
      exact ⟨operand, by simp [operands, slot], found⟩
    next => cases first
  · split at second
    next =>
      obtain ⟨operand, slot, found⟩ := filled statement.second (Option.mem_toList.mp second)
      exact ⟨operand, by simp [operands, slot], found⟩
    next => cases second

theorem Statement.reads_tracked (statement : Statement) (table : SymbolTable) (id : SymbolId)
    (reads : id ∈ statement.reads table) : table.isTracked id = true := by
  obtain ⟨_, _, found⟩ := statement.mem_reads table id reads
  exact (Option.filter_eq_some_iff.mp found).2

namespace Liveness

structure Agree (liveness : Liveness) (a b : Option Line × Memory ν μ) : Prop where
  place : a.1 = b.1
  rest : a.2.rest = b.2.rest
  store : ∀ line, a.1 = some line → ∀ id, liveness.LiveIn line id → a.2.store id = b.2.store id

section Computed

variable {program : Program} {table : SymbolTable} {graph : FlowGraph} {start : Line}
  (complete : FlowGraph.Complete program start graph)

include complete

theorem live_of_reads (line : Line) (reachable : graph.isReachable line = true) (statement : Statement)
    (found : program.get? line = some statement) (id : SymbolId) (reads : id ∈ statement.reads table) :
    (compute program table graph).LiveIn line id := by
  have solution := (analysis program table).solve_solution graph.controlFlow program.size
    (FlowGraph.control_flow_tiled complete)
  rw [← holds_before]
  exact holds_transfer complete _ solution line reachable id
    (Or.inl ((mem_gen program table line id).mpr ⟨statement, found, reads⟩))

theorem live_of_next (line next : Line) (reachable : graph.isReachable line = true)
    (flow : graph.LineFlow line next) (statement : Statement) (found : program.get? line = some statement)
    (id : SymbolId) (kept : statement.writes table ≠ some id)
    (ahead : (compute program table graph).LiveIn next id) :
    (compute program table graph).LiveIn line id := by
  have solution := (analysis program table).solve_solution graph.controlFlow program.size
    (FlowGraph.control_flow_tiled complete)
  rw [← holds_before] at ahead ⊢
  apply holds_transfer complete _ solution line reachable id
  refine Or.inr ⟨holds_flow complete _ solution line next flow id ahead, ?_⟩
  intro killed
  obtain ⟨other, foundOther, writes⟩ := (mem_kill program table line id).mp killed
  obtain rfl : other = statement := Option.some.inj (foundOther.symm.trans found)
  exact kept writes

theorem live_tracked (line : Line) (id : SymbolId) (live : (compute program table graph).LiveIn line id) :
    table.isTracked id = true := by
  have solution := (analysis program table).solve_solution graph.controlFlow program.size
    (FlowGraph.control_flow_tiled complete)
  have within := solution.least _ _ (read_ahead_bounds table complete)
  obtain ⟨_, _, statement, _, _, reads, _⟩ := within.before line id ((holds_before _ line id).mpr live)
  exact statement.reads_tracked table id reads

theorem step_agree (behaviour : Behaviour ν μ) (respects : behaviour.Respects program table graph)
    (line : Line) (reachable : graph.isReachable line = true) (a b : Memory ν μ)
    (agree : (compute program table graph).Agree (some line, a) (some line, b)) :
    (compute program table graph).Agree (behaviour.step (some line, a)) (behaviour.step (some line, b)) := by
  -- What is live at the next line was written just now, or was live before.
  obtain ⟨id, block, inside, contains⟩ := (FlowGraph.reachable_iff complete line).mp reachable
  have bound := (FlowGraph.block_bounds complete id block inside).2.1
  rw [LineRange.contains_iff] at contains
  obtain ⟨statement, found⟩ := program.get_of_lt line (by lia)
  have alike : ∀ id ∈ statement.reads table, a.store id = b.store id := fun id reads =>
    agree.store line rfl id (live_of_reads complete line reachable statement found id reads)
  obtain ⟨place, rest, written⟩ := respects.reads line statement a b found agree.rest alike
  refine ⟨place, rest, ?_⟩
  intro next goes id live
  by_cases writes : statement.writes table = some id
  · exact written id writes
  · have tracked := live_tracked complete next id live
    have before := live_of_next complete line next reachable (respects.flow line a next goes) statement found id
      writes live
    calc (behaviour.effect line a).store id = a.store id := respects.frame line statement a id found tracked writes
      _ = b.store id := agree.store line rfl id before
      _ = (behaviour.effect line b).store id :=
        (respects.frame line statement b id found tracked writes).symm

theorem run_agree (behaviour : Behaviour ν μ) (respects : behaviour.Respects program table graph)
    (first : Line) (reachable : graph.isReachable first = true) (a b : Memory ν μ)
    (agree : (compute program table graph).Agree (some first, a) (some first, b)) (steps : Nat) :
    (compute program table graph).Agree (behaviour.run (some first, a) steps)
        (behaviour.run (some first, b) steps) ∧
      ∀ line, (behaviour.run (some first, a) steps).1 = some line → graph.isReachable line = true := by
  induction steps with
  | zero => exact ⟨agree, fun line here => Option.some.inj here ▸ reachable⟩
  | succ steps ih =>
      obtain ⟨agreed, known⟩ := ih
      simp only [Behaviour.run]
      rcases left : behaviour.run (some first, a) steps with ⟨place, memory⟩
      rcases right : behaviour.run (some first, b) steps with ⟨other, memoryOther⟩
      rw [left, right] at agreed
      rw [left] at known
      obtain rfl : place = other := agreed.place
      cases place with
      | none => exact ⟨agreed, known⟩
      | some line =>
          refine ⟨step_agree complete behaviour respects line (known line rfl) memory memoryOther agreed, ?_⟩
          intro next goes
          exact FlowGraph.line_flow_reachable complete line next (respects.flow line memory next goes)

end Computed

theorem dead_values_irrelevant (program : Program) (table : SymbolTable) (name : String) (graph : FlowGraph)
    (built : FlowGraph.build program table name = .ok graph) (behaviour : Behaviour ν μ)
    (respects : behaviour.Respects program table graph) (line : Line)
    (reachable : graph.isReachable line = true) (a b : Memory ν μ) (rest : a.rest = b.rest)
    (store : ∀ id, (compute program table graph).LiveIn line id → a.store id = b.store id) (steps : Nat) :
    (compute program table graph).Agree (behaviour.run (some line, a) steps)
      (behaviour.run (some line, b) steps) := by
  obtain ⟨_, start, _, _, complete⟩ := FlowGraph.build_complete program table name graph built
  refine (run_agree complete behaviour respects line reachable a b ⟨rfl, rest, ?_⟩ steps).1
  intro other here
  obtain rfl : line = other := Option.some.inj here
  exact store

def countdown : Behaviour Int Int where
  next line memory :=
    match line with
    | 0 => some 1
    | 1 => some 2
    | 2 => some 3
    | 3 => some (if memory.store 2 = 0 then 7 else 4)
    | 4 => some 5
    | 5 => some 2
    | 7 => some 8
    | _ => none
  effect line memory :=
    if line = 4 then ⟨Function.update memory.store 2 memory.rest, memory.rest - 1⟩ else memory

def roundaboutBlocks : List Block :=
  [⟨⟨0, 1⟩, .continuous 1, []⟩, ⟨⟨2, 3⟩, .branching 2 3, [0, 4]⟩, ⟨⟨4, 4⟩, .continuous 4, [1]⟩,
    ⟨⟨7, 8⟩, .terminated, [1]⟩, ⟨⟨5, 5⟩, .continuous 1, [2]⟩]

theorem roundabout_graph : ∃ graph,
    FlowGraph.build FlowGraph.roundabout FlowGraph.roundaboutTable "main" = .ok graph ∧
    graph.blocks = roundaboutBlocks ∧
    ∀ id, ¬ (compute FlowGraph.roundabout FlowGraph.roundaboutTable graph).LiveIn 4 id := by
  have facts : (FlowGraph.build FlowGraph.roundabout FlowGraph.roundaboutTable "main").toOption.map (fun graph =>
      (graph.blocks,
        ((compute FlowGraph.roundabout FlowGraph.roundaboutTable graph).liveIn? 4).map fun set => set.toList)) =
      some (roundaboutBlocks, some []) := by
    decide +kernel
  obtain ⟨graph, built, same⟩ := Option.map_eq_some_iff.mp facts
  obtain ⟨blocks, before⟩ := Prod.mk.inj same
  refine ⟨graph, ?_, blocks, ?_⟩
  · cases result : FlowGraph.build FlowGraph.roundabout FlowGraph.roundaboutTable "main" with
    | error reason => simp [result, Except.toOption] at built
    | ok found => simpa [result, Except.toOption] using built
  · rintro id ⟨set, known, member⟩
    rw [known, Option.map_some, Option.some.injEq] at before
    rw [← Std.ExtTreeSet.mem_toList, before] at member
    cases member

theorem countdown_flow (graph : FlowGraph) (blocks : graph.blocks = roundaboutBlocks) (line : Line)
    (memory : Memory Int Int) (next : Line) (goes : countdown.next line memory = some next) :
    graph.LineFlow line next := by
  unfold FlowGraph.LineFlow
  rw [blocks]
  simp only [countdown] at goes
  split at goes
  next => exact ⟨0, _, rfl, rfl, (Option.some.inj goes).symm⟩
  next => exact ⟨0, _, rfl, rfl, 1, by decide, goes⟩
  next => exact ⟨1, _, rfl, rfl, (Option.some.inj goes).symm⟩
  next =>
    rw [← Option.some.inj goes]
    split
    next => exact ⟨1, _, rfl, rfl, 3, by decide, rfl⟩
    next => exact ⟨1, _, rfl, rfl, 2, by decide, rfl⟩
  next => exact ⟨2, _, rfl, rfl, 4, by decide, goes⟩
  next => exact ⟨4, _, rfl, rfl, 1, by decide, goes⟩
  next => exact ⟨3, _, rfl, rfl, (Option.some.inj goes).symm⟩
  next => cases goes

theorem countdown_respects (graph : FlowGraph) (blocks : graph.blocks = roundaboutBlocks) :
    countdown.Respects FlowGraph.roundabout FlowGraph.roundaboutTable graph := by
  have writes : ∀ line < 9, ∀ statement ∈ FlowGraph.roundabout.get? line,
      statement.writes FlowGraph.roundaboutTable = if line = 4 then some 2 else none := by decide
  have reads : ∀ statement ∈ FlowGraph.roundabout.get? 3, 2 ∈ statement.reads FlowGraph.roundaboutTable := by
    decide
  refine ⟨countdown_flow graph blocks, ?_, ?_⟩
  · intro line statement a b found rest alike
    have written := writes line (FlowGraph.roundabout.get_lt_size line statement found) statement found
    refine ⟨?_, ?_, ?_⟩
    · by_cases test : line = 3
      · subst test
        simp only [countdown, alike 2 (reads statement found)]
      · unfold countdown
        grind
    · by_cases call : line = 4
      · simp [countdown, call, rest]
      · simp [countdown, call, rest]
    · intro id same
      by_cases call : line = 4
      · obtain rfl : 2 = id := by simpa [call, written] using same
        simp [countdown, call, rest]
      · simp [written, call] at same
  · intro line statement memory id found _ kept
    rw [writes line (FlowGraph.roundabout.get_lt_size line statement found) statement found] at kept
    by_cases call : line = 4
    · have other : id ≠ 2 := fun two => kept (by simp [call, two])
      simp [countdown, call, other]
    · simp [countdown, call]

theorem countdown_irrelevant : ∃ graph,
    FlowGraph.build FlowGraph.roundabout FlowGraph.roundaboutTable "main" = .ok graph ∧
    countdown.Respects FlowGraph.roundabout FlowGraph.roundaboutTable graph ∧ graph.isReachable 4 = true ∧
    ∀ steps, (compute FlowGraph.roundabout FlowGraph.roundaboutTable graph).Agree
      (countdown.run (some 4, ⟨fun _ => 5, 3⟩) steps) (countdown.run (some 4, ⟨fun _ => 0, 3⟩) steps) := by
  obtain ⟨graph, built, blocks, dead⟩ := roundabout_graph
  have reachable : graph.isReachable 4 = true := by
    rw [FlowGraph.isReachable, FlowGraph.blockOf?, blocks]
    rfl
  have respects := countdown_respects graph blocks
  refine ⟨graph, built, respects, reachable, ?_⟩
  exact dead_values_irrelevant _ _ "main" graph built countdown respects 4 reachable ⟨fun _ => 5, 3⟩
    ⟨fun _ => 0, 3⟩ rfl fun id live => absurd live (dead id)

end Liveness

end ThreeAddress
