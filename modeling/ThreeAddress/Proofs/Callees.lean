import Mathlib.Tactic.IntervalCases
import ThreeAddress.Proofs.DeadValues

set_option autoImplicit false

namespace ThreeAddress

namespace Liveness

variable (program : Program) (table : SymbolTable) (graph : FlowGraph)

def Across (line next : Line) : Prop := graph.LineFlow line next ∨ program.Calls line next

inductive AcrossPath : Line → List Line → Line → Prop where
  | here (line : Line) : AcrossPath line [] line
  | step (line next last : Line) (passed : List Line) (moves : Across program graph line next)
      (rest : AcrossPath next passed last) : AcrossPath line (line :: passed) last

/-- From right behind the line, some path through calls leads to a line that reads the variable, and
passes no line that overwrites it. -/
def ReadAcross (line : Line) (id : SymbolId) : Prop :=
  ∃ next passed last statement, Across program graph line next ∧ AcrossPath program graph next passed last ∧
    program.get? last = some statement ∧ id ∈ statement.reads table ∧
    ∀ other ∈ passed, ∀ step, program.get? other = some step → step.writes table ≠ some id

/-- What is live where a function is entered is live behind its calls. -/
def Covers (id : SymbolId) : Prop :=
  ∀ line entry, graph.isReachable line = true → program.Calls line entry →
    (compute program table graph).LiveIn entry id → (compute program table graph).LiveOut line id

theorem across_of_line_path (line last : Line) (passed : List Line) (path : graph.LinePath line passed last) :
    AcrossPath program graph line passed last := by
  induction path with
  | here line => exact .here line
  | step line next last passed flow _ ih => exact .step line next last passed (Or.inl flow) ih

section Completed

variable {program table graph} {start : Line} (complete : FlowGraph.Complete program start graph)

include complete

theorem across_reachable (line next : Line) (reachable : graph.isReachable line = true)
    (moves : Across program graph line next) : graph.isReachable next = true := by
  rcases moves with flow | calls
  · exact FlowGraph.line_flow_reachable complete line next flow
  · exact FlowGraph.reachable_step complete line next reachable (Or.inr calls)

variable (id : SymbolId) (covers : Covers program table graph id)

include covers

theorem across_live_out (line next : Line) (reachable : graph.isReachable line = true)
    (moves : Across program graph line next) (ahead : (compute program table graph).LiveIn next id) :
    (compute program table graph).LiveOut line id := by
  rcases moves with flow | calls
  · exact ((compute_exact table complete).liveOut line reachable id).mpr ⟨next, flow, ahead⟩
  · exact covers line next reachable calls ahead

theorem across_path_live (line last : Line) (passed : List Line)
    (path : AcrossPath program graph line passed last)
    (reachable : graph.isReachable line = true) (statement : Statement)
    (found : program.get? last = some statement) (reads : id ∈ statement.reads table)
    (clear : ∀ other ∈ passed, ∀ step, program.get? other = some step → step.writes table ≠ some id) :
    (compute program table graph).LiveIn line id := by
  -- From a line that reads the variable back along the path, it is live at every line.
  induction path with
  | here line => exact live_of_reads complete line reachable statement found id reads
  | step line next last passed moves _ ih =>
      have ahead := ih (across_reachable complete line next reachable moves) found
        fun other member => clear other (List.mem_cons_of_mem line member)
      have behind := across_live_out complete id covers line next reachable moves ahead
      obtain ⟨after, flow, live⟩ := ((compute_exact table complete).liveOut line reachable id).mp behind
      obtain ⟨here, foundHere⟩ := program.get_of_lt line (FlowGraph.reachable_lt complete line reachable)
      exact live_of_next complete line after reachable flow here foundHere id
        (clear line List.mem_cons_self here foundHere) live

end Completed

theorem callees_accounted_iff (program : Program) (table : SymbolTable) (name : String) (graph : FlowGraph)
    (built : FlowGraph.build program table name = .ok graph) (id : SymbolId) :
    (∀ line, graph.isReachable line = true → ReadAcross program table graph line id →
      (compute program table graph).LiveOut line id) ↔ Covers program table graph id := by
  obtain ⟨_, start, _, _, complete⟩ := FlowGraph.build_complete program table name graph built
  have exact := compute_exact table complete
  constructor
  · intro accounts line entry reachable calls live
    have inside := FlowGraph.reachable_step complete line entry reachable (Or.inr calls)
    obtain ⟨passed, last, statement, path, found, reads, clear⟩ := (exact.liveIn entry inside id).mp live
    exact accounts line reachable ⟨entry, passed, last, statement, Or.inr calls,
      across_of_line_path program graph entry last passed path, found, reads, clear⟩
  · intro covers line reachable ahead
    obtain ⟨next, passed, last, statement, moves, path, found, reads, clear⟩ := ahead
    have live := across_path_live complete id covers next last passed path
      (across_reachable complete line next reachable moves) statement found reads clear
    exact across_live_out complete id covers line next reachable moves live

/-- A function that stores in a global variable and calls another that returns the variable. -/
def relay (returned : Option Operand) : Program :=
  let name (id : SymbolId) (ty : ValueType) : Option Operand := some (.symbol ⟨id, ty⟩)
  ⟨[⟨.void, .func, name 2 .int, none, none⟩,
    ⟨.long, .assign, some (.immediate (.int 1)), none, name 1 .int⟩,
    ⟨.long, .call, name 3 .int, none, none⟩,
    ⟨.void, .ret, returned, none, none⟩,
    ⟨.void, .func, name 3 .int, none, none⟩,
    ⟨.void, .ret, name 1 .int, none, none⟩]⟩

def relayTable : SymbolTable :=
  ⟨[⟨"g", .int, .variable, none⟩, ⟨"main", .int, .function, none⟩, ⟨"f", .int, .function, none⟩],
    [⟨2, [], []⟩, ⟨3, [], []⟩]⟩

def relayBlocks : List Block :=
  [⟨⟨0, 2⟩, .continuous 1, []⟩, ⟨⟨3, 3⟩, .terminated, [0]⟩, ⟨⟨4, 5⟩, .terminated, []⟩]

theorem relay_graph (returned : Option Operand) (line : Line) (behind : List SymbolId)
    (facts : (FlowGraph.build (relay returned) relayTable "main").toOption.map (fun graph =>
      (graph.blocks, ((compute (relay returned) relayTable graph).liveOut? line).map fun set => set.toList)) =
      some (relayBlocks, some behind)) :
    ∃ graph, FlowGraph.build (relay returned) relayTable "main" = .ok graph ∧ graph.blocks = relayBlocks ∧
      ∀ id, (compute (relay returned) relayTable graph).LiveOut line id ↔ id ∈ behind := by
  obtain ⟨graph, built, same⟩ := Option.map_eq_some_iff.mp facts
  obtain ⟨blocks, after⟩ := Prod.mk.inj same
  obtain ⟨set, known, listed⟩ := Option.map_eq_some_iff.mp after
  refine ⟨graph, ?_, blocks, ?_⟩
  · cases result : FlowGraph.build (relay returned) relayTable "main" with
    | error reason => simp [result, Except.toOption] at built
    | ok found => simpa [result, Except.toOption] using built
  · intro id
    simp [LiveOut, known, ← listed]

theorem relay_calls (returned : Option Operand) (line entry : Line) :
    (relay returned).Calls line entry ↔ line = 2 ∧ entry = 4 := by
  have named : (relay returned).LastNaming .func 3 4 := by
    refine ⟨⟨_, rfl, rfl, rfl⟩, ?_⟩
    intro later statement above found names
    have bound : later < 6 := (relay returned).get_lt_size later statement found
    obtain rfl : later = 5 := by lia
    obtain rfl := Option.some.inj found
    cases names.1
  constructor
  · rintro ⟨statement, function, found, callee, last⟩
    have bound : line < 6 := (relay returned).get_lt_size line statement found
    have called : line = 2 ∧ function = 3 := by
      interval_cases line
      all_goals
        obtain rfl := Option.some.inj found
        simp [Statement.callee?, Statement.subject?, Operand.symbolId?] at callee
      exact ⟨rfl, callee.symm⟩
    obtain ⟨rfl, rfl⟩ := called
    exact ⟨rfl, (relay returned).last_naming_unique .func 3 entry 4 last named⟩
  · rintro ⟨rfl, rfl⟩
    exact ⟨_, 3, rfl, rfl, named⟩

/-- The store is dead by the account of liveness, although the function that is called reads it. -/
theorem relay_store_dead : ∃ graph,
    FlowGraph.build (relay none) relayTable "main" = .ok graph ∧ graph.isReachable 1 = true ∧
    relayTable.get? 1 = some ⟨"g", .int, .variable, none⟩ ∧ ReadAcross (relay none) relayTable graph 1 1 ∧
    ¬ (compute (relay none) relayTable graph).LiveOut 1 1 := by
  obtain ⟨graph, built, blocks, behind⟩ := relay_graph none 1 [] (by decide +kernel)
  refine ⟨graph, built, ?_, rfl, ?_, by simp [behind]⟩
  · rw [FlowGraph.isReachable, FlowGraph.blockOf?, blocks]
    rfl
  · have flows : graph.LineFlow 1 2 ∧ graph.LineFlow 4 5 := by
      unfold FlowGraph.LineFlow
      rw [blocks]
      exact ⟨⟨0, _, rfl, rfl, rfl⟩, ⟨2, _, rfl, rfl, rfl⟩⟩
    have calls : Across (relay none) graph 2 4 := Or.inr ((relay_calls none 2 4).mpr ⟨rfl, rfl⟩)
    refine ⟨2, [2, 4], 5, _, Or.inl flows.1,
      .step 2 4 5 [4] calls (.step 4 5 5 [] (Or.inl flows.2) (.here 5)), rfl, by decide, ?_⟩
    intro other member step found
    have kept : ∀ line ∈ [2, 4], ∀ statement ∈ (relay none).get? line,
        statement.writes relayTable ≠ some 1 := by decide
    exact kept other member step found

theorem relay_store_live : ∃ graph,
    FlowGraph.build (relay (some (.symbol ⟨1, .int⟩))) relayTable "main" = .ok graph ∧
    Covers (relay (some (.symbol ⟨1, .int⟩))) relayTable graph 1 ∧
    ∀ line, graph.isReachable line = true → ReadAcross (relay (some (.symbol ⟨1, .int⟩))) relayTable graph line 1 →
      (compute (relay (some (.symbol ⟨1, .int⟩))) relayTable graph).LiveOut line 1 := by
  obtain ⟨graph, built, blocks, behind⟩ := relay_graph (some (.symbol ⟨1, .int⟩)) 2 [1] (by decide +kernel)
  have covers : Covers (relay (some (.symbol ⟨1, .int⟩))) relayTable graph 1 := by
    intro line entry _ calls _
    obtain ⟨rfl, _⟩ := (relay_calls _ line entry).mp calls
    exact (behind 1).mpr List.mem_cons_self
  exact ⟨graph, built, covers, (callees_accounted_iff _ relayTable "main" graph built 1).mpr covers⟩

end Liveness

end ThreeAddress
