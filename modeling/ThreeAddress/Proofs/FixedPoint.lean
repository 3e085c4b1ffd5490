import ThreeAddress.Proofs.DataFlow.Changes
import ThreeAddress.Proofs.Liveness

set_option autoImplicit false

namespace ThreeAddress

namespace Slots

variable {α : Type} [Ord α] [Std.TransOrd α]

def Grown (less more : Slots α) : Prop :=
  List.Forall₂ (Option.Rel fun small large : FactSet α => ∀ x ∈ small, x ∈ large) less more

theorem grown_of_holds (flow : ControlFlow) (count : Nat) (less more : Slots α)
    (coveredLess : GenKill.Covered flow count less) (coveredMore : GenKill.Covered flow count more)
    (holds : ∀ line x, Holds less line x → Holds more line x) : Grown less more := by
  rw [Grown, List.forall₂_iff_get]
  refine ⟨coveredLess.length.trans coveredMore.length.symm, ?_⟩
  intro line inside insideMore
  have present := (coveredLess.present line).trans (coveredMore.present line).symm
  have foundLess := List.getElem?_eq_getElem inside
  have foundMore := List.getElem?_eq_getElem insideMore
  simp only [List.get_eq_getElem]
  cases old : less[line] with
  | none =>
      rw [old] at foundLess
      cases new : more[line] with
      | none => exact .none
      | some large =>
          obtain ⟨_, found⟩ := present.mpr ⟨large, by rw [foundMore, new]⟩
          cases foundLess.symm.trans found
  | some small =>
      rw [old] at foundLess
      obtain ⟨large, found⟩ := present.mp ⟨small, foundLess⟩
      rw [show more[line] = some large from Option.some.inj (foundMore.symm.trans found)]
      apply Option.Rel.some
      intro x member
      obtain ⟨_, same, inLarge⟩ := holds line x ⟨small, foundLess, member⟩
      cases found.symm.trans same
      exact inLarge

end Slots

namespace Liveness

open FlowGraph (roundabout roundaboutTable)

variable (program : Program) (table : SymbolTable) (graph : FlowGraph)

def reachableLines : List Line := (List.range program.size).filter graph.isReachable

def variablesRead : LiveSet :=
  Std.ExtTreeSet.ofList ((reachableLines program graph).flatMap fun line =>
    (program.get? line).elim [] fun statement => statement.reads table)

def sweepOnce (facts : LineFacts SymbolId) : GenKill.Sweep SymbolId :=
  (analysis program table).sweep graph.controlFlow facts

def sweeps (n : Nat) : LineFacts SymbolId :=
  (analysis program table).rounds graph.controlFlow n (GenKill.initial graph.controlFlow program.size)

theorem sweeps_succ (n : Nat) :
    sweeps program table graph (n + 1) = (sweepOnce program table graph (sweeps program table graph n)).facts :=
  GenKill.rounds_succ (analysis program table) graph.controlFlow n _

theorem mem_variables_read (line : Line) (reachable : graph.isReachable line = true) (statement : Statement)
    (found : program.get? line = some statement) (id : SymbolId) (reads : id ∈ statement.reads table) :
    id ∈ variablesRead program table graph := by
  have listed : line ∈ reachableLines program graph :=
    List.mem_filter.mpr ⟨List.mem_range.mpr (program.get_lt_size line statement found), reachable⟩
  have read : id ∈ (reachableLines program graph).flatMap fun line =>
      (program.get? line).elim [] fun statement => statement.reads table :=
    List.mem_flatMap.mpr ⟨line, listed, by rw [found]; exact reads⟩
  simpa [variablesRead] using read

section Completed

variable {program graph} {start : Line} (complete : FlowGraph.Complete program start graph)

include complete

theorem reachable_lines_count :
    graph.controlFlow.covered program.size = (reachableLines program graph).length := by
  rw [reachableLines, ← List.countP_eq_length_filter, ControlFlow.covered]
  apply List.countP_congr
  intro line _
  rw [← FlowGraph.control_flow_contains complete line]
  simp only [List.any_eq_true, List.mem_range]

theorem variables_read_bounds :
    (analysis program table).Bounds graph.controlFlow
      (fun line id => graph.isReachable line = true → id ∈ variablesRead program table graph)
      (fun line id => graph.isReachable line = true → id ∈ variablesRead program table graph) := by
  have inside : ∀ block < graph.controlFlow.blockCount, ∀ line,
      (graph.controlFlow.lines block).first ≤ line → line ≤ (graph.controlFlow.lines block).last →
      graph.isReachable line = true := by
    intro block known line low high
    apply (FlowGraph.control_flow_contains complete line).mp
    exact ⟨block, known, (LineRange.contains_iff _ _).mpr ⟨low, high⟩⟩
  refine ⟨?_, ?_, ?_, ?_, ?_⟩
  · intro line id member reachable
    obtain ⟨statement, found, reads⟩ := (mem_gen program table line id).mp member
    exact mem_variables_read program table graph line reachable statement found id reads
  · exact fun _ _ behind _ => behind
  · intro block known line id low high ahead _
    exact ahead (inside block known (line + 1) (by lia) (by lia))
  · intro block known child edge id ahead _
    have found := List.getElem?_eq_getElem known
    rw [(graph.control_flow_get block _ found).2] at edge
    have bound := (FlowGraph.children_follow complete block _ found).2.1 child edge
    have order := (FlowGraph.control_flow_tiled complete).order child bound
    exact ahead (inside child bound _ (Nat.le_refl _) order)
  · intro block _ _ id member
    exact absurd member Std.ExtTreeSet.not_mem_empty

theorem sweeps_consistent (n : Nat) :
    (analysis program table).Consistent graph.controlFlow program.size (sweeps program table graph n) :=
  (analysis program table).rounds_consistent graph.controlFlow program.size (FlowGraph.control_flow_tiled complete) _
    ((analysis program table).initial_consistent graph.controlFlow program.size
      (FlowGraph.control_flow_tiled complete)) n

theorem sweeps_total (n : Nat) :
    GenKill.total (sweeps program table graph n) ≤
      2 * (reachableLines program graph).length * (variablesRead program table graph).size := by
  have tiled := FlowGraph.control_flow_tiled complete
  have consistent := sweeps_consistent table complete n
  have within := GenKill.rounds_within (analysis program table) graph.controlFlow _ _
    (variables_read_bounds table complete) program.size tiled _
    (GenKill.initial_within graph.controlFlow program.size _ _) n
  rw [← reachable_lines_count complete]
  apply (analysis program table).total_le graph.controlFlow program.size _ consistent
  rintro line id (held | held)
  · apply within.before line id held
    obtain ⟨set, found, _⟩ := held
    exact (FlowGraph.control_flow_contains complete line).mp ((consistent.coveredBefore.present line).mp ⟨set, found⟩)
  · apply within.after line id held
    obtain ⟨set, found, _⟩ := held
    exact (FlowGraph.control_flow_contains complete line).mp ((consistent.coveredAfter.present line).mp ⟨set, found⟩)

theorem sweeps_grown (n : Nat) :
    Slots.Grown (sweeps program table graph n).before (sweeps program table graph (n + 1)).before ∧
      Slots.Grown (sweeps program table graph n).after (sweeps program table graph (n + 1)).after := by
  have here := sweeps_consistent table complete n
  have next := sweeps_consistent table complete (n + 1)
  have includes : GenKill.Includes (sweeps program table graph n) (sweeps program table graph (n + 1)) := by
    rw [sweeps_succ]
    exact ((analysis program table).sweep_step graph.controlFlow program.size
      (FlowGraph.control_flow_tiled complete) _ here).2.includes
  exact ⟨Slots.grown_of_holds _ _ _ _ here.coveredBefore next.coveredBefore includes.before,
    Slots.grown_of_holds _ _ _ _ here.coveredAfter next.coveredAfter includes.after⟩

theorem refine_compute :
    refine (compute program table graph) graph = (false, compute program table graph) := by
  have tiled := FlowGraph.control_flow_tiled complete
  have still : (sweepOnce program table graph (compute program table graph).facts).changed = false :=
    (analysis program table).solve_still graph.controlFlow program.size tiled
  have same : (sweepOnce program table graph (compute program table graph).facts).facts =
      (compute program table graph).facts :=
    ((analysis program table).sweep_still graph.controlFlow program.size tiled _ still).1
  have opened : refine (compute program table graph) graph =
      ((sweepOnce program table graph (compute program table graph).facts).changed,
        ⟨reads program table, writes program table,
          (sweepOnce program table graph (compute program table graph).facts).facts⟩) := rfl
  rw [opened, still, same]
  rfl

end Completed

theorem sweeps_converge (program : Program) (table : SymbolTable) (name : String) (graph : FlowGraph)
    (built : FlowGraph.build program table name = .ok graph) :
    (∀ n, Slots.Grown (sweeps program table graph n).before (sweeps program table graph (n + 1)).before ∧
      Slots.Grown (sweeps program table graph n).after (sweeps program table graph (n + 1)).after) ∧
    ∃ n ≤ 2 * (reachableLines program graph).length * (variablesRead program table graph).size,
      (∀ k, (sweepOnce program table graph (sweeps program table graph k)).changed = true ↔ k < n) ∧
      (compute program table graph).facts = sweeps program table graph n := by
  obtain ⟨_, start, _, _, complete⟩ := FlowGraph.build_complete program table name graph built
  have tiled := FlowGraph.control_flow_tiled complete
  refine ⟨sweeps_grown table complete, ?_⟩
  obtain ⟨n, ends, same⟩ := (analysis program table).solve_rounds graph.controlFlow program.size tiled
  refine ⟨n, ?_, ends, same⟩
  have few := (analysis program table).rounds_total graph.controlFlow program.size tiled _
    ((analysis program table).initial_consistent graph.controlFlow program.size tiled) n fun k less => (ends k).mpr less
  exact Nat.le_trans few (sweeps_total table complete n)

theorem roundabout_converges : ∃ graph, FlowGraph.build roundabout roundaboutTable "main" = .ok graph ∧
    (∀ n, Slots.Grown (sweeps roundabout roundaboutTable graph n).before
        (sweeps roundabout roundaboutTable graph (n + 1)).before ∧
      Slots.Grown (sweeps roundabout roundaboutTable graph n).after
        (sweeps roundabout roundaboutTable graph (n + 1)).after) ∧
    ∃ n ≤ 2 * (reachableLines roundabout graph).length * (variablesRead roundabout roundaboutTable graph).size,
      (∀ k, (sweepOnce roundabout roundaboutTable graph (sweeps roundabout roundaboutTable graph k)).changed = true ↔
        k < n) ∧
      (compute roundabout roundaboutTable graph).facts = sweeps roundabout roundaboutTable graph n := by
  obtain ⟨graph, built⟩ := FlowGraph.roundabout_builds
  exact ⟨graph, built, sweeps_converge roundabout roundaboutTable "main" graph built⟩

theorem sweep_reports_changes (program : Program) (table : SymbolTable) (name : String) (graph : FlowGraph)
    (built : FlowGraph.build program table name = .ok graph) :
    (∀ facts : LineFacts SymbolId, facts.before.length = program.size → facts.after.length = program.size →
      ((sweepOnce program table graph facts).changed = true ↔
        (sweepOnce program table graph facts).facts ≠ facts) ∧
      ∀ line, graph.isReachable line = false →
        (sweepOnce program table graph facts).facts.before[line]? = facts.before[line]? ∧
          (sweepOnce program table graph facts).facts.after[line]? = facts.after[line]?) ∧
    ∀ times, refine ((fun liveness => (refine liveness graph).2)^[times] (compute program table graph)) graph =
      (false, compute program table graph) := by
  obtain ⟨_, start, _, _, complete⟩ := FlowGraph.build_complete program table name graph built
  have tiled := FlowGraph.control_flow_tiled complete
  refine ⟨?_, ?_⟩
  · intro facts before after
    refine ⟨(analysis program table).sweep_changed_iff graph.controlFlow program.size tiled facts ⟨before, after⟩, ?_⟩
    intro line unreachable
    apply Prod.mk.inj
    apply (analysis program table).sweep_outside graph.controlFlow program.size tiled facts ⟨before, after⟩ line
    intro block known
    apply Bool.eq_false_of_not_eq_true
    intro inside
    have reachable := (FlowGraph.control_flow_contains complete line).mp ⟨block, known, inside⟩
    rw [unreachable] at reachable
    cases reachable
  · have once := refine_compute table complete
    intro times
    rw [Function.iterate_fixed (congrArg Prod.snd once) times]
    exact once

theorem roundabout_reports_changes : ∃ graph, FlowGraph.build roundabout roundaboutTable "main" = .ok graph ∧
    (let blank : LineFacts SymbolId := ⟨List.replicate 9 none, List.replicate 9 none⟩
     (sweepOnce roundabout roundaboutTable graph blank).changed = true ↔
      (sweepOnce roundabout roundaboutTable graph blank).facts ≠ blank) ∧
    refine (compute roundabout roundaboutTable graph) graph = (false, compute roundabout roundaboutTable graph) := by
  obtain ⟨graph, built⟩ := FlowGraph.roundabout_builds
  obtain ⟨reports, still⟩ := sweep_reports_changes roundabout roundaboutTable "main" graph built
  exact ⟨graph, built, (reports _ rfl rfl).1, still 0⟩

end Liveness

end ThreeAddress
