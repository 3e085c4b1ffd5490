import ThreeAddress.Liveness
import ThreeAddress.Proofs.DataFlow.Changes
import ThreeAddress.Proofs.Flow.Checked

set_option autoImplicit false

namespace ThreeAddress

open Checked

namespace FlowGraph

structure Tour where
  visited : List Bool
  finished : List BlockId

def Tour.of (blockCount : Nat) (search : ControlFlow.Search) : Tour :=
  ⟨(List.range blockCount).map fun block => decide (block ∈ search.entered), search.finished⟩

def exploreChecked (graph : FlowGraph) : Nat → Tour → BlockId → Option Tour
  | 0, tour, _ => some tour
  | depth + 1, tour, id =>
    if id < tour.visited.length then do
      match ← tour.visited[id]? with
      | true => some tour
      | false =>
        let block ← graph.blocks[id]?
        let visited ← write tour.visited id true
        let inner ← block.next.toList.foldlM (graph.exploreChecked depth) { tour with visited := visited }
        some { inner with finished := id :: inner.finished }
    else some tour

def reversePostOrderChecked (graph : FlowGraph) : Option (List BlockId) := do
  let tour ← graph.roots.foldlM (graph.exploreChecked graph.blocks.length)
    ⟨List.replicate graph.blocks.length false, []⟩
  some tour.finished

theorem visited_enter (count : Nat) (entered : List BlockId) (id : BlockId) :
    ((List.range count).map fun block => decide (block ∈ entered)).set id true =
      (List.range count).map fun block => decide (block ∈ id :: entered) := by
  rw [set_table]
  congr 1
  funext block
  by_cases same : block = id
  · simp [same]
  · simp [same]

theorem explore_checked (graph : FlowGraph) (depth : Nat) (search : ControlFlow.Search) (id : BlockId) :
    graph.exploreChecked depth (Tour.of graph.blocks.length search) id =
      some (Tour.of graph.blocks.length (graph.controlFlow.explore depth search id)) := by
  induction depth generalizing search id with
  | zero => rfl
  | succ depth ih =>
      have count : graph.controlFlow.blockCount = graph.blocks.length := rfl
      rw [ControlFlow.explore, count]
      by_cases bound : id < graph.blocks.length
      · by_cases old : id ∈ search.entered
        · simp [exploreChecked, Tour.of, bound, old]
        · have found := List.getElem?_eq_getElem bound
          have inner := (fold_viewed (Tour.of graph.blocks.length) (graph.controlFlow.explore depth)
            (graph.exploreChecked depth) (fun _ => True) graph.blocks[id].next.toList
            { search with entered := id :: search.entered } (fun state block _ _ => ⟨ih state block, trivial⟩)
            trivial).1
          simp only [Tour.of] at inner
          rw [if_pos ⟨bound, old⟩, (graph.control_flow_get id _ found).2]
          simp only [exploreChecked, Tour.of, write, visited_enter, inner, found, List.length_map, List.length_range,
            List.getElem?_map, List.getElem?_range bound, bound, old, if_true, Option.map_some, Option.bind_eq_bind,
            Option.bind_some, decide_false]
      · simp [exploreChecked, Tour.of, bound]

theorem reverse_post_order_checked (graph : FlowGraph) :
    graph.reversePostOrderChecked = some graph.reversePostOrder := by
  have blank : (⟨List.replicate graph.blocks.length false, []⟩ : Tour) = Tour.of graph.blocks.length ⟨[], []⟩ := by
    simp [Tour.of]
  have searched := (fold_viewed (Tour.of graph.blocks.length) (graph.controlFlow.explore graph.blocks.length)
    (graph.exploreChecked graph.blocks.length) (fun _ => True) graph.roots ⟨[], []⟩
    (fun state block _ _ => ⟨graph.explore_checked _ state block, trivial⟩) trivial).1
  rw [reversePostOrderChecked, blank, searched]
  rfl

end FlowGraph

namespace GenKill

variable {α : Type} [Ord α]

def blankLine (facts : LineFacts α) (line : Line) : Option (LineFacts α) := do
  let before ← write facts.before line (some ∅)
  let after ← write facts.after line (some ∅)
  some ⟨before, after⟩

def blankBlock (graph : FlowGraph) (facts : LineFacts α) (id : BlockId) : Option (LineFacts α) := do
  let block ← graph.blocks[id]?
  block.lines.toList.foldlM blankLine facts

def initialChecked (graph : FlowGraph) (lineCount : Nat) : Option (LineFacts α) :=
  (List.range graph.blocks.length).foldlM (blankBlock graph)
    ⟨List.replicate lineCount none, List.replicate lineCount none⟩

def blank (count : Nat) (marked : Line → Bool) : LineFacts α :=
  let slots := (List.range count).map fun line => if marked line then some ∅ else none
  ⟨slots, slots⟩

theorem fold_marks {β : Type} (covers : β → Line → Bool) (xs : List β) (marked : Line → Bool) :
    xs.foldl (fun marked x line => marked line || covers x line) marked =
      fun line => marked line || xs.any fun x => covers x line := by
  induction xs generalizing marked with
  | nil => simp
  | cons x rest ih =>
      rw [List.foldl_cons, ih]
      funext line
      rw [List.any_cons, Bool.or_assoc]

theorem blank_line (count : Nat) (marked : Line → Bool) (line : Line) (bound : line < count) :
    blankLine (blank count marked : LineFacts α) line =
      some (blank count fun other => marked other || line == other) := by
  have marks : Function.update (fun line => if marked line then some (∅ : FactSet α) else none) line (some ∅) =
      fun other => if marked other || line == other then some ∅ else none := by
    funext other
    by_cases same : other = line
    · simp [same]
    · simp [same, Ne.symm same]
  simp [blankLine, blank, write, bound, set_table, marks]

theorem blank_block (graph : FlowGraph) (count : Nat) (tiled : graph.controlFlow.Tiled count)
    (marked : Line → Bool) (id : BlockId) (bound : id < graph.blocks.length) :
    blankBlock graph (blank count marked : LineFacts α) id =
      some (blank count fun line => marked line || (graph.controlFlow.lines id).contains line) := by
  have found := List.getElem?_eq_getElem bound
  have same := (graph.control_flow_get id _ found).1
  have inside := tiled.bound id bound
  have folded := (fold_viewed (blank count : (Line → Bool) → LineFacts α)
    (fun marked line other => marked other || line == other) blankLine (fun _ => True)
    graph.blocks[id].lines.toList marked (by
      intro now line listed _
      rw [LineRange.mem_to_list, LineRange.contains_iff, ← same] at listed
      exact ⟨blank_line count now line (by lia), trivial⟩) trivial).1
  rw [fold_marks] at folded
  rw [blankBlock, found, same]
  refine folded.trans (congrArg (fun marks => some (blank count marks)) ?_)
  funext line
  rw [Bool.eq_iff_iff]
  simp [← LineRange.mem_to_list]

theorem initial_checked (graph : FlowGraph) (count : Nat) (tiled : graph.controlFlow.Tiled count) :
    (initialChecked graph count : Option (LineFacts α)) = some (initial graph.controlFlow count) := by
  have folded := (fold_viewed (blank count : (Line → Bool) → LineFacts α)
    (fun marked id line => marked line || (graph.controlFlow.lines id).contains line) (blankBlock graph)
    (fun _ => True) (List.range graph.blocks.length) (fun _ => false)
    (fun marked id member _ => ⟨blank_block graph count tiled marked id (List.mem_range.mp member), trivial⟩)
    trivial).1
  have nothing : (⟨List.replicate count none, List.replicate count none⟩ : LineFacts α) =
      blank count fun _ => false := by
    simp [blank]
  rw [initialChecked, nothing, folded, fold_marks]
  simp only [Bool.false_or]
  rfl

def blockStart (graph : FlowGraph) (facts : LineFacts α) (id : BlockId) : Option (Option (FactSet α)) := do
  let block ← graph.blocks[id]?
  facts.before[block.lines.first]?

theorem block_start_checked (graph : FlowGraph) (count : Nat) (tiled : graph.controlFlow.Tiled count)
    (facts : LineFacts α) (fits : facts.Fits count) (id : BlockId) (known : id < graph.blocks.length) :
    blockStart graph facts id = some (facts.before? (graph.controlFlow.lines id).first) := by
  have found := List.getElem?_eq_getElem known
  have inside : (graph.controlFlow.lines id).first < facts.before.length := by
    rw [fits.before]
    exact Nat.lt_of_le_of_lt (tiled.order id known) (tiled.bound id known)
  have lines := (graph.control_flow_get id _ found).1
  rw [blockStart, found, LineFacts.before?, List.getElem?_eq_getElem inside]
  simp only [lines] at inside ⊢
  simp [inside]

variable [Std.TransOrd α]

def transferChecked (analysis : GenKill α) (line : Line) (after : FactSet α) : Option (FactSet α) := do
  let kill ← analysis.kill[line]?
  let gen ← analysis.gen[line]?
  some ((after \ kill) ∪ gen)

theorem transfer_checked (analysis : GenKill α) (line : Line) (after : FactSet α)
    (gen : line < analysis.gen.length) (kill : line < analysis.kill.length) :
    analysis.transferChecked line after = some (analysis.transfer line after) := by
  simp [transferChecked, transfer, gen, kill]

def blockEndChecked (analysis : GenKill α) (graph : FlowGraph) (facts : LineFacts α) (next : Successors BlockId) :
    Option (FactSet α) :=
  if next.isTerminated then some analysis.exit
  else do
    let sets ← next.toList.mapM (blockStart graph facts)
    some (FactSet.joinAll ∅ (sets.filterMap id)).1

theorem block_end_checked (analysis : GenKill α) (graph : FlowGraph) (count : Nat)
    (tiled : graph.controlFlow.Tiled count) (facts : LineFacts α) (fits : facts.Fits count) (id : BlockId)
    (block : Block) (found : graph.blocks[id]? = some block)
    (closed : ∀ child ∈ block.children, child < graph.blocks.length) :
    analysis.blockEndChecked graph facts block.next = some (analysis.blockEnd graph.controlFlow facts id) := by
  have sets := map_checked (fun child => facts.before? (graph.controlFlow.lines child).first)
    (blockStart graph facts) block.next.toList fun child edge =>
      block_start_checked graph count tiled facts fits child (closed child edge)
  rw [blockEnd, (graph.control_flow_get id block found).2, blockEndChecked, sets]
  by_cases ends : block.next.isTerminated = true
  · simp [ends]
  · simp [ends, List.filterMap_map]

variable [Std.LawfulEqOrd α]

def updateChecked (slots : List (Option (FactSet α))) (line : Line) (value : FactSet α) :
    Option (List (Option (FactSet α)) × Bool) := do
  let old ← slots[line]?
  if old = some value then some (slots, false) else some (slots.set line (some value), true)

def sweepLineChecked (analysis : GenKill α) (state : FactSet α × Sweep α) (line : Line) :
    Option (FactSet α × Sweep α) := do
  let before ← analysis.transferChecked line state.1
  let (afterSlots, afterChanged) ← updateChecked state.2.facts.after line state.1
  let (beforeSlots, beforeChanged) ← updateChecked state.2.facts.before line before
  some (before, ⟨⟨beforeSlots, afterSlots⟩, state.2.changed || afterChanged || beforeChanged⟩)

def sweepBlockChecked (analysis : GenKill α) (graph : FlowGraph) (sweep : Sweep α) (id : BlockId) :
    Option (Sweep α) := do
  let block ← graph.blocks[id]?
  let out ← analysis.blockEndChecked graph sweep.facts block.next
  let (_, after) ← block.lines.toList.reverse.foldlM analysis.sweepLineChecked (out, sweep)
  some after

def sweepChecked (analysis : GenKill α) (graph : FlowGraph) (facts : LineFacts α) : Option (Sweep α) := do
  let order ← graph.reversePostOrderChecked
  order.reverse.foldlM (analysis.sweepBlockChecked graph) ⟨facts, false⟩

def iterateChecked (analysis : GenKill α) (graph : FlowGraph) : Nat → LineFacts α → Option (LineFacts α)
  | 0, facts => some facts
  | sweeps + 1, facts => do
    let sweep ← analysis.sweepChecked graph facts
    if sweep.changed then analysis.iterateChecked graph sweeps sweep.facts else some sweep.facts

def solveChecked (analysis : GenKill α) (graph : FlowGraph) (lineCount : Nat) : Option (LineFacts α) := do
  let facts ← initialChecked graph lineCount
  analysis.iterateChecked graph (2 * lineCount * analysis.support.size + 1) facts

theorem update_checked (slots : List (Option (FactSet α))) (line : Line) (value : FactSet α)
    (bound : line < slots.length) : updateChecked slots line value = some (update slots line value) := by
  have found := List.getElem?_eq_getElem bound
  by_cases same : slots[line] = some value
  · simp [updateChecked, update, found, same]
  · simp [updateChecked, update, found, same]

theorem sweep_line_checked (analysis : GenKill α) (count : Nat) (gen : analysis.gen.length = count)
    (kill : analysis.kill.length = count) (state : FactSet α × Sweep α) (fits : state.2.facts.Fits count)
    (line : Line) (bound : line < count) :
    analysis.sweepLineChecked state line = some (analysis.sweepLine state line) := by
  have transferred := analysis.transfer_checked line state.1 (by lia) (by lia)
  have after := update_checked state.2.facts.after line state.1 (by rw [fits.after]; exact bound)
  have before := update_checked state.2.facts.before line (analysis.transfer line state.1)
    (by rw [fits.before]; exact bound)
  simp only [sweepLineChecked, transferred, after, before, Option.bind_eq_bind, Option.bind_some]
  rfl

section Graph

variable (analysis : GenKill α) (graph : FlowGraph) (count : Nat) (gen : analysis.gen.length = count)
  (kill : analysis.kill.length = count) (tiled : graph.controlFlow.Tiled count)
  (closed : ∀ (id : BlockId) (block : Block), graph.blocks[id]? = some block →
    ∀ child ∈ block.children, child < graph.blocks.length)

include gen kill tiled closed

theorem sweep_block_checked (sweep : Sweep α) (id : BlockId) (known : id < graph.blocks.length)
    (fits : sweep.facts.Fits count) :
    analysis.sweepBlockChecked graph sweep id = some (analysis.sweepBlock graph.controlFlow sweep id) ∧
      (analysis.sweepBlock graph.controlFlow sweep id).facts.Fits count := by
  have found := List.getElem?_eq_getElem known
  have lines := (graph.control_flow_get id _ found).1
  have last := tiled.bound id known
  have ends := analysis.block_end_checked graph count tiled sweep.facts fits id _ found (closed id _ found)
  obtain ⟨folded, kept⟩ := fold_checked analysis.sweepLine analysis.sweepLineChecked
    (fun state => state.2.facts.Fits count) (graph.controlFlow.lines id).toList.reverse
    (analysis.blockEnd graph.controlFlow sweep.facts id, sweep) (by
      intro state line member now
      rw [mem_lines, LineRange.contains_iff] at member
      exact ⟨analysis.sweep_line_checked count gen kill state now line (by lia),
        analysis.sweep_line_fits count state.1 state.2 line now⟩) fits
  refine ⟨?_, kept⟩
  rw [lines] at folded
  simp only [sweepBlockChecked, found, ends, folded, Option.bind_eq_bind, Option.bind_some, sweepBlock, lines]

theorem sweep_checked (facts : LineFacts α) (fits : facts.Fits count) :
    analysis.sweepChecked graph facts = some (analysis.sweep graph.controlFlow facts) ∧
      (analysis.sweep graph.controlFlow facts).facts.Fits count := by
  rw [sweepChecked, graph.reverse_post_order_checked]
  apply fold_checked (analysis.sweepBlock graph.controlFlow) (analysis.sweepBlockChecked graph)
    (fun sweep => sweep.facts.Fits count) graph.reversePostOrder.reverse ⟨facts, false⟩ _ fits
  intro sweep id member now
  exact analysis.sweep_block_checked graph count gen kill tiled closed sweep id
    (graph.controlFlow.order_explored.1 id (List.mem_reverse.mp member)) now

theorem iterate_checked (sweeps : Nat) (facts : LineFacts α) (fits : facts.Fits count) :
    analysis.iterateChecked graph sweeps facts = some (analysis.iterate graph.controlFlow sweeps facts) := by
  induction sweeps generalizing facts with
  | zero => rfl
  | succ sweeps ih =>
      obtain ⟨swept, kept⟩ := analysis.sweep_checked graph count gen kill tiled closed facts fits
      rw [iterateChecked, swept, iterate]
      by_cases changed : (analysis.sweep graph.controlFlow facts).changed = true
      · simp [changed, ih _ kept]
      · simp [changed]

theorem solve_checked :
    analysis.solveChecked graph count = some (analysis.solve graph.controlFlow count) := by
  have fits : (initial graph.controlFlow count : LineFacts α).Fits count := ⟨by simp [initial], by simp [initial]⟩
  rw [solveChecked, initial_checked graph count tiled]
  exact analysis.iterate_checked graph count gen kill tiled closed _ _ fits

end Graph

end GenKill

namespace Liveness

def computeChecked (program : Program) (table : SymbolTable) (graph : FlowGraph) : Option Liveness := do
  let facts ← (analysis program table).solveChecked graph program.size
  some ⟨reads program table, writes program table, facts⟩

theorem compute_checked (program : Program) (table : SymbolTable) (start : Line) (graph : FlowGraph)
    (complete : FlowGraph.Complete program start graph) :
    computeChecked program table graph = some (compute program table graph) := by
  have solved := (analysis program table).solve_checked graph program.size
    (by simp [analysis, reads, Program.size]) (by simp [analysis, writes, Program.size])
    (FlowGraph.control_flow_tiled complete)
    (fun id block found => (FlowGraph.children_follow complete id block found).2.1)
  rw [computeChecked, solved]
  rfl

end Liveness

end ThreeAddress
