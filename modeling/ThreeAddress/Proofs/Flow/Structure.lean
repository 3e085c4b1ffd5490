import ThreeAddress.Proofs.Flow.Refinement

set_option autoImplicit false

namespace ThreeAddress

namespace FlowGraph

namespace Construction

structure Threaded (program : Program) (blocks : List Block) (roots : List BlockId) : Prop where
  parents : ∀ (child : BlockId) (block : Block), blocks[child]? = some block → ∀ parent : BlockId,
    parent ∈ block.parents ↔ ∃ other, blocks[parent]? = some other ∧ child ∈ other.children
  distinct : ∀ block ∈ blocks, block.parents.Nodup
  single : roots.Nodup
  entries : ∀ root ∈ roots, ∃ function entry, program.LastNaming .func function entry ∧
    startOf? blocks root = some entry

theorem children_bound (program : Program) (marks : Landmarks) (start : Line) (state : Construction)
    (inv : Invariant program marks start state) (id : BlockId) (block : Block)
    (found : state.blocks[id]? = some block) (child : BlockId) (member : child ∈ block.children) :
    child < state.blocks.length := by
  by_cases waiting : id ∈ state.pending
  · rw [Block.children, inv.unlinked id block waiting found] at member
    cases member
  · obtain ⟨lines, _, starts⟩ := (inv.linked id block waiting found).follow
    exact child_lt state.blocks block.children lines.toList starts child member

section Processing

variable {program : Program} {marks : Landmarks} {state after : Construction} {id : BlockId}
  {last : Line} {next : Successors BlockId} {fresh : List Block}

theorem processed_edge (done : Processed program marks state after id last next fresh) (block : Block)
    (found : state.blocks[id]? = some block) (unlinked : block.next = .terminated) (parent child : BlockId) :
    (∃ other, after.blocks[parent]? = some other ∧ child ∈ other.children) ↔
      (parent = id ∧ child ∈ next.toList) ∨
        ∃ other, state.blocks[parent]? = some other ∧ child ∈ other.children := by
  constructor
  · rintro ⟨other, foundOther, edge⟩
    by_cases same : parent = id
    · subst same
      rw [processed_get done parent block found] at foundOther
      obtain rfl := Option.some.inj foundOther
      exact Or.inl ⟨rfl, by simpa [Block.children, relink] using edge⟩
    · rcases processed_get_cases done parent other foundOther with ⟨old, foundOld, rfl⟩ | ⟨_, new, made, rfl⟩
      · exact Or.inr ⟨old, foundOld, by simpa [Block.children, relink, same] using edge⟩
      · simp [Block.children, relink, same, (done.unlinked new made).1, Successors.toList] at edge
  · rintro (⟨rfl, edge⟩ | ⟨old, foundOld, edge⟩)
    · exact ⟨_, processed_get done parent block found, by simpa [Block.children, relink] using edge⟩
    · refine ⟨_, processed_get done parent old foundOld, ?_⟩
      by_cases same : parent = id
      · subst same
        obtain rfl : old = block := Option.some.inj (foundOld.symm.trans found)
        simp [Block.children, unlinked, Successors.toList] at edge
      · simpa [Block.children, relink, same] using edge

theorem successors_distinct (done : Processed program marks state after id last next fresh) :
    next.toList.Nodup := by
  obtain ⟨lines, follow, starts⟩ := done.follow
  apply List.Nodup.of_map (startOf? after.blocks)
  rw [starts]
  exact follow.nodup.map fun _ _ => Option.some.inj

theorem mem_relinked (block : Block) (i parent : BlockId) :
    parent ∈ (relink id next i block).parents ↔
      parent ∈ block.parents ∨ (parent = id ∧ i ∈ next.toList) := by
  rw [relink, List.mem_append, List.mem_replicate, ← Nat.pos_iff_ne_zero, List.count_pos_iff]
  exact or_congr_right and_comm

theorem relinked_nodup (block : Block) (i : BlockId) (distinct : block.parents.Nodup)
    (absent : id ∉ block.parents) (single : next.toList.Nodup) : (relink id next i block).parents.Nodup := by
  refine distinct.append (List.nodup_replicate.mpr (List.nodup_iff_count_le_one.mp single i)) ?_
  intro parent old added
  exact absent ((List.mem_replicate.mp added).2 ▸ old)

theorem processed_parents (done : Processed program marks state after id last next fresh) (block : Block)
    (found : state.blocks[id]? = some block) (unlinked : block.next = .terminated)
    (bounded : ∀ (parent : BlockId) (other : Block), state.blocks[parent]? = some other →
      ∀ child ∈ other.children, child < state.blocks.length)
    (threaded : Threaded program state.blocks state.roots) (child : BlockId) (linked : Block)
    (foundLinked : after.blocks[child]? = some linked) (parent : BlockId) :
    parent ∈ linked.parents ↔ ∃ other, after.blocks[parent]? = some other ∧ child ∈ other.children := by
  rw [processed_edge done block found unlinked]
  rcases processed_get_cases done child linked foundLinked with ⟨old, foundOld, rfl⟩ | ⟨beyond, new, made, rfl⟩
  · rw [mem_relinked, threaded.parents child old foundOld, or_comm]
  · have early : ¬ ∃ other, state.blocks[parent]? = some other ∧ child ∈ other.children := by
      rintro ⟨other, foundOther, edge⟩
      exact absurd (bounded parent other foundOther child edge) (Nat.not_lt.mpr beyond)
    simp [mem_relinked, (done.unlinked new made).2, early]

end Processing

theorem step_threaded (program : Program) (marks : Landmarks) (describes : Landmarks.Describes program marks)
    (start : Line) (state after : Construction) (inv : Invariant program marks start state)
    (busy : state.pending ≠ []) (stepped : step program marks state = .ok after)
    (threaded : Threaded program state.blocks state.roots) : Threaded program after.blocks after.roots := by
  obtain ⟨id, rest, block, statement, other, next, fresh, stacked, found, _, _, same, done⟩ :=
    step_processed program marks describes start state inv busy
  obtain rfl : other = after := Except.ok.inj (same.symm.trans stepped)
  have unlinked := inv.unlinked id block (by simp [stacked]) found
  refine ⟨?_, ?_, done.rootsNodup threaded.single, ?_⟩
  · exact processed_parents done block found unlinked (children_bound program marks start state inv) threaded
  · intro linked member
    obtain ⟨i, foundLinked⟩ := List.mem_iff_getElem?.mp member
    rcases processed_get_cases done i linked foundLinked with ⟨old, foundOld, rfl⟩ | ⟨_, new, made, rfl⟩
    · apply relinked_nodup old i (threaded.distinct old (List.mem_of_getElem? foundOld)) _ (successors_distinct done)
      -- The block had no children before this step.
      intro listed
      obtain ⟨own, foundOwn, edge⟩ := (threaded.parents i old foundOld id).mp listed
      obtain rfl : own = block := Option.some.inj (foundOwn.symm.trans found)
      simp [Block.children, unlinked, Successors.toList] at edge
    · have parentless := (done.unlinked new made).2
      exact relinked_nodup new i (by simp [parentless]) (by simp [parentless]) (successors_distinct done)
  · intro root member
    obtain ⟨more, roots, called⟩ := done.roots
    rw [roots, List.mem_append] at member
    rcases member with old | new
    · obtain ⟨function, entry, last, first⟩ := threaded.entries root old
      exact ⟨function, entry, last, processed_start done root entry first⟩
    · obtain ⟨entry, ⟨_, function, _, _, last⟩, first⟩ := called root new
      exact ⟨function, entry, last, first⟩

theorem initial_threaded (program : Program) (marks : Landmarks) (function : SymbolId) (start : Line)
    (last : program.LastNaming .func function start) :
    Threaded program (empty.addRoot program marks start).blocks (empty.addRoot program marks start).roots := by
  refine ⟨?_, ?_, List.nodup_singleton 0, ?_⟩
  · intro child block found parent
    obtain ⟨_, rfl⟩ := initial_block program marks start child block found
    apply iff_of_false List.not_mem_nil
    rintro ⟨other, foundOther, edge⟩
    obtain ⟨_, rfl⟩ := initial_block program marks start parent other foundOther
    cases edge
  · intro block member
    obtain ⟨i, found⟩ := List.mem_iff_getElem?.mp member
    obtain ⟨_, rfl⟩ := initial_block program marks start i block found
    exact List.nodup_nil
  · intro root member
    rw [List.mem_singleton.mp member]
    exact ⟨function, start, last, rfl⟩

end Construction

section Completed

variable {program : Program} {start : Line} {graph : FlowGraph}

theorem child_inside (complete : Complete program start graph) (parent child : BlockId) (block other : Block)
    (found : graph.blocks[parent]? = some block) (edge : child ∈ block.children)
    (foundOther : graph.blocks[child]? = some other) :
    program.Step block.lines.last other.lines.first ∧
      ∃ statement, program.get? other.lines.first = some statement ∧ statement.opcode ≠ .func := by
  have step : program.Step block.lines.last other.lines.first :=
    ((children_follow complete parent block found).2.2.1 _).mp ⟨child, edge, by simp [startOf?, foundOther]⟩
  refine ⟨step, ?_⟩
  rcases step with ⟨⟨_, after, _, _, _, here, plain⟩, next⟩ | ⟨_, _, _, _, ⟨mark, here, names⟩, _⟩
  · exact ⟨after, next ▸ here, plain⟩
  · exact ⟨mark, here, by simp [names.1]⟩

theorem join_label (complete : Complete program start graph) (first second child : BlockId) (a b other : Block)
    (different : first ≠ second) (foundFirst : graph.blocks[first]? = some a) (edgeFirst : child ∈ a.children)
    (foundSecond : graph.blocks[second]? = some b) (edgeSecond : child ∈ b.children)
    (found : graph.blocks[child]? = some other) :
    ∃ statement, program.get? other.lines.first = some statement ∧ statement.opcode = .label := by
  have labelled : ∀ line, program.JumpsTo line other.lines.first →
      ∃ statement, program.get? other.lines.first = some statement ∧ statement.opcode = .label := by
    rintro line ⟨_, _, _, _, ⟨mark, here, names⟩, _⟩
    exact ⟨mark, here, names.1⟩
  rcases (child_inside complete first child a other foundFirst edgeFirst found).1 with ⟨_, nextFirst⟩ | jumps
  · rcases (child_inside complete second child b other foundSecond edgeSecond found).1 with ⟨_, nextSecond⟩ | jumps
    · have last : a.lines.last = b.lines.last := by lia
      have inFirst := (block_of_iff complete a.lines.last first).mpr
        ⟨a, foundFirst, (LineRange.contains_iff _ _).mpr ⟨(block_bounds complete first a foundFirst).1, Nat.le_refl _⟩⟩
      have inSecond := (block_of_iff complete a.lines.last second).mpr
        ⟨b, foundSecond, (LineRange.contains_iff _ _).mpr
          ⟨last ▸ (block_bounds complete second b foundSecond).1, Nat.le_of_eq last⟩⟩
      exact absurd (Option.some.inj (inFirst.symm.trans inSecond)) different
    · exact labelled _ jumps
  · exact labelled _ jumps

section Threaded

variable (threaded : Construction.Threaded program graph.blocks graph.roots) (id : BlockId) (block : Block)
  (found : graph.blocks[id]? = some block)

include threaded found

theorem root_entry (root : id ∈ graph.roots) :
    ∃ statement, program.get? block.lines.first = some statement ∧ statement.opcode = .func := by
  obtain ⟨function, entry, ⟨⟨statement, here, names⟩, _⟩, first⟩ := threaded.entries id root
  have same : block.lines.first = entry := by simpa [startOf?, found] using first
  exact ⟨statement, same ▸ here, names.1⟩

theorem entry_parentless (complete : Complete program start graph) (statement : Statement)
    (here : program.get? block.lines.first = some statement) (opcode : statement.opcode = .func) :
    block.parents = [] := by
  rw [List.eq_nil_iff_forall_not_mem]
  intro parent listed
  obtain ⟨other, foundOther, edge⟩ := (threaded.parents id block found parent).mp listed
  obtain ⟨_, again, hereAgain, plain⟩ := child_inside complete parent id other block foundOther edge found
  obtain rfl : again = statement := Option.some.inj (hereAgain.symm.trans here)
  exact plain opcode

theorem parentless_root (complete : Complete program start graph) (parentless : block.parents = []) :
    id ∈ graph.roots := by
  cases complete.connected id (List.getElem?_eq_some_iff.mp found).1 with
  | root _ member => exact member
  | child parent _ other _ foundOther edge =>
      have listed := (threaded.parents id block found parent).mpr ⟨other, foundOther, edge⟩
      rw [parentless] at listed
      cases listed

theorem parents_label (complete : Complete program start graph) (many : 1 < block.parents.length) :
    ∃ statement, program.get? block.lines.first = some statement ∧ statement.opcode = .label := by
  obtain ⟨first, second, others, parents⟩ : ∃ first second others, block.parents = first :: second :: others := by
    match block.parents, many with
    | first :: second :: others, _ => exact ⟨first, second, others, rfl⟩
  have distinct := threaded.distinct block (List.mem_of_getElem? found)
  rw [parents, List.nodup_cons] at distinct
  have edges := threaded.parents id block found
  obtain ⟨a, foundFirst, edgeFirst⟩ := (edges first).mp (by simp [parents])
  obtain ⟨b, foundSecond, edgeSecond⟩ := (edges second).mp (by simp [parents])
  exact join_label complete first second id a b block (fun same => distinct.1 (by simp [same])) foundFirst edgeFirst
    foundSecond edgeSecond found

end Threaded

end Completed

theorem build_threaded (program : Program) (table : SymbolTable) (name : String) (graph : FlowGraph)
    (built : build program table name = .ok graph) :
    ∃ function start, table.findFunction? name = some function ∧ program.LastNaming .func function start ∧
      Complete program start graph ∧ Construction.Threaded program graph.blocks graph.roots := by
  obtain ⟨marks, function, start, state, rfl, named, last, complete, _, keeps⟩ :=
    build_keeps program table name graph built
  refine ⟨function, start, named, last, complete, ?_⟩
  exact keeps (fun state => Construction.Threaded program state.blocks state.roots)
    (Construction.step_threaded program marks complete.describes start)
    (Construction.initial_threaded program marks function start last)

structure WellFormed (program : Program) (table : SymbolTable) (name : String) (graph : FlowGraph) : Prop where
  ranges : ∀ (id : BlockId) (block : Block), graph.blocks[id]? = some block →
    block.lines.first ≤ block.lines.last ∧ block.lines.last < program.size
  leaders : ∀ (id : BlockId) (block : Block), graph.blocks[id]? = some block → ∀ line,
    block.lines.contains line = true → (line ∈ graph.landmarks.leaders ↔ line = block.lines.first)
  disjoint : ∀ (i j : BlockId) (a b : Block) (line : Line), graph.blocks[i]? = some a → graph.blocks[j]? = some b →
    a.lines.contains line = true → b.lines.contains line = true → i = j
  blockOf : ∀ line id, graph.blockOf? line = some id ↔
    ∃ block, graph.blocks[id]? = some block ∧ block.lines.contains line = true
  bounded : ∀ (id : BlockId) (block : Block), graph.blocks[id]? = some block →
    (∀ child ∈ block.children, child < graph.blocks.length) ∧ ∀ parent ∈ block.parents, parent < graph.blocks.length
  rootsBounded : ∀ root ∈ graph.roots, root < graph.blocks.length
  agree : ∀ (p c : BlockId) (parent child : Block), graph.blocks[p]? = some parent → graph.blocks[c]? = some child →
    (p ∈ child.parents ↔ c ∈ parent.children)
  parentsDistinct : ∀ (id : BlockId) (block : Block), graph.blocks[id]? = some block → block.parents.Nodup
  rootsDistinct : graph.roots.Nodup
  entry : ∃ function start root, table.findFunction? name = some function ∧
    program.LastNaming .func function start ∧ graph.roots.head? = some root ∧ graph.blockOf? start = some root
  rootOrphan : ∀ (id : BlockId) (block : Block), graph.blocks[id]? = some block →
    (id ∈ graph.roots ↔ block.parents = [])
  orphanEntry : ∀ (id : BlockId) (block : Block), graph.blocks[id]? = some block →
    (block.parents = [] ↔
      ∃ statement, program.get? block.lines.first = some statement ∧ statement.opcode = .func)
  joins : ∀ (id : BlockId) (block : Block), graph.blocks[id]? = some block → 1 < block.parents.length →
    ∃ statement, program.get? block.lines.first = some statement ∧ statement.opcode = .label

theorem graph_well_formed (program : Program) (table : SymbolTable) (name : String) (graph : FlowGraph)
    (built : build program table name = .ok graph) : WellFormed program table name graph := by
  obtain ⟨function, start, named, last, complete, threaded⟩ := build_threaded program table name graph built
  refine ⟨?_, ?_, ?_, block_of_iff complete, ?_, complete.rootsBound, ?_, ?_, threaded.single, ?_, ?_, ?_, ?_⟩
  · intro id block found
    obtain ⟨order, bound, _⟩ := block_bounds complete id block found
    exact ⟨order, bound⟩
  · intro id block found line inside
    have range : block.lines ∈ graph.blocks.map Block.lines := List.mem_map_of_mem (List.mem_of_getElem? found)
    constructor
    · intro leader
      exact ((contains_leader program _ complete.describes _ complete.placed _ range line leader).mp inside).symm
    · rintro rfl
      exact complete.placed.leader block.lines range
  · intro i j a b line foundA foundB insideA insideB
    have blockA := (block_of_iff complete line i).mpr ⟨a, foundA, insideA⟩
    exact Option.some.inj (blockA.symm.trans ((block_of_iff complete line j).mpr ⟨b, foundB, insideB⟩))
  · intro id block found
    refine ⟨(children_follow complete id block found).2.1, ?_⟩
    intro parent listed
    obtain ⟨other, foundOther, _⟩ := (threaded.parents id block found parent).mp listed
    exact (List.getElem?_eq_some_iff.mp foundOther).1
  · intro p c parent child foundParent foundChild
    rw [threaded.parents c child foundChild p]
    simp [foundParent]
  · intro id block found
    exact threaded.distinct block (List.mem_of_getElem? found)
  · obtain ⟨root, head, first⟩ := complete.entry
    obtain ⟨block, found, rfl⟩ := Option.map_eq_some_iff.mp first
    refine ⟨function, _, root, named, last, head, (block_of_iff complete _ root).mpr ⟨block, found, ?_⟩⟩
    exact (LineRange.contains_iff _ _).mpr ⟨Nat.le_refl _, (block_bounds complete root block found).1⟩
  · intro id block found
    constructor
    · intro root
      obtain ⟨statement, here, opcode⟩ := root_entry threaded id block found root
      exact entry_parentless threaded id block found complete statement here opcode
    · exact parentless_root threaded id block found complete
  · intro id block found
    constructor
    · intro parentless
      exact root_entry threaded id block found (parentless_root threaded id block found complete parentless)
    · rintro ⟨statement, here, opcode⟩
      exact entry_parentless threaded id block found complete statement here opcode
  · intro id block found
    exact parents_label threaded id block found complete

theorem roundabout_well_formed : ∃ graph, build roundabout roundaboutTable "main" = .ok graph ∧
    WellFormed roundabout roundaboutTable "main" graph := by
  obtain ⟨graph, built⟩ := roundabout_builds
  exact ⟨graph, built, graph_well_formed roundabout roundaboutTable "main" graph built⟩

end FlowGraph

end ThreeAddress
