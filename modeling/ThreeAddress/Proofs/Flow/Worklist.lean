import ThreeAddress.Proofs.Flow.Refinement

set_option autoImplicit false

namespace ThreeAddress

namespace FlowGraph

namespace Construction

/-- What the loop comes to from the entry function: the construction, the ids popped so far and
those pushed so far. In each round one id is popped, and what then lies on top of the others was
pushed. -/
inductive Comes (program : Program) (marks : Landmarks) (start : Line) :
    Construction → List BlockId → List BlockId → Prop where
  | enter : Comes program marks start (empty.addRoot program marks start) []
      (empty.addRoot program marks start).pending.reverse
  | round (state after : Construction) (id : BlockId) (rest popped pushed added : List BlockId)
      (before : Comes program marks start state popped pushed) (top : state.pending = id :: rest)
      (stepped : step program marks state = .ok after) (stacked : after.pending = added.reverse ++ rest) :
      Comes program marks start after (popped ++ [id]) (pushed ++ added)

theorem block_at_pushes (program : Program) (marks : Landmarks) (start : Line) (state : Construction) :
    (blockAt program marks start state).2 = state ∨
      ((blockAt program marks start state).1 = state.blocks.length ∧
        (blockAt program marks start state).2.blocks.length = state.blocks.length + 1 ∧
        (blockAt program marks start state).2.pending = state.blocks.length :: state.pending) := by
  unfold blockAt
  cases blockContaining? state.blocks start with
  | some id => exact Or.inl rfl
  | none => exact Or.inr ⟨rfl, by simp, rfl⟩

structure Balanced (program : Program) (marks : Landmarks) (start : Line) (state : Construction)
    (popped pushed : List BlockId) : Prop where
  invariant : Invariant program marks start state
  built : pushed = List.range state.blocks.length
  split : (popped ++ state.pending).Perm pushed

theorem round_balanced (program : Program) (marks : Landmarks) (describes : Landmarks.Describes program marks)
    (start : Line) (state after : Construction) (id : BlockId) (rest popped pushed added : List BlockId)
    (balanced : Balanced program marks start state popped pushed) (top : state.pending = id :: rest)
    (stepped : step program marks state = .ok after) (stacked : after.pending = added.reverse ++ rest) :
    Balanced program marks start after (popped ++ [id]) (pushed ++ added) := by
  obtain ⟨same, others, block, _, other, next, fresh, topAgain, found, _, _, steppedAgain, done⟩ :=
    step_processed program marks describes start state balanced.invariant (by simp [top])
  obtain rfl : other = after := Except.ok.inj (steppedAgain.symm.trans stepped)
  obtain ⟨rfl, rfl⟩ : same = id ∧ others = rest := List.cons.inj (topAgain.symm.trans top)
  have created : added = List.range' state.blocks.length fresh.length := by
    have lists : added.reverse ++ others = (List.range' state.blocks.length fresh.length).reverse ++ others :=
      stacked.symm.trans done.pending
    exact List.reverse_injective (List.append_cancel_right lists)
  refine ⟨processed_invariant describes start others balanced.invariant top block found done, ?_, ?_⟩
  · rw [balanced.built, created, processed_length done, List.range_add, List.range'_eq_map_range]
  · have earlier := balanced.split
    rw [top] at earlier
    have moved : (added.reverse ++ others).Perm (others ++ added) :=
      List.perm_append_comm.trans ((List.reverse_perm added).append_left others)
    have appended := earlier.append_right added
    rw [List.append_assoc, List.cons_append] at appended
    rw [stacked, List.append_assoc, List.singleton_append]
    exact ((moved.cons same).append_left popped).trans appended

theorem comes_balanced (program : Program) (marks : Landmarks) (describes : Landmarks.Describes program marks)
    (start : Line) (leader : program.Leader start) (state : Construction) (popped pushed : List BlockId)
    (comes : Comes program marks start state popped pushed) :
    Balanced program marks start state popped pushed := by
  induction comes with
  | enter =>
      have first := (initial_invariant program marks start ((describes.leaders start).mpr leader)).1
      exact ⟨first, rfl, List.Perm.refl _⟩
  | round state after id rest popped pushed added _ top stepped stacked ih =>
      exact round_balanced program marks describes start state after id rest popped pushed added ih top stepped stacked

theorem comes_step (program : Program) (marks : Landmarks) (describes : Landmarks.Describes program marks)
    (start : Line) (state after : Construction) (inv : Invariant program marks start state)
    (busy : state.pending ≠ []) (stepped : step program marks state = .ok after) (popped pushed : List BlockId)
    (comes : Comes program marks start state popped pushed) :
    ∃ id added, Comes program marks start after (popped ++ [id]) (pushed ++ added) := by
  obtain ⟨id, rest, _, _, other, _, fresh, top, _, _, _, steppedAgain, done⟩ :=
    step_processed program marks describes start state inv busy
  obtain rfl : other = after := Except.ok.inj (steppedAgain.symm.trans stepped)
  exact ⟨id, _, .round state other id rest popped pushed _ comes top stepped done.pending⟩

theorem run_comes (program : Program) (marks : Landmarks) (describes : Landmarks.Describes program marks)
    (start : Line) (leader : program.Leader start) :
    ∃ final popped pushed, run program marks program.size (empty.addRoot program marks start) = .ok final ∧
      Comes program marks start final popped pushed ∧ final.pending = [] := by
  obtain ⟨initial, full⟩ := initial_invariant program marks start ((describes.leaders start).mpr leader)
  obtain ⟨final, ran, _, idle⟩ := run_invariant program marks describes start program.size _ initial (by lia)
  have comes := run_keeps program marks describes start
    (fun state => ∃ popped pushed, Comes program marks start state popped pushed)
    (by
      rintro state after inv busy stepped ⟨popped, pushed, comes⟩
      obtain ⟨id, added, next⟩ :=
        comes_step program marks describes start state after inv busy stepped popped pushed comes
      exact ⟨_, _, next⟩)
    program.size _ final initial ran ⟨_, _, .enter⟩
  obtain ⟨popped, pushed, reached⟩ := comes
  exact ⟨final, popped, pushed, ran, reached, idle⟩

end Construction

theorem placed_leaders (program : Program) (marks : Landmarks) (ranges : List LineRange)
    (placed : Placed program marks ranges) : ranges.length ≤ marks.leaders.size := by
  have inside : ranges.map LineRange.first ⊆ marks.leaders.toList := by
    intro first member
    obtain ⟨range, old, rfl⟩ := List.mem_map.mp member
    exact Std.ExtTreeSet.mem_toList.mpr (placed.leader range old)
  have bound := (List.subperm_of_subset placed.distinct inside).length_le
  simpa using bound

/-- The loop from the entry function at a line: a block that is built is pushed at once, and no
other is pushed; what was pushed is popped once or still pending; and when nothing is pending, as
many rounds were made as there are blocks, all of them are linked, and the graph is finished. -/
structure ProcessesOnce (program : Program) (table : SymbolTable) (name : String) (marks : Landmarks)
    (start : Line) : Prop where
  scheduled : ∀ line state,
    (Construction.blockAt program marks line state).2 = state ∨
      ((Construction.blockAt program marks line state).1 = state.blocks.length ∧
        (Construction.blockAt program marks line state).2.blocks.length = state.blocks.length + 1 ∧
        (Construction.blockAt program marks line state).2.pending = state.blocks.length :: state.pending)
  pushedOnce : ∀ state popped pushed, Construction.Comes program marks start state popped pushed →
    pushed = List.range state.blocks.length
  poppedOnce : ∀ state popped pushed, Construction.Comes program marks start state popped pushed →
    (popped ++ state.pending).Perm (List.range state.blocks.length)
  few : ∀ state popped pushed, Construction.Comes program marks start state popped pushed →
    popped.length ≤ state.blocks.length ∧ state.blocks.length ≤ marks.leaders.size
  proceeds : ∀ state popped pushed, Construction.Comes program marks start state popped pushed →
    state.pending ≠ [] → ∃ after id added,
      Construction.Comes program marks start after (popped ++ [id]) (pushed ++ added)
  ends : ∃ state popped, Construction.Comes program marks start state popped (List.range state.blocks.length) ∧
    state.pending = [] ∧ popped.Perm (List.range state.blocks.length) ∧ popped.length = state.blocks.length ∧
    (∀ (id : BlockId) (block : Block), state.blocks[id]? = some block →
      Construction.Linked program state.blocks state.roots block) ∧
    build program table name = .ok ⟨state.blocks, state.roots, marks, state.diagnostics⟩

theorem blocks_processed_once (program : Program) (table : SymbolTable) (name : String)
    (labelled : ∀ line statement label, program.get? line = some statement →
      statement.jumpTarget? = some label → ∃ target, program.LastNaming .label label target)
    (function : SymbolId) (start : Line) (named : table.findFunction? name = some function)
    (last : program.LastNaming .func function start) :
    ∃ marks, Landmarks.collect program = .ok marks ∧ ProcessesOnce program table name marks start := by
  obtain ⟨marks, collected⟩ := Landmarks.collect_succeeds program labelled
  have describes := Landmarks.collect_describes program marks collected
  have leader := program.entry_leader function start last
  have balanced := Construction.comes_balanced program marks describes start leader
  have split : ∀ state popped pushed, Construction.Comes program marks start state popped pushed →
      (popped ++ state.pending).Perm (List.range state.blocks.length) := by
    intro state popped pushed comes
    have now := balanced state popped pushed comes
    exact now.built ▸ now.split
  refine ⟨marks, collected, Construction.block_at_pushes program marks, ?_, split, ?_, ?_, ?_⟩
  · intro state popped pushed comes
    exact (balanced state popped pushed comes).built
  · intro state popped pushed comes
    have lengths := (split state popped pushed comes).length_eq
    have leaders := placed_leaders program marks _ (balanced state popped pushed comes).invariant.placed
    rw [List.length_append, List.length_range] at lengths
    rw [List.length_map] at leaders
    exact ⟨by lia, leaders⟩
  · intro state popped pushed comes busy
    have inv := (balanced state popped pushed comes).invariant
    obtain ⟨after, stepped, _⟩ := Construction.step_invariant program marks describes start state inv busy
    exact ⟨after,
      Construction.comes_step program marks describes start state after inv busy stepped popped pushed comes⟩
  · obtain ⟨state, popped, pushed, ran, comes, idle⟩ := Construction.run_comes program marks describes start leader
    have now := balanced state popped pushed comes
    have all := split state popped pushed comes
    rw [idle, List.append_nil] at all
    refine ⟨state, popped, now.built ▸ comes, idle, all, by simpa using all.length_eq, ?_, ?_⟩
    · intro id block found
      exact now.invariant.linked id block (by simp [idle]) found
    · have entry := (entry_line program marks describes table name start).mpr ⟨function, named, last⟩
      simp only [build, collected, entry, ran]

theorem roundabout_processed_once : ∃ function start marks,
    roundaboutTable.findFunction? "main" = some function ∧ roundabout.LastNaming .func function start ∧
    Landmarks.collect roundabout = .ok marks ∧ ProcessesOnce roundabout roundaboutTable "main" marks start := by
  obtain ⟨graph, built⟩ := roundabout_builds
  obtain ⟨function, start, named, last, complete⟩ := build_complete roundabout roundaboutTable "main" graph built
  obtain ⟨marks, collected, once⟩ := blocks_processed_once roundabout roundaboutTable "main" complete.describes.targets
    function start named last
  exact ⟨function, start, marks, named, last, collected, once⟩

end FlowGraph

end ThreeAddress
