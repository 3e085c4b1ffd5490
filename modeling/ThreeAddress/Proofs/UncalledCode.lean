import ThreeAddress.Proofs.Liveness

set_option autoImplicit false

namespace ThreeAddress

namespace Program

def followedBy (program more : Program) : Program := ⟨program.statements ++ more.statements⟩

section Followed

variable (program more : Program)

theorem followed_size : (program.followedBy more).size = program.size + more.size :=
  List.length_append

theorem followed_get (line : Line) (bound : line < program.size) :
    (program.followedBy more).get? line = program.get? line :=
  List.getElem?_append_left bound

theorem followed_get_behind (line : Line) :
    (program.followedBy more).get? (program.size + line) = more.get? line := by
  rw [get?, followedBy, size, List.getElem?_append_right (Nat.le_add_right _ _), Nat.add_sub_cancel_left]
  rfl

theorem followed_get_cases (line : Line) (statement : Statement)
    (found : (program.followedBy more).get? line = some statement) :
    (line < program.size ∧ program.get? line = some statement) ∨
      (program.size ≤ line ∧ statement ∈ more.statements) := by
  by_cases bound : line < program.size
  · rw [program.followed_get more line bound] at found
    exact Or.inl ⟨bound, found⟩
  · obtain ⟨offset, rfl⟩ := Nat.exists_eq_add_of_le (Nat.le_of_not_lt bound)
    rw [followed_get_behind] at found
    exact Or.inr ⟨Nat.le_add_right _ _, List.mem_of_getElem? found⟩

theorem followed_last_naming (opcode : Opcode) (id : SymbolId) (line : Line)
    (last : program.LastNaming opcode id line)
    (apart : ∀ statement ∈ more.statements, ¬ statement.Names opcode id) :
    (program.followedBy more).LastNaming opcode id line := by
  have bound := program.last_naming_lt_size opcode id line last
  obtain ⟨⟨statement, found, names⟩, later⟩ := last
  refine ⟨⟨statement, (program.followed_get more line bound).trans found, names⟩, ?_⟩
  intro other step behind foundOther
  rcases program.followed_get_cases more other step foundOther with ⟨_, here⟩ | ⟨_, member⟩
  · exact later other step behind here
  · exact apart step member

theorem followed_own_naming (opcode : Opcode) (id : SymbolId) (line : Line)
    (apart : ∀ statement ∈ more.statements, ∀ id, statement.Names opcode id →
      ∀ other ∈ program.statements, ¬ other.Names opcode id)
    (last : program.LastNaming opcode id line) : (program.followedBy more).LastNaming opcode id line := by
  apply program.followed_last_naming more opcode id line last
  intro statement member names
  obtain ⟨⟨own, found, namesOwn⟩, _⟩ := last
  exact apart statement member id names own (List.mem_of_getElem? found) namesOwn

theorem followed_last_naming_back (opcode : Opcode) (id : SymbolId) (line : Line) (bound : line < program.size)
    (last : (program.followedBy more).LastNaming opcode id line) :
    program.LastNaming opcode id line ∧ ∀ statement ∈ more.statements, ¬ statement.Names opcode id := by
  obtain ⟨⟨statement, found, names⟩, later⟩ := last
  rw [program.followed_get more line bound] at found
  refine ⟨⟨⟨statement, found, names⟩, ?_⟩, ?_⟩
  · intro other step behind foundOther
    have inside := program.get_lt_size other step foundOther
    exact later other step behind ((program.followed_get more other inside).trans foundOther)
  · intro step member
    obtain ⟨offset, foundStep⟩ := List.mem_iff_getElem?.mp member
    exact later (program.size + offset) step (by lia)
      ((program.followed_get_behind more offset).trans foundStep)

end Followed

end Program

namespace FlowGraph

/-- Code that starts with a function and has labels and functions of its own. No line that can be
reached in the graph calls into it. -/
structure Uncalled (program more : Program) (graph : FlowGraph) : Prop where
  opens : ∃ statement, more.get? 0 = some statement ∧ statement.opcode = .func
  labels : ∀ statement ∈ more.statements, ∀ id, statement.Names .label id →
    ∀ other ∈ program.statements, ¬ other.Names .label id
  entries : ∀ statement ∈ more.statements, ∀ id, statement.Names .func id →
    ∀ other ∈ program.statements, ¬ other.Names .func id
  targets : ∀ statement ∈ more.statements, ∀ label, statement.jumpTarget? = some label →
    ∃ mark ∈ more.statements, mark.Names .label label
  calls : ∀ line statement function, graph.isReachable line = true → program.get? line = some statement →
    statement.callee? = some function → ∀ other ∈ more.statements, ¬ other.Names .func function

section Marks

variable {program more : Program} {graph : FlowGraph} (uncalled : Uncalled program more graph)

include uncalled

theorem uncalled_leader (line : Line) (bound : line < program.size) :
    (program.followedBy more).Leader line ↔ program.Leader line := by
  -- In the program the same lines start blocks: a jump from behind stays behind.
  have size := program.followed_size more
  have same := program.followed_get more line bound
  unfold Program.Leader
  rw [same]
  refine or_congr (by grind) (or_congr Iff.rfl (or_congr ?_ ?_))
  · refine and_congr (by grind) (exists_congr fun before => exists_congr fun statement => ?_)
    by_cases behind : line = before + 1
    · rw [program.followed_get more before (by lia)]
    · simp [behind]
  · constructor
    · rintro ⟨source, statement, label, found, jumps, last⟩
      obtain ⟨here, apart⟩ := program.followed_last_naming_back more .label label line bound last
      rcases program.followed_get_cases more source statement found with ⟨_, inside⟩ | ⟨_, member⟩
      · exact ⟨source, statement, label, inside, jumps, here⟩
      · obtain ⟨mark, marked, names⟩ := uncalled.targets statement member label jumps
        exact absurd names (apart mark marked)
    · rintro ⟨source, statement, label, found, jumps, last⟩
      have inside := program.get_lt_size source statement found
      exact ⟨source, statement, label, (program.followed_get more source inside).trans found, jumps,
        program.followed_own_naming more .label label line uncalled.labels last⟩

end Marks

structure Agree (program more : Program) (marks whole : Landmarks) : Prop where
  described : Landmarks.Describes program marks
  describes : Landmarks.Describes (program.followedBy more) whole
  leaders : ∀ line, line < program.size → (line ∈ whole.leaders ↔ line ∈ marks.leaders)
  behind : program.size ∈ whole.leaders
  labels : ∀ (label : SymbolId) (line : Line), marks.labels[label]? = some line → whole.labels[label]? = some line
  opens : ∃ statement, (program.followedBy more).get? program.size = some statement ∧ statement.opcode = .func

theorem uncalled_agree {program more : Program} {graph : FlowGraph} (uncalled : Uncalled program more graph)
    (marks whole : Landmarks) (described : Landmarks.Describes program marks)
    (describes : Landmarks.Describes (program.followedBy more) whole) : Agree program more marks whole := by
  obtain ⟨first, found, opcode⟩ := uncalled.opens
  have here : (program.followedBy more).get? program.size = some first :=
    (program.followed_get_behind more 0).trans found
  refine ⟨described, describes, ?_, ?_, ?_, ⟨first, here, opcode⟩⟩
  · intro line bound
    rw [described.leaders, describes.leaders]
    exact uncalled_leader uncalled line bound
  · rw [describes.leaders]
    exact Or.inr (Or.inl ⟨first, here, opcode⟩)
  · intro label line
    rw [described.labels, describes.labels]
    exact program.followed_own_naming more .label label line uncalled.labels

namespace Construction

section Agree

variable {program more : Program} {marks whole : Landmarks} (agree : Agree program more marks whole)

include agree

theorem agree_last_line (start : Line) (bound : start < program.size) :
    whole.lastLine (program.followedBy more).size start = marks.lastLine program.size start := by
  -- The last block of the program ends where the code behind starts.
  have size := program.followed_size more
  obtain ⟨low, high, inside, ends⟩ :=
    Landmarks.last_line_spec program marks agree.described start bound
  obtain ⟨lowWhole, highWhole, insideWhole, endsWhole⟩ :=
    Landmarks.last_line_spec _ whole agree.describes start (by lia)
  have short : whole.lastLine (program.followedBy more).size start < program.size := by
    by_contra beyond
    exact insideWhole program.size bound (by lia) agree.behind
  rcases Nat.lt_trichotomy (whole.lastLine (program.followedBy more).size start)
    (marks.lastLine program.size start) with less | same | greater
  · have leader := endsWhole.resolve_left (by lia)
    exact absurd ((agree.leaders _ (by lia)).mp leader) (inside _ (by lia) (by lia))
  · exact same
  · have leader := ends.resolve_left (by lia)
    exact absurd ((agree.leaders _ (by lia)).mpr leader) (insideWhole _ (by lia) (by lia))

theorem agree_block_at (start : Line) (bound : start < program.size) :
    blockAt (program.followedBy more) whole start = blockAt program marks start := by
  funext state
  rw [blockAt, blockAt, agree_last_line agree start bound]

theorem agree_add_root (state : Construction) (start : Line) (bound : start < program.size) :
    state.addRoot (program.followedBy more) whole start = state.addRoot program marks start := by
  rw [addRoot, addRoot, agree_block_at agree start bound]

theorem agree_map_block_at (lines : Successors Line) (inside : ∀ line ∈ lines.toList, line < program.size) :
    lines.mapM (blockAt (program.followedBy more) whole) = lines.mapM (blockAt program marks) := by
  cases lines with
  | terminated => rfl
  | continuous next =>
      rw [Successors.mapM, Successors.mapM, agree_block_at agree next (inside next (by simp [Successors.toList]))]
  | branching fallthrough target =>
      rw [Successors.mapM, Successors.mapM,
        agree_block_at agree fallthrough (inside fallthrough (by simp [Successors.toList])),
        agree_block_at agree target (inside target (by simp [Successors.toList]))]

theorem agree_following (last : Line) (statement : Statement) (found : program.get? last = some statement) :
    following (program.followedBy more) whole last statement = following program marks last statement := by
  -- Control runs off the end of the program as it runs into the function behind it.
  have bound := program.get_lt_size last statement found
  have resolved : statement.branching.resolve (whole.resolve last) =
      statement.branching.resolve (marks.resolve last) := by
    cases jumps : statement.jumpTarget? with
    | none => simp [Branching.resolve, Statement.branching, jumps]
    | some label =>
        obtain ⟨target, labelled⟩ := agree.described.targets last statement label found jumps
        have own := (agree.described.labels label target).mpr labelled
        simp [Branching.resolve, Statement.branching, jumps, Landmarks.resolve, own,
          agree.labels label target own]
  have next : ((program.followedBy more).get? (last + 1)).all (fun after => after.opcode = .func) =
      (program.get? (last + 1)).all fun after => after.opcode = .func := by
    by_cases inside : last + 1 < program.size
    · rw [program.followed_get more (last + 1) inside]
    · obtain ⟨first, behind, opcode⟩ := agree.opens
      obtain same : last + 1 = program.size := by lia
      have none : program.get? program.size = none := List.getElem?_eq_none (Nat.le_refl _)
      rw [same, behind, none]
      simp [opcode]
  rw [following, following, resolved, next]

theorem agree_called_entry (statement : Statement)
    (outside : ∀ function, statement.callee? = some function →
      ∀ other ∈ more.statements, ¬ other.Names .func function) :
    calledEntry? whole statement = calledEntry? marks statement := by
  unfold calledEntry?
  cases callee : statement.callee? with
  | none => rfl
  | some function =>
      apply Option.ext
      intro entry
      rw [Option.bind_some, Option.bind_some, agree.describes.entries, agree.described.entries]
      constructor
      · intro last
        obtain ⟨enters, found, names⟩ := last.1
        rcases program.followed_get_cases more entry enters found with ⟨bound, _⟩ | ⟨_, member⟩
        · exact (program.followed_last_naming_back more .func function entry bound last).1
        · exact absurd names (outside function callee enters member)
      · intro last
        exact program.followed_last_naming more .func function entry last (outside function callee)

theorem agree_process (state : Construction) (id : BlockId) (last : Line) (statement : Statement)
    (found : program.get? last = some statement)
    (outside : ∀ function, statement.callee? = some function →
      ∀ other ∈ more.statements, ¬ other.Names .func function) :
    process (program.followedBy more) whole state id last statement =
      process program marks state id last statement := by
  obtain ⟨lines, reports, followed, follow⟩ :=
    following_follow program marks agree.described last statement found
  have inside : ∀ line ∈ lines.toList, line < program.size := by
    intro line member
    rcases (follow.mem line).mp member with ⟨⟨_, after, _, _, _, foundAfter, _⟩, rfl⟩ | jumps
    · exact program.get_lt_size (last + 1) after foundAfter
    · exact Landmarks.leader_lt_size program line (program.jumps_to_leader last line jumps)
  have entries := agree_called_entry agree statement outside
  have blocks := agree_map_block_at agree lines inside
  unfold process
  rw [agree_following agree last statement found, followed, entries]
  simp only [blocks]
  cases called : calledEntry? marks statement with
  | none => rfl
  | some entry =>
      have calls := (called_entry program marks agree.described last statement found entry).mp called
      have bound := Landmarks.leader_lt_size program entry (program.calls_leader last entry calls)
      simp only [agree_add_root agree _ entry bound]

end Agree

theorem uncalled_step {program more : Program} {marks whole : Landmarks} {graph : FlowGraph} {start : Line}
    (agree : Agree program more marks whole) (uncalled : Uncalled program more graph)
    (complete : Complete program start graph) (state : Construction)
    (inv : Invariant program marks start state) (busy : state.pending ≠ []) :
    step (program.followedBy more) whole state = step program marks state := by
  -- A step links a block that can be reached, so it finds no code behind the program.
  obtain ⟨id, rest, block, statement, _, _, _, stacked, found, here, _⟩ :=
    step_processed program marks agree.described start state inv busy
  have bound := program.get_lt_size block.lines.last statement here
  have reachable : graph.isReachable block.lines.last = true := by
    have listed : block.lines ∈ state.blocks.map Block.lines := List.mem_map_of_mem (List.mem_of_getElem? found)
    obtain ⟨order, _⟩ := placed_bounds program marks agree.described _ inv.placed block.lines listed
    rw [reachable_iff_reaches complete]
    exact (inv.reached block (List.mem_of_getElem? found)).trans
      (block_runs agree.described _ inv.placed block.lines listed block.lines.last
        ((LineRange.contains_iff _ _).mpr ⟨order, Nat.le_refl _⟩))
  simp only [step, stacked, found, program.followed_get more _ bound, here]
  exact agree_process agree _ id _ statement here fun function callee =>
    uncalled.calls block.lines.last statement function reachable here callee

theorem uncalled_run {program more : Program} {marks whole : Landmarks} {graph : FlowGraph} {start : Line}
    (agree : Agree program more marks whole) (uncalled : Uncalled program more graph)
    (complete : Complete program start graph) (steps : Nat) (state : Construction)
    (inv : Invariant program marks start state) :
    run (program.followedBy more) whole steps state = run program marks steps state := by
  induction steps generalizing state with
  | zero => rfl
  | succ steps ih =>
      by_cases idle : state.pending = []
      · simp [run, idle]
      · obtain ⟨after, stepped, invAfter, _⟩ :=
          step_invariant program marks agree.described start state inv idle
        have same := uncalled_step agree uncalled complete state inv idle
        simp only [run, same, stepped, ih after invAfter]

theorem run_longer (program : Program) (marks : Landmarks) (steps more : Nat) (state final : Construction)
    (ran : run program marks steps state = .ok final) (finished : final.pending = []) :
    run program marks (steps + more) state = .ok final := by
  induction steps generalizing state with
  | zero =>
      obtain rfl := Except.ok.inj ran
      cases more with
      | zero => exact ran
      | succ more => simp [run, finished]
  | succ steps ih =>
      rw [Nat.succ_add]
      by_cases idle : state.pending = []
      · simpa [run, idle] using ran
      · cases stepped : step program marks state with
        | error reason => simp [run, idle, stepped] at ran
        | ok after =>
            simp only [run, stepped, List.isEmpty_iff, idle, if_false] at ran ⊢
            exact ih after ran

end Construction

theorem uncalled_build {program more : Program} (table : SymbolTable) (name : String) (graph : FlowGraph)
    (built : build program table name = .ok graph) (uncalled : Uncalled program more graph) :
    ∃ whole, build (program.followedBy more) table name =
      .ok ⟨graph.blocks, graph.roots, whole, graph.diagnostics⟩ := by
  obtain ⟨marks, function, start, state, collected, named, last, ran, rfl⟩ :=
    build_run program table name graph built
  have described := Landmarks.collect_describes program marks collected
  have leader := program.entry_leader function start last
  obtain ⟨initial, full⟩ :=
    Construction.initial_invariant program marks start ((described.leaders start).mpr leader)
  obtain ⟨final, ranFinal, _, finished⟩ :=
    Construction.run_invariant program marks described start program.size _ initial (by lia)
  obtain rfl : final = state := Except.ok.inj (ranFinal.symm.trans ran)
  obtain ⟨other, ranOther, complete⟩ := complete_of_run program marks described start leader
  obtain rfl : other = final := Except.ok.inj (ranOther.symm.trans ran)
  have targets : ∀ line statement label, (program.followedBy more).get? line = some statement →
      statement.jumpTarget? = some label → ∃ target, (program.followedBy more).LastNaming .label label target := by
    intro line statement label found jumps
    rcases program.followed_get_cases more line statement found with ⟨_, inside⟩ | ⟨_, member⟩
    · obtain ⟨target, labelled⟩ := described.targets line statement label inside jumps
      exact ⟨target, program.followed_own_naming more .label label target uncalled.labels labelled⟩
    · obtain ⟨mark, marked, names⟩ := uncalled.targets statement member label jumps
      exact Program.last_naming_exists _ .label label mark (List.mem_append_right _ marked) names
  obtain ⟨whole, collectedWhole⟩ := Landmarks.collect_succeeds (program.followedBy more) targets
  have describes := Landmarks.collect_describes _ whole collectedWhole
  have agree := uncalled_agree uncalled marks whole described describes
  have entered := (entry_line _ whole describes table name start).mpr
    ⟨function, named, program.followed_own_naming more .func function start uncalled.entries last⟩
  have bound := program.last_naming_lt_size .func function start last
  have longer := Construction.run_longer program marks program.size more.size _ other ran finished
  have same := Construction.uncalled_run agree uncalled complete (program.size + more.size) _ initial
  refine ⟨whole, ?_⟩
  simp only [build, collectedWhole, entered, Construction.agree_add_root agree _ start bound,
    program.followed_size more, same, longer]

end FlowGraph

namespace Liveness

theorem known_sets_eq (left right : Option LiveSet) (known : Prop) (first : left.isSome = true ↔ known)
    (second : right.isSome = true ↔ known)
    (same : known → ∀ id, (∃ set, left = some set ∧ id ∈ set) ↔ ∃ set, right = some set ∧ id ∈ set) :
    left = right := by
  cases left with
  | none =>
      cases right with
      | none => rfl
      | some set => simp_all
  | some one =>
      cases right with
      | none => simp_all
      | some other =>
          congr 1
          apply Std.ExtTreeSet.ext_mem
          intro id
          simpa using same (first.mp rfl) id

structure Unaffected (program more : Program) (table : SymbolTable) (graph whole : FlowGraph) : Prop where
  blocks : whole.blocks = graph.blocks
  roots : whole.roots = graph.roots
  diagnostics : whole.diagnostics = graph.diagnostics
  order : whole.reversePostOrder = graph.reversePostOrder
  unreachable : ∀ line, program.size ≤ line → whole.isReachable line = false
  gen : ∀ line, line < program.size →
    (compute (program.followedBy more) table whole).gen? line = (compute program table graph).gen? line
  kill : ∀ line, line < program.size →
    (compute (program.followedBy more) table whole).kill? line = (compute program table graph).kill? line
  liveIn : ∀ line, line < program.size →
    (compute (program.followedBy more) table whole).liveIn? line = (compute program table graph).liveIn? line
  liveOut : ∀ line, line < program.size →
    (compute (program.followedBy more) table whole).liveOut? line = (compute program table graph).liveOut? line
  nothingIn : ∀ line, program.size ≤ line → (compute (program.followedBy more) table whole).liveIn? line = none
  nothingOut : ∀ line, program.size ≤ line → (compute (program.followedBy more) table whole).liveOut? line = none

theorem path_reachable {program : Program} {graph : FlowGraph} {start : Line}
    (complete : FlowGraph.Complete program start graph) (line last : Line) (passed : List Line)
    (path : graph.LinePath line passed last) (reachable : graph.isReachable line = true) :
    graph.isReachable last = true ∧ ∀ other ∈ passed, graph.isReachable other = true := by
  induction path with
  | here line => exact ⟨reachable, by simp⟩
  | step line next last passed flow _ ih =>
      obtain ⟨ends, passes⟩ := ih (FlowGraph.line_flow_reachable complete line next flow)
      refine ⟨ends, ?_⟩
      intro other member
      rcases List.mem_cons.mp member with rfl | later
      · exact reachable
      · exact passes other later

theorem same_blocks_flow {graph other : FlowGraph} (same : other.blocks = graph.blocks) (line next : Line) :
    other.LineFlow line next ↔ graph.LineFlow line next := by
  rw [FlowGraph.LineFlow, FlowGraph.LineFlow, same]

theorem same_blocks_path {graph other : FlowGraph} (same : other.blocks = graph.blocks) (line last : Line)
    (passed : List Line) (path : graph.LinePath line passed last) : other.LinePath line passed last := by
  induction path with
  | here line => exact .here line
  | step line next last passed flow _ ih =>
      exact .step line next last passed ((same_blocks_flow same line next).mpr flow) ih

theorem read_ahead_followed {program more : Program} {table : SymbolTable} {graph whole : FlowGraph} {start : Line}
    (complete : FlowGraph.Complete program start graph) (same : whole.blocks = graph.blocks) (line : Line)
    (reachable : graph.isReachable line = true) (id : SymbolId) :
    ReadAhead (program.followedBy more) table whole line id ↔ ReadAhead program table graph line id := by
  have lines : ∀ other, graph.isReachable other = true →
      (program.followedBy more).get? other = program.get? other := fun other inside =>
    program.followed_get more other (FlowGraph.reachable_lt complete other inside)
  constructor
  · rintro ⟨passed, last, statement, path, found, reads, clear⟩
    have back := same_blocks_path same.symm line last passed path
    obtain ⟨ends, passes⟩ := path_reachable complete line last passed back reachable
    refine ⟨passed, last, statement, back, (lines last ends).symm.trans found, reads, ?_⟩
    intro other member step foundStep
    exact clear other member step ((lines other (passes other member)).trans foundStep)
  · rintro ⟨passed, last, statement, path, found, reads, clear⟩
    obtain ⟨ends, passes⟩ := path_reachable complete line last passed path reachable
    refine ⟨passed, last, statement, same_blocks_path same line last passed path,
      (lines last ends).trans found, reads, ?_⟩
    intro other member step foundStep
    exact clear other member step ((lines other (passes other member)).symm.trans foundStep)

theorem same_blocks_reachable {graph other : FlowGraph} (same : other.blocks = graph.blocks) (line : Line) :
    other.isReachable line = graph.isReachable line := by
  rw [FlowGraph.isReachable, FlowGraph.isReachable, FlowGraph.blockOf?, FlowGraph.blockOf?, same]

section Compared

variable {program more : Program} {table : SymbolTable} {graph whole : FlowGraph} {start first : Line}
  (complete : FlowGraph.Complete program start graph)
  (completed : FlowGraph.Complete (program.followedBy more) first whole) (same : whole.blocks = graph.blocks)

include complete completed same

theorem followed_live_in (line : Line) :
    (compute (program.followedBy more) table whole).liveIn? line = (compute program table graph).liveIn? line := by
  have exact := compute_exact table complete
  have exactWhole := compute_exact table completed
  have reaches := same_blocks_reachable same line
  apply known_sets_eq _ _ (graph.isReachable line = true) (reaches ▸ exactWhole.inPresent line) (exact.inPresent line)
  intro reachable id
  exact (exactWhole.liveIn line (reaches.trans reachable) id).trans
    ((read_ahead_followed complete same line reachable id).trans (exact.liveIn line reachable id).symm)

theorem followed_live_out (line : Line) :
    (compute (program.followedBy more) table whole).liveOut? line = (compute program table graph).liveOut? line := by
  have exact := compute_exact table complete
  have exactWhole := compute_exact table completed
  have reaches := same_blocks_reachable same line
  apply known_sets_eq _ _ (graph.isReachable line = true) (reaches ▸ exactWhole.outPresent line)
    (exact.outPresent line)
  intro reachable id
  refine (exactWhole.liveOut line (reaches.trans reachable) id).trans
    (Iff.trans ?_ (exact.liveOut line reachable id).symm)
  simp only [same_blocks_flow same, LiveIn, followed_live_in complete completed same]

end Compared

theorem uncalled_code_unaffected (program more : Program) (table : SymbolTable) (name : String) (graph : FlowGraph)
    (built : FlowGraph.build program table name = .ok graph)
    (uncalled : FlowGraph.Uncalled program more graph) :
    ∃ whole, FlowGraph.build (program.followedBy more) table name = .ok whole ∧
      Unaffected program more table graph whole := by
  obtain ⟨marks, builtWhole⟩ := FlowGraph.uncalled_build table name graph built uncalled
  obtain ⟨_, start, _, _, complete⟩ := FlowGraph.build_complete program table name graph built
  obtain ⟨_, first, _, _, completed⟩ := FlowGraph.build_complete _ table name _ builtWhole
  have exact := compute_exact table completed
  have unreachable : ∀ line, program.size ≤ line →
      FlowGraph.isReachable ⟨graph.blocks, graph.roots, marks, graph.diagnostics⟩ line = false := by
    intro line behind
    rw [Bool.eq_false_iff]
    intro reachable
    have inside : graph.isReachable line = true := (same_blocks_reachable rfl line).trans reachable
    exact absurd (FlowGraph.reachable_lt complete line inside) (Nat.not_lt.mpr behind)
  refine ⟨_, builtWhole, rfl, rfl, rfl, rfl, unreachable, ?_, ?_, ?_, ?_, ?_, ?_⟩
  · intro line bound
    simp only [gen?, compute, reads, List.getElem?_map]
    exact congrArg _ (program.followed_get more line bound)
  · intro line bound
    simp only [kill?, compute, writes, List.getElem?_map]
    exact congrArg _ (program.followed_get more line bound)
  · exact fun line _ => followed_live_in complete completed rfl line
  · exact fun line _ => followed_live_out complete completed rfl line
  · intro line behind
    rw [← Option.not_isSome_iff_eq_none, exact.inPresent, unreachable line behind]
    exact Bool.false_ne_true
  · intro line behind
    rw [← Option.not_isSome_iff_eq_none, exact.outPresent, unreachable line behind]
    exact Bool.false_ne_true

def annex : Program :=
  let name (id : SymbolId) (ty : ValueType) : Option Operand := some (.symbol ⟨id, ty⟩)
  ⟨[⟨.void, .func, name 5 .void, none, none⟩,
    ⟨.void, .label, name 6 .void, none, none⟩,
    ⟨.long, .param, name 2 .int, none, none⟩,
    ⟨.void, .call, name 5 .void, none, none⟩,
    ⟨.void, .goto, name 6 .void, none, none⟩]⟩

theorem annex_uncalled (graph : FlowGraph) : FlowGraph.Uncalled FlowGraph.roundabout annex graph where
  opens := ⟨_, rfl, rfl⟩
  labels := by simp [annex, FlowGraph.roundabout, Statement.Names, Statement.subject?, Operand.symbolId?]
  entries := by simp [annex, FlowGraph.roundabout, Statement.Names, Statement.subject?, Operand.symbolId?]
  targets := by
    simp [annex, Statement.jumpTarget?, Statement.Names, Statement.subject?, Operand.symbolId?,
      Opcode.isConditionalJump]
  calls := by
    intro line statement function _ found callee other member names
    have none : ∀ caller ∈ FlowGraph.roundabout.statements, caller.callee? ≠ some 5 := by decide
    have only : ∀ entry ∈ annex.statements, entry.opcode = .func → entry.subject? = some 5 := by decide
    obtain rfl : function = 5 := Option.some.inj (names.2.symm.trans (only other member names.1))
    exact none statement (List.mem_of_getElem? found) callee

theorem annex_unaffected : ∃ graph whole,
    FlowGraph.build FlowGraph.roundabout FlowGraph.roundaboutTable "main" = .ok graph ∧
    FlowGraph.Uncalled FlowGraph.roundabout annex graph ∧
    FlowGraph.build (FlowGraph.roundabout.followedBy annex) FlowGraph.roundaboutTable "main" = .ok whole ∧
    Unaffected FlowGraph.roundabout annex FlowGraph.roundaboutTable graph whole := by
  obtain ⟨graph, built⟩ := FlowGraph.roundabout_builds
  have uncalled := annex_uncalled graph
  obtain ⟨whole, builtWhole, unaffected⟩ := uncalled_code_unaffected FlowGraph.roundabout annex
    FlowGraph.roundaboutTable "main" graph built uncalled
  exact ⟨graph, whole, built, uncalled, builtWhole, unaffected⟩

end Liveness

end ThreeAddress
