import ThreeAddress.Proofs.Flow.Refinement

set_option autoImplicit false

namespace ThreeAddress

/-- Control runs on from the line, but there is nothing behind it or only the next function. -/
def Program.RunsOff (program : Program) (line : Line) : Prop :=
  ∃ statement, program.get? line = some statement ∧ statement.opcode ≠ .ret ∧ statement.opcode ≠ .goto ∧
    ∀ after, program.get? (line + 1) = some after → after.opcode = .func

namespace FlowGraph

namespace Construction

theorem block_at_diagnostics (program : Program) (marks : Landmarks) (start : Line) (state : Construction) :
    (blockAt program marks start state).2.diagnostics = state.diagnostics := by
  unfold blockAt
  split <;> rfl

theorem map_block_at_diagnostics (program : Program) (marks : Landmarks) (lines : Successors Line)
    (state : Construction) :
    (lines.mapM (blockAt program marks) state).2.diagnostics = state.diagnostics := by
  cases lines with
  | terminated => rfl
  | continuous next => exact block_at_diagnostics program marks next state
  | branching fallthrough target =>
      exact (block_at_diagnostics program marks target _).trans
        (block_at_diagnostics program marks fallthrough state)

theorem add_root_diagnostics (program : Program) (marks : Landmarks) (state : Construction) (start : Line) :
    (state.addRoot program marks start).diagnostics = state.diagnostics := by
  rw [← block_at_diagnostics program marks start state]
  unfold addRoot
  split
  next id built equal =>
    rw [equal]
    split <;> rfl

theorem process_diagnostics (program : Program) (marks : Landmarks) (state after : Construction) (id : BlockId)
    (last : Line) (statement : Statement) (processed : process program marks state id last statement = .ok after) :
    ∃ lines found, following program marks last statement = .ok (lines, found) ∧
      after.diagnostics = state.diagnostics ++ found := by
  unfold process at processed
  cases followed : following program marks last statement with
  | error reason => simp [followed] at processed
  | ok pair =>
      obtain ⟨lines, found⟩ := pair
      refine ⟨lines, found, rfl, ?_⟩
      have kept := map_block_at_diagnostics program marks lines { state with diagnostics := state.diagnostics ++ found }
      simp only [followed] at processed
      split at processed
      next next built mapped =>
        rw [mapped] at kept
        cases called : calledEntry? marks statement with
        | none =>
            simp only [called] at processed
            obtain rfl := Except.ok.inj processed
            exact kept
        | some start =>
            simp only [called] at processed
            obtain rfl := Except.ok.inj processed
            rw [add_root_diagnostics]
            exact kept

theorem resolve_falls_through (branching : Branching SymbolId) (resolved : Branching Line)
    (target : SymbolId → Except FlowError Line) (succeeded : branching.resolve target = .ok resolved) :
    resolved.fallsThrough = branching.fallsThrough := by
  unfold Branching.resolve at succeeded
  grind

theorem following_found (program : Program) (marks : Landmarks) (last : Line) (statement : Statement)
    (here : program.get? last = some statement) (lines : Successors Line) (found : List Diagnostic)
    (followed : following program marks last statement = .ok (lines, found)) :
    (program.RunsOff last ∧ found = [.fallsOffEnd last]) ∨ (¬ program.RunsOff last ∧ found = []) := by
  have off : program.RunsOff last ↔ statement.branching.fallsThrough = true ∧
      (program.get? (last + 1)).all (fun after => after.opcode = .func) = true := by
    simp only [Program.RunsOff, here, Option.some.injEq, exists_eq_left', Statement.branching]
    cases program.get? (last + 1) <;> simp [and_assoc]
  rw [off]
  unfold following at followed
  split at followed
  next => cases followed
  next resolved succeeded =>
    rw [← resolve_falls_through _ resolved _ succeeded]
    split at followed
    next runsOff =>
      cases followed
      exact Or.inl ⟨runsOff, rfl⟩
    next stays =>
      cases followed
      exact Or.inr ⟨stays, rfl⟩

structure Reported (program : Program) (state : Construction) : Prop where
  exact : ∀ line, .fallsOffEnd line ∈ state.diagnostics ↔
    ∃ (id : BlockId) (block : Block), id ∉ state.pending ∧ state.blocks[id]? = some block ∧
      block.lines.last = line ∧ program.RunsOff line
  distinct : state.diagnostics.Nodup

theorem processed_settled (program : Program) (marks : Landmarks) (state after : Construction) (id : BlockId)
    (rest : List BlockId) (last line : Line) (next : Successors BlockId) (fresh : List Block)
    (stacked : state.pending = id :: rest) (distinct : state.pending.Nodup)
    (done : Processed program marks { state with pending := rest } after id last next fresh) (i : BlockId) :
    (∃ linked, i ∉ after.pending ∧ after.blocks[i]? = some linked ∧ linked.lines.last = line) ↔
      ∃ old, (i = id ∨ i ∉ state.pending) ∧ state.blocks[i]? = some old ∧ old.lines.last = line := by
  rw [stacked, List.nodup_cons] at distinct
  have pending := processed_mem_pending done i
  constructor
  · rintro ⟨linked, settled, found, rfl⟩
    rcases processed_get_cases done i linked found with ⟨old, foundOld, rfl⟩ | ⟨beyond, _⟩
    · refine ⟨old, ?_, foundOld, rfl⟩
      rw [stacked, List.mem_cons]
      grind
    · have bound := (List.getElem?_eq_some_iff.mp found).1
      exact absurd (pending.mpr (Or.inl ⟨beyond, bound⟩)) settled
  · rintro ⟨old, settled, found, rfl⟩
    refine ⟨_, ?_, processed_get done i old found, rfl⟩
    rw [pending]
    rintro (⟨beyond, _⟩ | waiting)
    · have bound := (List.getElem?_eq_some_iff.mp found).1
      exact absurd beyond (Nat.not_le.mpr bound)
    · rw [stacked, List.mem_cons] at settled
      grind

theorem step_reported (program : Program) (marks : Landmarks) (describes : Landmarks.Describes program marks)
    (start : Line) (state after : Construction) (inv : Invariant program marks start state)
    (busy : state.pending ≠ []) (stepped : step program marks state = .ok after)
    (reported : Reported program state) : Reported program after := by
  obtain ⟨id, rest, block, statement, other, next, fresh, stacked, found, here, processed, same, done⟩ :=
    step_processed program marks describes start state inv busy
  obtain rfl : other = after := Except.ok.inj (same.symm.trans stepped)
  obtain ⟨lines, more, followed, diagnostics⟩ := process_diagnostics program marks _ other id _ statement processed
  have settled := fun line =>
    processed_settled program marks state other id rest _ line next fresh stacked inv.pendingNodup done
  have top : id ∈ state.pending := by simp [stacked]
  have ends := following_found program marks block.lines.last statement here lines more followed
  have reports : ∀ line, .fallsOffEnd line ∈ more ↔ line = block.lines.last ∧ program.RunsOff line := by
    intro line
    rcases ends with ⟨runsOff, rfl⟩ | ⟨stays, rfl⟩
    · simp only [List.mem_singleton, Diagnostic.fallsOffEnd.injEq]
      exact ⟨fun equal => ⟨equal, equal ▸ runsOff⟩, fun both => both.1⟩
    · simp only [List.not_mem_nil, false_iff]
      rintro ⟨rfl, runsOff⟩
      exact stays runsOff
  refine ⟨?_, ?_⟩
  · intro line
    rw [diagnostics, List.mem_append, reported.exact, reports]
    constructor
    · rintro (⟨i, old, linked, foundOld, rfl, runsOff⟩ | ⟨rfl, runsOff⟩)
      · obtain ⟨new, free, foundNew, last⟩ := (settled _ i).mpr ⟨old, Or.inr linked, foundOld, rfl⟩
        exact ⟨i, new, free, foundNew, last, runsOff⟩
      · obtain ⟨new, free, foundNew, last⟩ := (settled _ id).mpr ⟨block, Or.inl rfl, found, rfl⟩
        exact ⟨id, new, free, foundNew, last, runsOff⟩
    · rintro ⟨i, new, free, foundNew, last, runsOff⟩
      obtain ⟨old, linked, foundOld, lastOld⟩ := (settled line i).mp ⟨new, free, foundNew, last⟩
      rcases linked with rfl | linked
      · obtain rfl : old = block := Option.some.inj (foundOld.symm.trans found)
        exact Or.inr ⟨lastOld.symm, runsOff⟩
      · exact Or.inl ⟨i, old, linked, foundOld, lastOld, runsOff⟩
  · rw [diagnostics]
    refine List.nodup_append.mpr ⟨reported.distinct, ?_, ?_⟩
    · rcases ends with ⟨_, rfl⟩ | ⟨_, rfl⟩ <;> simp
    · rintro ⟨line⟩ earlier ⟨again⟩ added equal
      cases equal
      obtain ⟨rfl, _⟩ := (reports line).mp added
      obtain ⟨i, old, linked, foundOld, last, _⟩ := (reported.exact _).mp earlier
      -- Two blocks that end at the same line are one, but this one was pending.
      have bounds := fun (range : LineRange) member =>
        (placed_bounds program marks describes _ inv.placed range member).1
      have same : i = id := by
        apply placed_disjoint program marks describes _ inv.placed i id old.lines block.lines (by simp [foundOld])
          (by simp [found]) block.lines.last
        · rw [LineRange.contains_iff, ← last]
          exact ⟨bounds old.lines (List.mem_map_of_mem (List.mem_of_getElem? foundOld)), Nat.le_refl _⟩
        · rw [LineRange.contains_iff]
          exact ⟨bounds block.lines (List.mem_map_of_mem (List.mem_of_getElem? found)), Nat.le_refl _⟩
      exact linked (same ▸ top)

end Construction

theorem reported_lines (program : Program) (start : Line) (graph : FlowGraph)
    (complete : Complete program start graph) (line : Line) :
    (∃ (id : BlockId) (block : Block), graph.blocks[id]? = some block ∧ block.lines.last = line ∧
      program.RunsOff line) ↔ graph.isReachable line = true ∧ program.RunsOff line := by
  rw [reachable_iff complete]
  constructor
  · rintro ⟨id, block, found, rfl, runsOff⟩
    have order := (block_bounds complete id block found).1
    exact ⟨⟨id, block, found, (LineRange.contains_iff _ _).mpr ⟨order, Nat.le_refl _⟩⟩, runsOff⟩
  · rintro ⟨⟨id, block, found, contains⟩, runsOff⟩
    rw [LineRange.contains_iff] at contains
    refine ⟨id, block, found, ?_, runsOff⟩
    by_contra different
    have inside : line < block.lines.last := by lia
    obtain ⟨steps, _⟩ := interior_line complete id block found line contains.1 inside
    obtain ⟨_, _, _, _, next⟩ := runsOff
    rcases (steps (line + 1)).mpr rfl with ⟨⟨_, after, _, _, _, foundAfter, plain⟩, _⟩ | jumps
    · exact plain (next after foundAfter)
    · obtain ⟨_, _, _, _, ⟨mark, marked, names⟩, _⟩ := jumps
      have opcode := next mark marked
      rw [names.1] at opcode
      cases opcode

theorem build_reports (program : Program) (table : SymbolTable) (name : String) (graph : FlowGraph)
    (built : build program table name = .ok graph) :
    (∀ line, .fallsOffEnd line ∈ graph.diagnostics ↔ graph.isReachable line = true ∧ program.RunsOff line) ∧
      graph.diagnostics.Nodup := by
  obtain ⟨marks, function, start, state, rfl, _, _, complete, finished, keeps⟩ :=
    build_keeps program table name graph built
  have first : Construction.Reported program (Construction.empty.addRoot program marks start) := by
    refine ⟨?_, List.nodup_nil⟩
    intro line
    apply iff_of_false List.not_mem_nil
    rintro ⟨id, block, settled, found, _⟩
    obtain ⟨rfl, _⟩ := Construction.initial_block program marks start id block found
    exact settled List.mem_cons_self
  have reported := keeps (Construction.Reported program)
    (Construction.step_reported program marks complete.describes start) first
  refine ⟨?_, reported.distinct⟩
  intro line
  rw [← reported_lines program start _ complete line, reported.exact]
  simp [finished]

theorem runs_off_step (program : Program) (line : Line) (runsOff : program.RunsOff line) (next : Line) :
    program.Step line next ↔ program.JumpsTo line next := by
  constructor
  · rintro (⟨⟨_, after, _, _, _, foundAfter, plain⟩, _⟩ | jumps)
    · obtain ⟨_, _, _, _, entry⟩ := runsOff
      exact absurd (entry after foundAfter) plain
    · exact jumps
  · exact Or.inr

structure Branches (program : Program) (graph : FlowGraph) (line : Line) (block : Block) (statement : Statement) :
    Prop where
  ends : block.lines.last = line
  nowhere : statement.jumpTarget? = none → block.next = .terminated
  target : ∀ label, statement.jumpTarget? = some label → ∃ target child,
    program.LastNaming .label label target ∧ startOf? graph.blocks child = some target ∧
      graph.blockOf? target = some child ∧ block.next = .continuous child

theorem runs_off_branches (program : Program) (start : Line) (graph : FlowGraph)
    (complete : Complete program start graph) (id : BlockId) (block : Block) (found : graph.blocks[id]? = some block)
    (statement : Statement) (here : program.get? block.lines.last = some statement)
    (runsOff : program.RunsOff block.lines.last) : Branches program graph block.lines.last block statement := by
  obtain ⟨distinct, _, follow, _⟩ := children_follow complete id block found
  have jumps : ∀ next, (∃ child ∈ block.children, startOf? graph.blocks child = some next) ↔
      program.JumpsTo block.lines.last next := fun next =>
    (follow next).trans (runs_off_step program block.lines.last runsOff next)
  have started : ∀ child ∈ block.children, ∃ next, startOf? graph.blocks child = some next ∧
      program.JumpsTo block.lines.last next := by
    intro child member
    have bound := (children_follow complete id block found).2.1 child member
    have first : startOf? graph.blocks child = some graph.blocks[child].lines.first := by
      simp [startOf?, bound]
    exact ⟨_, first, (jumps _).mp ⟨child, member, first⟩⟩
  have own : ∀ next, program.JumpsTo block.lines.last next →
      ∃ label, statement.jumpTarget? = some label ∧ program.LastNaming .label label next := by
    rintro next ⟨other, label, found, jump, last⟩
    obtain rfl : other = statement := Option.some.inj (found.symm.trans here)
    exact ⟨label, jump, last⟩
  refine ⟨rfl, ?_, ?_⟩
  · intro absent
    have childless : block.children = [] := by
      rw [List.eq_nil_iff_forall_not_mem]
      intro child member
      obtain ⟨next, _, leads⟩ := started child member
      obtain ⟨label, jump, _⟩ := own next leads
      rw [absent] at jump
      cases jump
    cases next : block.next with
    | terminated => rfl
    | continuous | branching => simp [Block.children, next, Successors.toList] at childless
  · intro label jump
    obtain ⟨target, last⟩ := complete.describes.targets _ statement label here jump
    have leads : program.JumpsTo block.lines.last target := ⟨statement, label, here, jump, last⟩
    obtain ⟨child, member, first⟩ := (jumps target).mpr leads
    have only : ∀ other ∈ block.children, other = child := by
      intro other listed
      obtain ⟨next, firstOther, leadsOther⟩ := started other listed
      rw [program.jumps_to_unique _ next target leadsOther leads] at firstOther
      exact Construction.start_of_inj program graph.landmarks graph.blocks complete.placed other child target
        firstOther first
    refine ⟨target, child, last, first, ?_, ?_⟩
    · obtain ⟨entered, foundChild, rfl⟩ := Option.map_eq_some_iff.mp first
      refine (block_of_iff complete _ child).mpr ⟨entered, foundChild, ?_⟩
      exact (LineRange.contains_iff _ _).mpr ⟨Nat.le_refl _, (block_bounds complete child entered foundChild).1⟩
    · cases next : block.next with
      | terminated => simp [Block.children, next, Successors.toList] at member
      | continuous other => rw [only other (by simp [Block.children, next, Successors.toList])]
      | branching first second =>
          simp only [Block.children, next, Successors.toList] at distinct only
          have same := (only first (by simp)).trans (only second (by simp)).symm
          simp [same] at distinct

structure ReportsRunningOff (program : Program) (graph : FlowGraph) : Prop where
  reported : ∀ line, line ∈ graph.diagnostics.map Diagnostic.line ↔
    graph.isReachable line = true ∧ program.RunsOff line
  once : (graph.diagnostics.map Diagnostic.line).Nodup
  branches : ∀ line ∈ graph.diagnostics.map Diagnostic.line, ∃ id block statement,
    graph.blockOf? line = some id ∧ graph.blocks[id]? = some block ∧ program.get? line = some statement ∧
      Branches program graph line block statement

theorem diagnostics_exact (program : Program) (table : SymbolTable) (name : String) (graph : FlowGraph)
    (built : build program table name = .ok graph) : ReportsRunningOff program graph := by
  obtain ⟨reports, distinct⟩ := build_reports program table name graph built
  obtain ⟨_, start, _, _, complete⟩ := build_complete program table name graph built
  have reported : ∀ line, line ∈ graph.diagnostics.map Diagnostic.line ↔
      graph.isReachable line = true ∧ program.RunsOff line := by
    intro line
    rw [← reports, List.mem_map]
    constructor
    · rintro ⟨⟨other⟩, member, rfl⟩
      exact member
    · intro member
      exact ⟨_, member, rfl⟩
  refine ⟨reported, ?_, ?_⟩
  · apply distinct.map
    rintro ⟨first⟩ ⟨second⟩ same
    exact congrArg Diagnostic.fallsOffEnd same
  · intro line member
    obtain ⟨id, block, found, rfl, runsOff⟩ :=
      (reported_lines program start graph complete line).mpr ((reported line).mp member)
    obtain ⟨order, bound, _⟩ := block_bounds complete id block found
    obtain ⟨statement, here⟩ := program.get_of_lt _ bound
    refine ⟨id, block, statement, ?_, found, here, runs_off_branches program start graph complete id block found
      statement here runsOff⟩
    exact (block_of_iff complete _ id).mpr
      ⟨block, found, (LineRange.contains_iff _ _).mpr ⟨order, Nat.le_refl _⟩⟩

def cliff : Program :=
  let name (id : SymbolId) (ty : ValueType) : Option Operand := some (.symbol ⟨id, ty⟩)
  ⟨[⟨.void, .func, name 1 .void, none, none⟩,
    ⟨.void, .label, name 5 .void, none, none⟩,
    ⟨.void, .call, name 2 .void, none, none⟩,
    ⟨.long, .jumpNonzero, name 4 .int, none, name 5 .void⟩,
    ⟨.void, .func, name 2 .void, none, none⟩,
    ⟨.long, .assign, some (.immediate (.int 0)), none, name 4 .int⟩,
    ⟨.void, .func, name 3 .void, none, none⟩]⟩

def cliffTable : SymbolTable :=
  ⟨[⟨"main", .void, .function, none⟩, ⟨"f", .void, .function, none⟩, ⟨"g", .void, .function, none⟩,
    ⟨"x", .int, .variable, some 1⟩, ⟨"@0", .void, .label, some 1⟩], [⟨1, [], [4]⟩, ⟨2, [], []⟩, ⟨3, [], []⟩]⟩

theorem cliff_diagnostics : ∃ graph, build cliff cliffTable "main" = .ok graph ∧
    graph.diagnostics.map Diagnostic.line = [5, 3] ∧ ReportsRunningOff cliff graph := by
  have lines : (build cliff cliffTable "main").toOption.map (fun graph => graph.diagnostics.map Diagnostic.line) =
      some [5, 3] := by decide
  cases built : build cliff cliffTable "main" with
  | error reason => simp [built, Except.toOption] at lines
  | ok graph =>
      rw [built] at lines
      exact ⟨graph, rfl, Option.some.inj lines, diagnostics_exact cliff cliffTable "main" graph built⟩

end FlowGraph

end ThreeAddress
