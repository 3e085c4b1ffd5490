import ThreeAddress.Proofs.Flow.Diagnostics
import ThreeAddress.Proofs.Lowering.Completion

set_option autoImplicit false

namespace ThreeAddress

structure Program.Spans (program : Program) (function : SymbolId) (first last : Line) : Prop where
  entry : ∃ statement, program.get? first = some statement ∧ statement.Names .func function
  order : first ≤ last
  bound : last < program.size
  inner : ∀ line statement, first < line → line ≤ last → program.get? line = some statement →
    statement.opcode ≠ .func
  next : ∀ statement, program.get? (last + 1) = some statement → statement.opcode = .func

theorem Program.step_advances (program : Program) (line next : Line) (step : program.Step line next) :
    program.Advances line next := by
  rcases step with ⟨⟨statement, _, found, goesOn, straight, _, _⟩, same⟩ | jumps
  · exact Or.inl ⟨statement, found, goesOn, straight, same⟩
  · exact Or.inr jumps

namespace Lower

section Extent

variable {body : SymbolId → Node} {whole : Lowering} {id : SymbolId} {symbol : Symbol}
  {before finished : Lowering} (extent : Extent body whole id symbol before finished)

include extent

theorem extent_first (line : Line) (above : before.program.size ≤ line) (below : line < finished.program.size)
    (statement : Statement) (found : whole.program.get? line = some statement) (opcode : statement.opcode = .func) :
    line = before.program.size := by
  by_contra different
  exact (extent_inside extent line (by lia) below statement found).1 opcode

theorem extent_unique (other : SymbolId) (otherSymbol : Symbol) (otherBefore otherFinished : Lowering)
    (second : Extent body whole other otherSymbol otherBefore otherFinished) (line : Line)
    (inFirst : before.program.size ≤ line ∧ line < finished.program.size)
    (inSecond : otherBefore.program.size ≤ line ∧ line < otherFinished.program.size) :
    before.program.size = otherBefore.program.size ∧ finished.program.size = otherFinished.program.size := by
  have starts : before.program.size = otherBefore.program.size := by
    rcases Nat.lt_trichotomy before.program.size otherBefore.program.size with less | same | more
    · exact (extent_first extent _ (by lia) (by lia) _ (extent_entry second).1 rfl).symm
    · exact same
    · exact extent_first second _ (by lia) (by lia) _ (extent_entry extent).1 rfl
  refine ⟨starts, ?_⟩
  have ordered := (extent_entry extent).2
  have orderedOther := (extent_entry second).2
  have bound := extent_bound extent
  have boundOther := extent_bound second
  rcases Nat.lt_trichotomy finished.program.size otherFinished.program.size with less | same | more
  · obtain ⟨statement, found⟩ := whole.program.get_of_lt finished.program.size (by lia)
    have same := extent_first second _ (by lia) less statement found (extent.next statement found)
    lia
  · exact same
  · obtain ⟨statement, found⟩ := whole.program.get_of_lt otherFinished.program.size (by lia)
    have same := extent_first extent _ (by lia) more statement found (second.next statement found)
    lia

theorem extent_enters (next : Line) (advances : whole.program.Advances before.program.size next) :
    next = before.program.size + 1 := by
  rcases advances with ⟨_, _, _, _, same⟩ | ⟨statement, label, found, jumps, _⟩
  · exact same
  · rw [(extent_entry extent).1] at found
    obtain rfl := Option.some.inj found
    cases jumps

theorem extent_advances (distinct : (marks whole.program.statements).Nodup) (line next : Line)
    (above : before.program.size ≤ line) (below : line < finished.program.size)
    (advances : whole.program.Advances line next) :
    before.program.size ≤ next ∧ next ≤ finished.program.size := by
  obtain ⟨code, fragment⟩ := statement_fragment _ _ finished extent.lowered
  have start := begun_size id symbol before
  by_cases first : line = before.program.size
  · have entered := extent_enters extent next (first ▸ advances)
    lia
  · have range := fragment_advances distinct _ finished code fragment extent.placed line next (by lia) below advances
    lia

theorem extent_last (line : Line) (above : before.program.size ≤ line) (below : line < finished.program.size)
    (runsOff : whole.program.RunsOff line) : line + 1 = finished.program.size := by
  obtain ⟨_, _, _, _, next⟩ := runsOff
  by_contra inside
  have bound := extent_bound extent
  obtain ⟨statement, found⟩ := whole.program.get_of_lt (line + 1) (by lia)
  have same := extent_first extent (line + 1) (by lia) (by lia) statement found (next statement found)
  lia

theorem extent_spans : whole.program.Spans id before.program.size (finished.program.size - 1) := by
  obtain ⟨entry, order⟩ := extent_entry extent
  have bound := extent_bound extent
  have joined : finished.program.size - 1 + 1 = finished.program.size := by lia
  refine ⟨⟨_, entry, rfl, rfl⟩, by lia, by lia, ?_, ?_⟩
  · intro line statement above below found
    exact (extent_inside extent line above (by lia) statement found).1
  · rw [joined]
    exact extent.next

theorem extent_step (distinct : (marks whole.program.statements).Nodup) (line next : Line)
    (above : before.program.size ≤ line) (below : line < finished.program.size)
    (advances : whole.program.Advances line next) :
    (before.program.size ≤ next ∧ next < finished.program.size ∧ whole.program.Step line next) ∨
      (line + 1 = finished.program.size ∧ whole.program.RunsOff line) := by
  have range := extent_advances extent distinct line next above below advances
  have bound := extent_bound extent
  rcases advances with ⟨statement, found, goesOn, straight, rfl⟩ | jumps
  · by_cases inside : line + 1 < finished.program.size
    · obtain ⟨after, foundAfter⟩ := whole.program.get_of_lt (line + 1) (by lia)
      have plain := (extent_inside extent (line + 1) (by lia) inside after foundAfter).1
      exact Or.inl ⟨range.1, inside,
        Or.inl ⟨⟨statement, after, found, goesOn, straight, foundAfter, plain⟩, rfl⟩⟩
    · have ends : line + 1 = finished.program.size := by lia
      refine Or.inr ⟨ends, statement, found, goesOn, straight, ?_⟩
      rw [ends]
      exact extent.next
  · have inside : next ≠ finished.program.size := by
      obtain ⟨_, _, _, _, ⟨mark, marked, names⟩, _⟩ := jumps
      rintro rfl
      have opcode := extent.next mark marked
      rw [names.1] at opcode
      cases opcode
    exact Or.inl ⟨range.1, by lia, Or.inr jumps⟩

theorem extent_passes (distinct : (marks whole.program.statements).Nodup) (line : Line)
    (passes : whole.program.Passes before.program.size line) :
    (before.program.size ≤ line ∧ line < finished.program.size ∧
      Relation.ReflTransGen whole.program.Step before.program.size line) ∨
    ∃ last, last + 1 = finished.program.size ∧ whole.program.RunsOff last ∧
      Relation.ReflTransGen whole.program.Step before.program.size last := by
  induction passes with
  | refl => exact Or.inl ⟨Nat.le_refl _, (extent_entry extent).2, .refl⟩
  | @tail here next _ advances ih =>
      rcases ih with ⟨above, below, steps⟩ | off
      · rcases extent_step extent distinct here next above below advances with
          ⟨behind, upTo, step⟩ | ⟨last, runsOff⟩
        · exact Or.inl ⟨behind, upTo, .tail steps step⟩
        · exact Or.inr ⟨here, last, runsOff, steps⟩
      · exact Or.inr off

theorem extent_completes (distinct : (marks whole.program.statements).Nodup) :
    (body id).completes = true ↔ ∃ last, last + 1 = finished.program.size ∧ whole.program.RunsOff last ∧
      Relation.ReflTransGen whole.program.Step before.program.size last := by
  have start := begun_size id symbol before
  have enters : whole.program.Advances before.program.size (begun id symbol before).program.size :=
    Or.inl ⟨_, (extent_entry extent).1, by simp [entry], by simp [entry], start⟩
  constructor
  · intro completes
    have passes := completes_passes distinct (body id) completes _ finished extent.lowered extent.placed
    rcases extent_passes extent distinct _ (.head enters passes) with ⟨_, below, _⟩ | off
    · exact absurd below (Nat.lt_irrefl _)
    · exact off
  · rintro ⟨last, ends, ⟨statement, found, goesOn, straight, _⟩, steps⟩
    by_contra halts
    obtain ⟨inside, first, range, stays⟩ := halts_sealed distinct (body id) (by simpa using halts) _ finished
      extent.lowered extent.placed
    have closed : ∀ line next, line = before.program.size ∨ inside line → whole.program.Advances line next →
        inside next := by
      rintro line next (rfl | inner) advances
      · obtain rfl := extent_enters extent next advances
        exact start ▸ first
      · exact stays line next inner advances
    have kept : ∀ line, Relation.ReflTransGen whole.program.Step before.program.size line →
        line = before.program.size ∨ inside line := by
      intro line reached
      induction reached with
      | refl => exact Or.inl rfl
      | tail _ step ih => exact Or.inr (closed _ _ ih (whole.program.step_advances _ _ step))
    have beyond := (range _ (closed last (last + 1) (kept last steps)
      (Or.inl ⟨statement, found, goesOn, straight, rfl⟩))).2
    lia

end Extent

section Unit

variable {bodies : Bodies} {table : SymbolTable} {options : Options} {result : Intermediate} {whole : Lowering}
  (unit : Generated bodies table options result whole) {id : SymbolId} {symbol : Symbol}
  {before finished : Lowering} (extent : Extent bodies.body whole id symbol before finished)

include unit extent

theorem extent_step_back (line next : Line) (step : whole.program.Step line next)
    (above : before.program.size < next) (below : next < finished.program.size) :
    before.program.size ≤ line ∧ line < finished.program.size := by
  rcases step with ⟨_, rfl⟩ | ⟨statement, label, found, jumps, last⟩
  · lia
  · obtain ⟨other, _, otherSymbol, otherBefore, otherFinished, second, behindStart, upTo⟩ :=
      unit.covers line (whole.program.get_lt_size line statement found)
    obtain ⟨target, mark, behind, inside, marked, names, _⟩ :=
      extent_jump second line behindStart upTo statement found label jumps
    have same := whole.program.last_naming_unique .label label next target last
      (Machine.named_last whole.program unit.distinct target mark label marked names)
    have equal := extent_unique extent other otherSymbol otherBefore otherFinished second next (by lia) (by lia)
    lia

theorem extent_reached (start : Line) (opens : ∃ statement, whole.program.get? start = some statement ∧
      statement.opcode = .func) (line : Line) (reaches : whole.program.Reaches start line)
    (above : before.program.size ≤ line) (below : line < finished.program.size) :
    whole.program.Reaches start before.program.size ∧
      Relation.ReflTransGen whole.program.Step before.program.size line := by
  induction reaches with
  | refl =>
      obtain ⟨statement, found, opcode⟩ := opens
      rw [← extent_first extent start above below statement found opcode]
      exact ⟨.refl, .refl⟩
  | @tail here next reached moves ih =>
      by_cases first : next = before.program.size
      · rw [← first]
        exact ⟨.tail reached moves, .refl⟩
      · rcases moves with step | ⟨_, _, _, _, ⟨statement, found, names⟩, _⟩
        · obtain ⟨behind, upTo⟩ := extent_step_back unit extent here next step (by lia) below
          obtain ⟨entered, steps⟩ := ih behind upTo
          exact ⟨entered, .tail steps step⟩
        · exact absurd (extent_first extent next above below statement found names.1) first

end Unit

theorem spans_extent {bodies : Bodies} {table : SymbolTable} {options : Options} {result : Intermediate}
    {whole : Lowering} (unit : Generated bodies table options result whole) (id : SymbolId) (first last : Line)
    (spans : whole.program.Spans id first last) :
    ∃ symbol before finished, Extent bodies.body whole id symbol before finished ∧
      before.program.size = first ∧ finished.program.size = last + 1 := by
  obtain ⟨statement, found, names⟩ := spans.entry
  obtain ⟨other, _, symbol, before, finished, extent, above, below⟩ :=
    unit.covers first (whole.program.get_lt_size first statement found)
  obtain rfl := extent_first extent first above below statement found names.1
  obtain ⟨entry, order⟩ := extent_entry extent
  rw [entry] at found
  obtain rfl := Option.some.inj found
  obtain rfl : other = id := Option.some.inj names.2
  refine ⟨symbol, before, finished, extent, rfl, ?_⟩
  have inside := spans.order
  have bound := spans.bound
  have ended := extent_bound extent
  rcases Nat.lt_trichotomy finished.program.size (last + 1) with less | same | more
  · obtain ⟨statement, found⟩ := whole.program.get_of_lt finished.program.size (by lia)
    exact absurd (extent.next statement found) (spans.inner _ statement order (by lia) found)
  · exact same
  · obtain ⟨statement, found⟩ := whole.program.get_of_lt (last + 1) (by lia)
    have start := extent_first extent (last + 1) (by lia) more statement found (spans.next statement found)
    lia

structure ReportsCompletion (bodies : Bodies) (table : SymbolTable) (result : Intermediate) : Prop where
  spans : ∀ id ∈ table.functions, ∃ first last, result.program.Spans id first last
  missing : ∀ id first last, result.program.Spans id first last → result.graph.isReachable first = true →
    (.fallsOffEnd last ∈ result.graph.diagnostics ↔ (bodies.body id).completes = true)
  only : ∀ diagnostic ∈ result.graph.diagnostics, ∃ id ∈ table.functions, ∃ first last,
    result.program.Spans id first last ∧ result.graph.isReachable first = true ∧ diagnostic = .fallsOffEnd last
  once : result.graph.diagnostics.Nodup

theorem generate_reports_completion (bodies : Bodies) (table after : SymbolTable) (options : Options)
    (result : Intermediate) (generated : generate bodies table options = (.ok result, after)) :
    ReportsCompletion bodies table result := by
  obtain ⟨whole, _, _, unit⟩ := generate_whole bodies table after options result generated
  obtain ⟨function, start, _, ⟨⟨opening, found, names⟩, _⟩, complete⟩ :=
    FlowGraph.build_complete whole.program whole.table options.entryPoint result.graph unit.built
  have opens : ∃ statement, whole.program.get? start = some statement ∧ statement.opcode = .func :=
    ⟨opening, found, names.1⟩
  have reachable := FlowGraph.reachable_iff_reaches complete
  obtain ⟨reports, once⟩ :=
    FlowGraph.build_reports whole.program whole.table options.entryPoint result.graph unit.built
  refine ⟨?_, ?_, ?_, once⟩
  · intro id listed
    obtain ⟨symbol, before, finished, extent⟩ := unit.each id listed
    rw [unit.program]
    exact ⟨_, _, extent_spans extent⟩
  · intro id first last spans entered
    rw [unit.program] at spans
    obtain ⟨symbol, before, finished, extent, rfl, ends⟩ := spans_extent unit id first last spans
    rw [reports, reachable, extent_completes extent unit.distinct]
    rw [reachable] at entered
    have order := spans.order
    constructor
    · rintro ⟨reaches, runsOff⟩
      exact ⟨last, ends.symm, runsOff,
        (extent_reached unit extent start opens last reaches order (by lia)).2⟩
    · rintro ⟨line, same, runsOff, steps⟩
      obtain rfl : line = last := by lia
      exact ⟨entered.trans (Relation.ReflTransGen.mono (fun _ _ => Or.inl) _ _ steps), runsOff⟩
  · rintro ⟨line⟩ reported
    obtain ⟨reaches, runsOff⟩ := (reports line).mp reported
    have located := runsOff
    obtain ⟨statement, here, _⟩ := located
    obtain ⟨id, listed, symbol, before, finished, extent, above, below⟩ :=
      unit.covers line (whole.program.get_lt_size line statement here)
    have last := extent_last extent line above below runsOff
    have entered := (extent_reached unit extent start opens line ((reachable line).mp reaches) above below).1
    have spans := extent_spans extent
    rw [← last, Nat.add_sub_cancel] at spans
    exact ⟨id, listed, _, line, by rw [unit.program]; exact spans, (reachable _).mpr entered, rfl⟩

def branchTable : SymbolTable :=
  ⟨[⟨"main", .int, .function, none⟩, ⟨"x", .int, .variable, none⟩, ⟨"part", .int, .function, none⟩,
    ⟨"idle", .void, .function, none⟩], [⟨1, [], []⟩, ⟨3, [], []⟩, ⟨4, [], []⟩]⟩

def branchBodies : Bodies :=
  let x : Node := .identifier 2 .int
  let part : Node := .binary .call .int (.identifier 3 .int) .empty
  let back (value : Node) : Node := .unary .ret .void value
  let main : Node := .binary .conditional .void x (.binary .branches .void (back x) (back part))
  let half : Node := .list .statementList [.binary .conditional .void x (back x), .binary .loop .void x .empty]
  ((Bodies.empty.insert 1 main).2.insert 3 half).2

theorem branch_reports_completion : ∃ result after,
    generate branchBodies branchTable {} = (.ok result, after) ∧ ReportsCompletion branchBodies branchTable result ∧
      result.graph.diagnostics = [.fallsOffEnd 15] := by
  obtain ⟨result, after, generated, reported⟩ := generate_yields branchBodies branchTable {}
    (fun result => result.graph.diagnostics) [.fallsOffEnd 15] (by decide +kernel)
  exact ⟨result, after, generated,
    generate_reports_completion branchBodies branchTable after {} result generated, reported⟩

end Lower

end ThreeAddress
