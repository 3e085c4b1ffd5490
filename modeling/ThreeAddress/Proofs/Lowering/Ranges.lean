import ThreeAddress.Proofs.LiveRanges
import ThreeAddress.Proofs.Lowering.Scoping

set_option autoImplicit false

namespace ThreeAddress

theorem Statement.reads_arity (statement : Statement) (table : SymbolTable) (id : SymbolId)
    (reads : id ∈ statement.reads table) : 1 ≤ statement.opcode.arity := by
  by_contra low
  have none : statement.opcode.arity = 0 := by lia
  simp [Statement.reads, readsFirst, readsSecond, none] at reads

theorem Statement.defines_result (statement : Statement) (id : SymbolId) (fits : statement.conforms = true)
    (defines : statement.Defines id) : statement.opcode.hasResult = true := by
  obtain ⟨ref, into, _⟩ := (statement.defines_iff id).mp defines
  unfold conforms at fits
  unfold Opcode.hasResult
  cases signature : statement.opcode.signature.result with
  | unused => simp [signature, into, Slot.admits] at fits
  | required => rfl
  | optional => rfl

theorem Statement.writes_iff (statement : Statement) (table : SymbolTable) (id : SymbolId)
    (fits : statement.conforms = true) (tracked : table.isTracked id = true) :
    statement.writes table = some id ↔ statement.Defines id := by
  constructor
  · intro written
    unfold writes at written
    split at written
    next => exact (Option.filter_eq_some_iff.mp written).1
    next => cases written
  · intro defines
    have target : tracked? table statement.result = some id := Option.filter_eq_some_iff.mpr ⟨defines, tracked⟩
    simp [writes, writesResult, target, statement.defines_result id fits defines]

theorem Opcode.plain_of_result (opcode : Opcode) (into : opcode.hasResult = true)
    (stays : opcode.isConditionalJump = false) : opcode.isPlain = true := by
  cases opcode <;> simp_all [hasResult, signature, isConditionalJump, isPlain]

theorem Opcode.plain_passes (opcode : Opcode) (plain : opcode.isPlain = true) :
    opcode ≠ .func ∧ opcode ≠ .label ∧ opcode ≠ .ret ∧ opcode ≠ .goto ∧ opcode.isConditionalJump = false := by
  cases opcode <;> simp_all [isPlain, isConditionalJump]

theorem Statement.reads_readings (statement : Statement) (table : SymbolTable) (id : SymbolId)
    (reads : id ∈ statement.reads table) : 0 < statement.readings id := by
  obtain ⟨ref, operand, rfl⟩ := statement.reads_operand table id reads
  exact List.countP_pos_iff.mpr ⟨.symbol ref, operand, by simp [Operand.symbolId?]⟩

namespace Lower

theorem balanced_functions (body : SymbolId → Node) (ids : List SymbolId) (known : Nat) (start : List Statement)
    (state whole : Lowering) (carried : ∀ id ∈ ids, ∀ symbol ∈ (body id).symbols, symbol ≤ known)
    (ran : functions body ids state = .ok () whole)
    (balanced : Balanced known (fun _ => True) start (state, 0)) :
    Balanced known (fun _ => True) start (whole, 0) := by
  induction ids generalizing state with
  | nil =>
      obtain ⟨_, rfl⟩ := (pure_ok () () state whole).mp ran
      exact balanced
  | cons id rest ih =>
      obtain ⟨_, middle, first, others⟩ := (bind_ok _ _ state whole ()).mp ran
      obtain ⟨symbol, finished, looked, lowered, rfl⟩ := function_stages id (body id) state middle first
      obtain ⟨found, kind⟩ := function_symbol_ok id state symbol looked
      have uncounted : ∀ ref ∈ (body id).references, later known ref = false := by
        intro ref member
        have inside : ref.id ∈ (body id).symbols := (body id).references_symbols ▸ List.mem_map_of_mem member
        simpa [later] using carried id List.mem_cons_self ref.id inside
      have steps := (statement_leads (body id) uncounted (begun id symbol state)).ok () finished lowered
      have ended := balanced_steps start _ _ (steps_mono (fun _ _ => trivial) _ _ steps)
        (balanced_begun known _ start id symbol state found kind balanced)
      exact ih _ (fun other listed => carried other (List.mem_cons_of_mem id listed)) others ended

section Linear

variable (code : List Statement) (id : SymbolId) (linear : Linear code id)

include linear

theorem linear_definition : ∃ start, ∀ line : Line,
    (∃ statement, code[line]? = some statement ∧ Statement.Defines statement id) ↔ line = start := by
  have once := linear.defined
  have positive : 0 < definitions code id := by lia
  obtain ⟨definition, member, defines⟩ := List.countP_pos_iff.mp positive
  obtain ⟨start, found⟩ := List.mem_iff_getElem?.mp member
  refine ⟨start, ?_⟩
  intro line
  constructor
  · rintro ⟨statement, here, also⟩
    exact lines_unique _ code once.le line start statement definition here found (by simpa using also) defines
  · rintro rfl
    exact ⟨definition, found, by simpa using defines⟩

theorem linear_reads (table : SymbolTable) (last : Line) (reader : Statement) (found : code[last]? = some reader)
    (reads : id ∈ reader.reads table) (line : Line) :
    (∃ statement, code[line]? = some statement ∧ id ∈ Statement.reads statement table) ↔ line = last := by
  constructor
  · rintro ⟨statement, here, also⟩
    exact lines_unique _ code ((reading_lines code id).trans linear.read) line last statement reader here found
      (by simpa using statement.reads_readings table id also) (by simpa using reader.reads_readings table id reads)
  · rintro rfl
    exact ⟨reader, found, reads⟩

end Linear

section Generated

variable {bodies : Bodies} {table : SymbolTable} {options : Options} {result : Intermediate} {whole : Lowering}
  (unit : Generated bodies table options result whole)

include unit

theorem generated_line (line : Line) (statement : Statement) (found : whole.program.get? line = some statement) :
    statement.conforms = true ∧ (statement.opcode = .func →
      ∃ id symbol, statement = entry id symbol ∧ whole.table.get? id = some symbol ∧ symbol.kind = .function) := by
  obtain ⟨id, _, symbol, before, finished, extent, above, below⟩ :=
    unit.covers line (whole.program.get_lt_size line statement found)
  rcases extent_cases extent line above statement found with rfl | later
  · exact ⟨rfl, fun _ => ⟨id, symbol, rfl, extent.named, extent.callable⟩⟩
  · obtain ⟨inner, _, fits⟩ := extent_inside extent line later below statement found
    exact ⟨fits, fun opcode => absurd opcode inner⟩

theorem generated_writes (id : SymbolId) (tracked : whole.table.isTracked id = true) (line : Line) :
    (∃ statement, whole.program.get? line = some statement ∧ statement.writes whole.table = some id) ↔
      ∃ statement, whole.program.get? line = some statement ∧ statement.Defines id := by
  apply exists_congr
  intro statement
  apply and_congr_right
  intro found
  exact statement.writes_iff whole.table id (generated_line unit line statement found).1 tracked

variable (id : SymbolId) (symbol : Symbol) (known : whole.table.get? id = some symbol)
  (kind : symbol.kind = .temporary)

include known kind

theorem definition_plain (line : Line) (statement : Statement) (found : whole.program.get? line = some statement)
    (defines : statement.Defines id) : statement.opcode.isPlain = true := by
  have into := statement.defines_result id (generated_line unit line statement found).1 defines
  cases jump : statement.opcode.isConditionalJump with
  | false => exact statement.opcode.plain_of_result into jump
  | true =>
      have goes : statement.jumpTarget? = some id := by
        have other : statement.opcode ≠ .goto := fun same => by simp [same, Opcode.isConditionalJump] at jump
        rw [Statement.jumpTarget?, if_neg other, if_pos jump]
        exact defines
      obtain ⟨_, _, _, _, _, label, named, labelled, _⟩ := generated_jump unit line statement id found goes
      grind

theorem reader_unmarked (line : Line) (statement : Statement) (found : whole.program.get? line = some statement)
    (reads : id ∈ statement.reads whole.table) : statement.opcode ≠ .func ∧ statement.opcode ≠ .label := by
  refine ⟨?_, ?_⟩
  · intro opcode
    obtain ⟨function, named, rfl, there, callable⟩ := (generated_line unit line statement found).2 opcode
    obtain ⟨ref, operand, rfl⟩ := (entry function named).reads_operand whole.table id reads
    obtain rfl : ref = ⟨function, named.ty⟩ := by simpa [Statement.operands, entry] using operand
    grind
  · intro opcode
    have arity := statement.reads_arity whole.table id reads
    simp [opcode, Opcode.arity] at arity

structure Segment (program : Program) (first last : Line) : Prop where
  order : first < last
  plain : ∀ line statement, first ≤ line → line < last → program.get? line = some statement →
    statement.opcode.isPlain = true
  unmarked : ∀ statement, program.get? last = some statement →
    statement.opcode ≠ .func ∧ statement.opcode ≠ .label
  straight : program.Straight first last

theorem temporary_segment (linear : Linear whole.program.statements id) (first last : Line)
    (definition reader : Statement) (found : whole.program.get? first = some definition)
    (foundReader : whole.program.get? last = some reader) (defines : definition.Defines id)
    (reads : id ∈ reader.reads whole.table) : Segment whole.program first last := by
  obtain ⟨order, between⟩ := linear.order first last definition reader found foundReader defines
    (reader.reads_readings whole.table id reads)
  have plain : ∀ line statement, first ≤ line → line < last → whole.program.get? line = some statement →
      statement.opcode.isPlain = true := by
    intro line statement above below here
    by_cases same : line = first
    · rw [same, found] at here
      obtain rfl := Option.some.inj here
      exact definition_plain unit id symbol known kind first definition found defines
    · exact between line statement (by lia) below here
  have unmarked : ∀ statement, whole.program.get? last = some statement →
      statement.opcode ≠ .func ∧ statement.opcode ≠ .label := by
    intro statement here
    obtain rfl : reader = statement := Option.some.inj (foundReader.symm.trans here)
    exact reader_unmarked unit id symbol known kind last reader foundReader reads
  refine ⟨order, plain, unmarked, ?_⟩
  apply whole.program.straight_of_plain first last (whole.program.get_lt_size last reader foundReader)
  · intro line statement above below here
    obtain ⟨_, _, runs, stays, _⟩ := statement.opcode.plain_passes (plain line statement above below here)
    exact ⟨runs, stays⟩
  · intro line statement above upTo here
    by_cases same : line = last
    · exact unmarked statement (same ▸ here)
    · obtain ⟨entered, marked, _⟩ := statement.opcode.plain_passes (plain line statement (by lia) (by lia) here)
      exact ⟨entered, marked⟩

omit known kind in
theorem straight_enclosed (first last line : Line) (straight : whole.program.Straight first last)
    (above : first ≤ line) (upTo : line ≤ last) (function : SymbolId)
    (inside : whole.program.EnclosedBy first function) : whole.program.EnclosedBy line function := by
  induction line, above using Nat.le_induction with
  | base => exact inside
  | succ line above ih =>
      exact generated_step unit line (line + 1) function ((straight line (line + 1) (by lia) upTo).mpr rfl)
        (ih (by lia))

theorem temporary_owner (unmentioned : ∀ function ∈ table.functions, id ∉ (bodies.body function).symbols)
    (line : Line) (statement : Statement) (found : whole.program.get? line = some statement)
    (defines : statement.Defines id) :
    ∃ function, symbol.owner = some function ∧ whole.program.EnclosedBy line function := by
  obtain ⟨function, listed, inside, origin⟩ := generated_mentions unit line statement found
  obtain ⟨ref, into, rfl⟩ := (statement.defines_iff id).mp defines
  rcases origin ref (Or.inr into) with tree | ⟨other, there, _, owner | ⟨_, callable⟩⟩
  · have carried : ref.id ∈ (bodies.body function).symbols :=
      (bodies.body function).references_symbols ▸ List.mem_map_of_mem tree
    exact absurd carried (unmentioned function listed)
  · obtain rfl : symbol = other := Option.some.inj (known.symm.trans there)
    exact ⟨function, owner, inside⟩
  · grind

end Generated

/-- A temporary, the line that writes it, and the line that reads it if there is one: it is live
between the two. No function or label stands there, control does not jump away, and it is all in one
function. -/
structure Interval (result : Intermediate) (after : SymbolTable) (id : SymbolId) (symbol : Symbol) (start : Line)
    (stop : Option Line) : Prop where
  writes : ∀ line, (∃ statement, result.program.get? line = some statement ∧ statement.writes after = some id) ↔
    line = start
  reads : ∀ line, (∃ statement, result.program.get? line = some statement ∧ id ∈ statement.reads after) ↔
    stop = some line
  liveIn : ∀ line, result.graph.isReachable line = true →
    (result.liveness.LiveIn line id ↔ ∃ last, stop = some last ∧ start < line ∧ line ≤ last)
  liveOut : ∀ line, result.graph.isReachable line = true →
    (result.liveness.LiveOut line id ↔ ∃ last, stop = some last ∧ start ≤ line ∧ line < last)
  marks : ∀ line statement, result.program.get? line = some statement →
    result.liveness.LiveIn line id ∨ result.liveness.LiveOut line id →
    statement.opcode ≠ .func ∧ statement.opcode ≠ .label
  jumps : ∀ line statement, result.program.get? line = some statement → result.liveness.LiveOut line id →
    statement.opcode ≠ .goto ∧ statement.opcode.isConditionalJump = false
  function : ∀ line, result.liveness.LiveIn line id ∨ result.liveness.LiveOut line id →
    ∃ function, symbol.owner = some function ∧ result.graph.landmarks.functionOf line = some function

section Intervals

variable {bodies : Bodies} {table : SymbolTable} {options : Options} {result : Intermediate} {whole : Lowering}
  (unit : Generated bodies table options result whole) (id : SymbolId) (symbol : Symbol) (start : Line)
  (writes : ∀ line, (∃ statement, whole.program.get? line = some statement ∧
    statement.writes whole.table = some id) ↔ line = start)

include unit writes

theorem interval_unread
    (unread : ∀ line statement, whole.program.get? line = some statement → id ∉ statement.reads whole.table) :
    Interval result whole.table id symbol start none := by
  obtain ⟨_, complete⟩ := generated_complete unit
  have never : ∀ line, ¬ (result.liveness.LiveIn line id ∨ result.liveness.LiveOut line id) := by
    intro line live
    rw [unit.liveness] at live
    obtain ⟨before, behind⟩ := Liveness.unread_dead complete id unread line
    exact live.elim before behind
  refine ⟨by rw [unit.program]; exact writes, ?_, ?_, ?_, ?_, ?_, ?_⟩
  · intro line
    rw [unit.program]
    refine iff_of_false ?_ nofun
    rintro ⟨statement, found, read⟩
    exact unread line statement found read
  · exact fun line _ => iff_of_false (fun live => never line (Or.inl live)) (by simp)
  · exact fun line _ => iff_of_false (fun live => never line (Or.inr live)) (by simp)
  · exact fun line _ _ live => absurd live (never line)
  · exact fun line _ _ live => absurd (Or.inr live) (never line)
  · exact fun line live => absurd live (never line)

theorem interval_read (last : Line) (segment : Segment whole.program start last)
    (reads : ∀ line, (∃ statement, whole.program.get? line = some statement ∧ id ∈ statement.reads whole.table) ↔
      line = last)
    (owner : ∃ function, symbol.owner = some function ∧ whole.program.EnclosedBy start function) :
    Interval result whole.table id symbol start (some last) := by
  obtain ⟨_, complete⟩ := generated_complete unit
  have encloses := FlowGraph.function_of_line whole.program whole.table options.entryPoint result.graph unit.built
  have before := Liveness.live_in_range complete segment.straight writes segment.order reads
  have behind := Liveness.live_out_range complete segment.straight writes segment.order reads
  rw [← unit.liveness] at before behind
  have reachable : ∀ line, result.liveness.LiveIn line id ∨ result.liveness.LiveOut line id →
      result.graph.isReachable line = true := by
    intro line live
    rw [unit.liveness] at live
    exact Liveness.live_reachable complete line id live
  have within : ∀ line, result.liveness.LiveIn line id ∨ result.liveness.LiveOut line id →
      start ≤ line ∧ line ≤ last := by
    intro line live
    have known := reachable line live
    rw [before line known, behind line known] at live
    lia
  refine ⟨by rw [unit.program]; exact writes, ?_, ?_, ?_, ?_, ?_, ?_⟩
  · intro line
    rw [unit.program, reads line, Option.some.injEq, eq_comm]
  · intro line known
    rw [before line known]
    simp
  · intro line known
    rw [behind line known]
    simp
  · intro line statement found live
    rw [unit.program] at found
    obtain ⟨above, upTo⟩ := within line live
    by_cases same : line = last
    · exact segment.unmarked statement (same ▸ found)
    · obtain ⟨entered, marked, _⟩ :=
        statement.opcode.plain_passes (segment.plain line statement above (by lia) found)
      exact ⟨entered, marked⟩
  · intro line statement found live
    rw [unit.program] at found
    obtain ⟨above, below⟩ := (behind line (reachable line (Or.inr live))).mp live
    exact (statement.opcode.plain_passes (segment.plain line statement above below found)).2.2.2
  · intro line live
    obtain ⟨function, owned, inside⟩ := owner
    obtain ⟨above, upTo⟩ := within line live
    refine ⟨function, owned, (encloses line function).mpr ?_⟩
    exact straight_enclosed unit start last line segment.straight above upTo function inside

end Intervals

theorem generated_linear (bodies : Bodies) (table : SymbolTable) (whole : Lowering)
    (listed : ∀ function ∈ table.functions, ∀ symbol ∈ (bodies.body function).symbols,
      (table.get? symbol).isSome = true)
    (lowered : functions bodies.body table.functions (.start table .empty) = .ok () whole) (id : SymbolId)
    (allocates : Allocates (.start table .empty) whole id) : Linear whole.program.statements id := by
  have carried : ∀ function ∈ table.functions, ∀ symbol ∈ (bodies.body function).symbols, symbol ≤ table.size := by
    intro function member symbol inside
    obtain ⟨entry, found⟩ := Option.isSome_iff_exists.mp (listed function member symbol inside)
    exact table.get_le_size symbol entry found
  obtain ⟨code, program, ledger⟩ := balanced_functions bodies.body table.functions table.size [] _ whole carried
    lowered ⟨[], rfl, ledger_start table _⟩
  rw [program, List.nil_append]
  exact ledger_linear _ _ code _ _ ledger id (allocates_temporary _ whole id allocates)

theorem generate_intervals (bodies : Bodies) (table after : SymbolTable) (options : Options) (result : Intermediate)
    (listed : ∀ function ∈ table.functions, ∀ symbol ∈ (bodies.body function).symbols,
      (table.get? symbol).isSome = true)
    (generated : generate bodies table options = (.ok result, after)) (id : SymbolId) (symbol : Symbol)
    (fresh : table.get? id = none) (known : after.get? id = some symbol) (kind : symbol.kind = .temporary)
    (scalar : symbol.ty.isArray = false) : ∃ start stop, Interval result after id symbol start stop := by
  obtain ⟨whole, lowered, rfl, unit⟩ := generate_whole bodies table after options result generated
  have linear := generated_linear bodies table whole listed lowered id ⟨fresh, symbol, known, kind⟩
  have tracked : whole.table.isTracked id = true := by
    simp [SymbolTable.isTracked, known, Symbol.isTracked, kind, SymbolKind.isVariable, scalar]
  obtain ⟨start, starts⟩ := linear_definition whole.program.statements id linear
  have writes : ∀ line, (∃ statement, whole.program.get? line = some statement ∧
      statement.writes whole.table = some id) ↔ line = start := fun line =>
    (generated_writes unit id tracked line).trans (starts line)
  by_cases read : ∃ line statement, whole.program.get? line = some statement ∧ id ∈ statement.reads whole.table
  · obtain ⟨last, reader, foundReader, reads⟩ := read
    obtain ⟨definition, found, defines⟩ := (starts start).mpr rfl
    have unmentioned : ∀ function ∈ table.functions, id ∉ (bodies.body function).symbols := by
      intro function member inside
      have present := listed function member id inside
      rw [fresh] at present
      cases present
    refine ⟨start, some last, interval_read unit id symbol start writes last ?_ ?_ ?_⟩
    · exact temporary_segment unit id symbol known kind linear start last definition reader found foundReader defines
        reads
    · exact linear_reads whole.program.statements id linear whole.table last reader foundReader reads
    · exact temporary_owner unit id symbol known kind unmentioned start definition found defines
  · refine ⟨start, none, interval_unread unit id symbol start writes ?_⟩
    exact fun line statement here reads => read ⟨line, statement, here, reads⟩

theorem nested_interval :
    (∀ function ∈ nestedTable.functions, ∀ symbol ∈ (nestedBodies.body function).symbols,
      (nestedTable.get? symbol).isSome = true) ∧
    ∃ result after symbol, generate nestedBodies nestedTable {} = (.ok result, after) ∧
      nestedTable.get? 5 = none ∧ after.get? 5 = some symbol ∧ symbol.kind = .temporary ∧
      symbol.ty.isArray = false ∧ Interval result after 5 symbol 4 (some 5) := by
  have listed : ∀ function ∈ nestedTable.functions, ∀ symbol ∈ (nestedBodies.body function).symbols,
      (nestedTable.get? symbol).isSome = true := by decide +kernel
  have known : (generate nestedBodies nestedTable {}).2.get? 5 = some ⟨"&0", .int, .temporary, some 3⟩ := by
    decide +kernel
  obtain ⟨result, after, generated, lines⟩ := generate_yields nestedBodies nestedTable {}
    (fun result =>
      ((result.program.get? 4).bind fun statement => statement.writes (generate nestedBodies nestedTable {}).2,
        (result.program.get? 5).map fun statement => statement.reads (generate nestedBodies nestedTable {}).2))
    (some 5, some [5]) (by decide +kernel)
  rw [generated] at known lines
  obtain ⟨start, stop, interval⟩ := generate_intervals nestedBodies nestedTable after {} result listed generated 5 _
    rfl known rfl rfl
  obtain ⟨written, read⟩ := Prod.mk.inj lines
  obtain ⟨definition, found, writes⟩ := Option.bind_eq_some_iff.mp written
  obtain ⟨use, foundUse, reads⟩ := Option.map_eq_some_iff.mp read
  obtain rfl := (interval.writes 4).mp ⟨definition, found, writes⟩
  have last := (interval.reads 5).mp ⟨use, foundUse, by simp [reads]⟩
  exact ⟨listed, result, after, _, generated, rfl, known, rfl, rfl, last ▸ interval⟩

end Lower

end ThreeAddress
