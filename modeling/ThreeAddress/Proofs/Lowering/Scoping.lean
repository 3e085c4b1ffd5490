import ThreeAddress.Proofs.DeadValues
import ThreeAddress.Proofs.Lowering.Containment
import ThreeAddress.Proofs.Lowering.Temporaries

set_option autoImplicit false

namespace ThreeAddress

/-- The reference is to a symbol of the table at its type, and the function may use it. -/
def SymbolTable.Visible (table : SymbolTable) (function : SymbolId) (ref : SymbolRef) : Prop :=
  ∃ symbol, table.get? ref.id = some symbol ∧ symbol.ty = ref.ty ∧
    (symbol.owner = none ∨ symbol.owner = some function)

instance (table : SymbolTable) (function : SymbolId) (ref : SymbolRef) :
    Decidable (table.Visible function ref) :=
  decidable_of_iff (∃ symbol ∈ table.get? ref.id, symbol.ty = ref.ty ∧
    (symbol.owner = none ∨ symbol.owner = some function)) Iff.rfl

def Statement.Mentions (statement : Statement) (ref : SymbolRef) : Prop :=
  .symbol ref ∈ statement.operands ∨ statement.result = some (.symbol ref)

theorem Statement.reads_operand (statement : Statement) (table : SymbolTable) (id : SymbolId)
    (reads : id ∈ statement.reads table) : ∃ ref, .symbol ref ∈ statement.operands ∧ ref.id = id := by
  obtain ⟨operand, member, found⟩ := statement.mem_reads table id reads
  have symbol := (Option.filter_eq_some_iff.mp found).1
  cases operand with
  | immediate literal => cases symbol
  | symbol ref => exact ⟨ref, member, Option.some.inj symbol⟩

namespace Lower

section Steps

variable {counts : SymbolRef → Bool} {spare : SymbolId → Prop}

/-- What waits are temporaries of the function, and what counts in the code belongs to it. -/
def Belongs (counts : SymbolRef → Bool) (before : Lowering) (stage : Stage) : Prop :=
  (∀ ref ∈ stage.2, stage.1.Owns .temporary ref) ∧
    ∃ code, before.Extends stage.1 code ∧ ∀ statement ∈ code, ∀ ref, statement.Mentions ref →
      counts ref = false ∨ ∃ kind, stage.1.Owns kind ref

theorem belongs_grows (before state after : Lowering) (waiting : Multiset SymbolRef)
    (extended : state.Extends after []) (belongs : Belongs counts before (state, waiting)) :
    Belongs counts before (after, waiting) := by
  obtain ⟨waits, code, emitted, owned⟩ := belongs
  refine ⟨fun ref member => owns_extends state after [] extended _ ref (waits ref member), code, ?_, ?_⟩
  · rw [← List.append_nil code]
    exact Lowering.extends_trans before state after code [] emitted extended
  · intro statement member ref mentions
    rcases owned statement member ref mentions with free | ⟨kind, owns⟩
    · exact Or.inl free
    · exact Or.inr ⟨kind, owns_extends state after [] extended kind ref owns⟩

theorem belongs_emit (before state after : Lowering) (statement : Statement) (line : Line)
    (waiting left : Multiset SymbolRef) (emitted : emit statement state = .ok line after)
    (belongs : Belongs counts before (state, waiting))
    (own : ∀ ref, statement.Mentions ref → counts ref = false ∨ ∃ kind, state.Owns kind ref)
    (stays : ∀ ref ∈ left, state.Owns .temporary ref) : Belongs counts before (after, left) := by
  obtain ⟨_, code, earlier, owned⟩ := belongs
  have extended := (emit_extends statement state after line emitted).1
  have kept := owns_extends state after [statement] extended
  refine ⟨fun ref member => kept _ ref (stays ref member), code ++ [statement],
    Lowering.extends_trans before state after code [statement] earlier extended, ?_⟩
  intro other member ref mentions
  have source : counts ref = false ∨ ∃ kind, state.Owns kind ref := by
    rcases List.mem_append.mp member with old | new
    · exact owned other old ref mentions
    · rw [List.mem_singleton.mp new] at mentions
      exact own ref mentions
  rcases source with free | ⟨kind, owns⟩
  · exact Or.inl free
  · exact Or.inr ⟨kind, kept kind ref owns⟩

theorem operand_belongs (before state : Lowering) (statement : Statement) (rest : Multiset SymbolRef)
    (belongs : Belongs counts before (state, statement.held counts + rest)) (ref : SymbolRef)
    (operand : .symbol ref ∈ statement.operands) : counts ref = false ∨ ∃ kind, state.Owns kind ref := by
  by_cases counted : counts ref = true
  · have waited : ref ∈ statement.held counts + rest :=
      Multiset.mem_add.mpr (Or.inl ((statement_held counts statement ref).mpr ⟨operand, counted⟩))
    exact Or.inr ⟨_, belongs.1 ref waited⟩
  · exact Or.inl (by simpa using counted)

theorem step_belongs (before : Lowering) (stage next : Stage) (step : Step counts spare stage next)
    (belongs : Belongs counts before stage) : Belongs counts before next := by
  cases step with
  | compute statement ty result line state allocated after rest plain into fresh emitted =>
      have extended := (allocate_extends .temporary ty state allocated result fresh).1
      have grown := belongs_grows before state allocated _ extended belongs
      have own := allocate_owns .temporary ty state allocated result fresh
      apply belongs_emit before allocated after statement line _ _ emitted grown
      · rintro ref (operand | written)
        · exact operand_belongs before allocated statement rest grown ref operand
        · obtain rfl : result = ref := Operand.symbol.inj (Option.some.inj (into.symm.trans written))
          exact Or.inr ⟨_, own⟩
      · intro ref member
        rcases Multiset.mem_add.mp member with new | waits
        · obtain rfl := Operand.symbol.inj ((held_symbol counts _ ref).mp new).1
          exact own
        · exact grown.1 ref (Multiset.mem_add.mpr (Or.inr waits))
  | consume statement line state after rest plain uncounted emitted =>
      apply belongs_emit before state after statement line _ _ emitted belongs
      · rintro ref (operand | written)
        · exact operand_belongs before state statement rest belongs ref operand
        · exact Or.inl (uncounted ref written)
      · exact fun ref waits => belongs.1 ref (Multiset.mem_add.mpr (Or.inr waits))
  | branch statement line state after ends owned emitted =>
      apply belongs_emit before state after statement line _ _ emitted belongs _ (by simp)
      rintro ref (operand | written)
      · exact operand_belongs before state statement 0 (by rw [add_zero]; exact belongs) ref operand
      · exact Or.inr ⟨_, owned ref written⟩
  | place statement label line state after shape owned emitted =>
      apply belongs_emit before state after statement line _ _ emitted belongs _ (by simp)
      intro ref mentions
      obtain rfl : ref = label := by
        rcases shape with rfl | rfl
        all_goals simpa [Statement.Mentions, Statement.operands, mark, goto] using mentions
      exact Or.inr ⟨_, owned⟩
  | label label state after waiting fresh =>
      exact belongs_grows before state after waiting (allocate_extends .label .void state after label fresh).1 belongs
  | drop state dropped rest spared =>
      exact ⟨fun ref waits => belongs.1 ref (Multiset.mem_add.mpr (Or.inr waits)), belongs.2⟩

theorem steps_belong (before : Lowering) (stage next : Stage) (steps : Steps counts spare stage next)
    (belongs : Belongs counts before stage) : Belongs counts before next := by
  induction steps with
  | refl => exact belongs
  | tail _ step ih => exact step_belongs before _ _ step ih

end Steps

theorem statement_mentions (node : Node) (state after : Lowering) (ran : statement node state = .ok () after) :
    ∃ code, state.Extends after code ∧ ∀ statement ∈ code, ∀ ref, statement.Mentions ref →
      ref ∈ node.references ∨ ∃ kind, after.Owns kind ref := by
  have leads : Leads (fun ref => decide (ref ∉ node.references)) (Discards node state) (statement node) state 0
      fun _ => 0 := statement_leads node (fun ref member => by simpa using member) state
  obtain ⟨_, code, extended, owned⟩ := steps_belong state _ _ (leads.ok () after ran)
    ⟨by simp, [], state.extends_refl, by simp⟩
  refine ⟨code, extended, ?_⟩
  intro statement member ref mentions
  exact (owned statement member ref mentions).imp_left fun free => by simpa using free

section Generated

variable {bodies : Bodies} {table : SymbolTable} {options : Options} {result : Intermediate} {whole : Lowering}

theorem generated_complete (unit : Generated bodies table options result whole) :
    ∃ start, FlowGraph.Complete whole.program start result.graph := by
  obtain ⟨_, start, _, _, complete⟩ :=
    FlowGraph.build_complete whole.program whole.table options.entryPoint result.graph unit.built
  exact ⟨start, complete⟩

theorem generated_mentions (unit : Generated bodies table options result whole) (line : Line)
    (statement : Statement) (found : whole.program.get? line = some statement) :
    ∃ id ∈ table.functions, whole.program.EnclosedBy line id ∧ ∀ ref, statement.Mentions ref →
      ref ∈ (bodies.body id).references ∨
      ∃ symbol, whole.table.get? ref.id = some symbol ∧ symbol.ty = ref.ty ∧
        (symbol.owner = some id ∨ ref.id = id ∧ symbol.kind = .function) := by
  obtain ⟨id, listed, symbol, before, finished, extent, above, below⟩ :=
    unit.covers line (whole.program.get_lt_size line statement found)
  refine ⟨id, listed, extent_encloses extent line above below, ?_⟩
  intro ref mentions
  rcases extent_cases extent line above statement found with rfl | later
  · obtain rfl : ref = ⟨id, symbol.ty⟩ := by
      simpa [Statement.Mentions, Statement.operands, entry] using mentions
    exact Or.inr ⟨symbol, extent.named, rfl, Or.inr ⟨rfl, extent.callable⟩⟩
  · obtain ⟨code, emitted, owned⟩ := statement_mentions _ _ _ extent.lowered
    have start := begun_size id symbol before
    have inside := piece_member _ finished code emitted extent.placed line (by lia) below statement found
    rcases owned statement inside ref mentions with tree | ⟨kind, other, known, _, ty, owner⟩
    · exact Or.inl tree
    · exact Or.inr ⟨other, finished.table.get_of_grown whole.table extent.symbols _ other known, ty,
        Or.inl (owner.trans emitted.function)⟩

theorem generated_path (unit : Generated bodies table options result whole) {start : Line}
    (complete : FlowGraph.Complete whole.program start result.graph) (line last : Line) (passed : List Line)
    (path : result.graph.LinePath line passed last) (reachable : result.graph.isReachable line = true)
    (function : SymbolId) (inside : whole.program.EnclosedBy line function) :
    whole.program.EnclosedBy last function := by
  induction path with
  | here line => exact inside
  | step line next last passed flow _ ih =>
      have step := (FlowGraph.line_flow_iff complete line next reachable).mp flow
      exact ih (FlowGraph.line_flow_reachable complete line next flow)
        (generated_step unit line next function step inside)

section Visible

variable (unit : Generated bodies table options result whole) (built : table.Built)
  (visible : ∀ function ∈ table.functions, ∀ ref ∈ (bodies.body function).references, table.Visible function ref)

include unit built visible

theorem generated_visible (line : Line) (statement : Statement)
    (found : whole.program.get? line = some statement) :
    ∃ function, whole.program.EnclosedBy line function ∧
      ∀ ref, statement.Mentions ref → whole.table.Visible function ref := by
  obtain ⟨id, listed, inside, origin⟩ := generated_mentions unit line statement found
  refine ⟨id, inside, ?_⟩
  intro ref mentions
  rcases origin ref mentions with tree | ⟨symbol, known, ty, owner | ⟨same, kind⟩⟩
  · obtain ⟨symbol, known, rest⟩ := visible id listed ref tree
    exact ⟨symbol, table.get_of_grown whole.table unit.grown ref.id symbol known, rest⟩
  · exact ⟨symbol, known, ty, Or.inr owner⟩
  · -- The symbol of the function itself stands in the table from the start.
    obtain ⟨_, original, stood, _⟩ := table.built_registered built id listed
    obtain rfl : original = symbol := Option.some.inj
      ((table.get_of_grown whole.table unit.grown id original stood).symm.trans (same ▸ known))
    exact ⟨original, known, ty, Or.inl (table.built_unowned built id original stood kind)⟩

theorem generated_live {start : Line} (complete : FlowGraph.Complete whole.program start result.graph) (line : Line)
    (reachable : result.graph.isReachable line = true) (function : SymbolId)
    (inside : whole.program.EnclosedBy line function) (id : SymbolId) (live : result.liveness.LiveIn line id) :
    ∃ symbol, whole.table.get? id = some symbol ∧ symbol.kind.isVariable = true ∧ symbol.ty.isArray = false ∧
      (symbol.owner = none ∨ symbol.owner = some function) := by
  -- What is live at a line is read further on, and the way there stays in the function.
  rw [unit.liveness, (Liveness.compute_exact whole.table complete).liveIn line reachable id] at live
  obtain ⟨passed, last, statement, path, found, reads, _⟩ := live
  obtain ⟨ref, operand, rfl⟩ := statement.reads_operand whole.table id reads
  obtain ⟨other, insideLast, refers⟩ := generated_visible unit built visible last statement found
  obtain rfl := whole.program.enclosed_unique last other function insideLast
    (generated_path unit complete line last passed path reachable function inside)
  obtain ⟨symbol, known, _, owner⟩ := refers ref (Or.inl operand)
  have tracked := statement.reads_tracked whole.table ref.id reads
  rw [SymbolTable.isTracked, known, Option.any_some, Symbol.isTracked, Bool.and_eq_true,
    Bool.not_eq_true'] at tracked
  exact ⟨symbol, known, tracked.1, tracked.2, owner⟩

end Visible

end Generated

structure Scoped (result : Intermediate) (after : SymbolTable) : Prop where
  mentions : ∀ line statement, result.program.get? line = some statement →
    ∃ function, result.graph.landmarks.functionOf line = some function ∧
      ∀ ref, statement.Mentions ref → after.Visible function ref
  live : ∀ line, result.graph.isReachable line = true →
    ∃ function, result.graph.landmarks.functionOf line = some function ∧
      ∀ id, result.liveness.LiveIn line id ∨ result.liveness.LiveOut line id →
        ∃ symbol, after.get? id = some symbol ∧ symbol.kind.isVariable = true ∧ symbol.ty.isArray = false ∧
          (symbol.owner = none ∨ symbol.owner = some function)

theorem generate_scoped (bodies : Bodies) (table after : SymbolTable) (options : Options) (result : Intermediate)
    (built : table.Built)
    (visible : ∀ function ∈ table.functions, ∀ ref ∈ (bodies.body function).references, table.Visible function ref)
    (generated : generate bodies table options = (.ok result, after)) : Scoped result after := by
  obtain ⟨whole, _, rfl, unit⟩ := generate_whole bodies table after options result generated
  obtain ⟨start, complete⟩ := generated_complete unit
  have encloses := FlowGraph.function_of_line whole.program whole.table options.entryPoint result.graph unit.built
  have exact := Liveness.compute_exact whole.table complete
  have live := generated_live unit built visible complete
  refine ⟨?_, ?_⟩
  · intro line statement found
    rw [unit.program] at found
    simp only [encloses]
    exact generated_visible unit built visible line statement found
  · intro line reachable
    simp only [encloses]
    obtain ⟨function, inside⟩ := generated_enclosed unit line (FlowGraph.reachable_lt complete line reachable)
    refine ⟨function, inside, ?_⟩
    rintro id (before | behind)
    · exact live line reachable function inside id before
    · rw [unit.liveness, exact.liveOut line reachable id] at behind
      obtain ⟨next, flow, held⟩ := behind
      have step := (FlowGraph.line_flow_iff complete line next reachable).mp flow
      exact live next (FlowGraph.line_flow_reachable complete line next flow) function
        (generated_step unit line next function step inside) id (unit.liveness ▸ held)

def nestedBodies : Bodies :=
  ((Bodies.empty.insert 1 (.unary .ret .int (.identifier 2 .int))).2.insert 3 nestedBody).2

theorem nested_scoped : nestedTable.Built ∧
    (∀ function ∈ nestedTable.functions, ∀ ref ∈ (nestedBodies.body function).references,
      nestedTable.Visible function ref) ∧
    ∃ result after, generate nestedBodies nestedTable {} = (.ok result, after) ∧ Scoped result after := by
  have built : nestedTable.Built :=
    .addVariable _ nestedTable 3 4 "x" .int (.addFunction _ "main" .void
      (.addParameter _ _ 1 2 "n" .int (.addFunction _ "f" .int .empty) rfl)) rfl
  have visible : ∀ function ∈ nestedTable.functions, ∀ ref ∈ (nestedBodies.body function).references,
      nestedTable.Visible function ref := by decide +kernel
  obtain ⟨result, after, generated, _⟩ :=
    generate_yields nestedBodies nestedTable {} (fun _ => ()) () (by decide +kernel)
  exact ⟨built, visible, result, after, generated,
    generate_scoped nestedBodies nestedTable after {} result built visible generated⟩

end Lower

end ThreeAddress
