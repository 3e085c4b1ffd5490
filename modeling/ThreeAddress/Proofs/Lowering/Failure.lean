import ThreeAddress.CompilationUnit
import ThreeAddress.Proofs.Flow.Construction
import ThreeAddress.Proofs.Lowering.Fragments
import ThreeAddress.Proofs.Lowering.Lowerable

set_option autoImplicit false

namespace ThreeAddress

namespace Lower

theorem function_run (id : SymbolId) (root : Node) (state : Lowering) (symbol : Symbol)
    (found : state.table.get? id = some symbol) (kind : symbol.kind = .function) :
    function id root state =
      match statement root (begun id symbol state) with
      | .ok _ finished => .ok () { finished with function := none }
      | .error cause stopped => .error cause stopped := by
  have looked : functionSymbol id state = .ok symbol state := by
    simp only [functionSymbol, found, if_pos kind]
  have entered : discard (enterFunction id) state = .ok () { state with function := some id } := rfl
  have opened : discard (emit ⟨.void, .func, some (.symbol ⟨id, symbol.ty⟩), none, none⟩)
      { state with function := some id } = .ok () (begun id symbol state) := by
    rw [discard_ok]
    exact ⟨_, (emit_ok (entry id symbol) _ _ _).mpr ⟨rfl, rfl, rfl⟩⟩
  simp only [function, bind_run, looked, entered, opened]
  cases statement root (begun id symbol state) <;> rfl

theorem function_refused (id : SymbolId) (root : Node) (state : Lowering)
    (other : ∀ symbol, state.table.get? id = some symbol → symbol.kind ≠ .function) :
    function id root state = .error (.notAFunction id) state := by
  have looked : functionSymbol id state = .error (.notAFunction id) state := by
    unfold functionSymbol
    cases found : state.table.get? id with
    | none => rfl
    | some symbol => simp [other symbol found]
  rw [function, bind_run, looked]

theorem function_decides (id : SymbolId) (root : Node) (state : Lowering)
    (registered : state.table.Registered id) :
    (Lowerable root → ∃ after, function id root state = .ok () after) ∧
      (¬ Lowerable root → ∃ cause after, function id root state = .error cause after ∧ cause.InTree) := by
  obtain ⟨listed, symbol, found, kind⟩ := registered
  have inside : (begun id symbol state).Inside := ⟨id, rfl, listed⟩
  obtain ⟨succeeds, fails⟩ := decides_statement root (begun id symbol state) inside
  rw [function_run id root state symbol found kind]
  constructor
  · intro lowerable
    obtain ⟨_, finished, ran, _⟩ := succeeds lowerable
    exact ⟨_, by rw [ran]⟩
  · intro stuck
    obtain ⟨cause, stopped, ran, blamed⟩ := fails stuck
    exact ⟨cause, stopped, by rw [ran], blamed⟩

theorem functions_decide (body : SymbolId → Node) (ids : List SymbolId) (state : Lowering)
    (outside : state.function = none) (registered : ∀ id ∈ ids, state.table.Registered id) :
    ((∀ id ∈ ids, Lowerable (body id)) → ∃ after, functions body ids state = .ok () after) ∧
      ((∃ id ∈ ids, ¬ Lowerable (body id)) →
        ∃ cause after, functions body ids state = .error cause after ∧ cause.InTree) := by
  induction ids generalizing state with
  | nil => exact ⟨fun _ => ⟨state, rfl⟩, fun stuck => by simp at stuck⟩
  | cons id rest ih =>
      obtain ⟨succeeds, fails⟩ := function_decides id (body id) state (registered id List.mem_cons_self)
      rw [functions, bind_run]
      by_cases first : Lowerable (body id)
      · obtain ⟨middle, ran⟩ := succeeds first
        obtain ⟨_, _, fragment⟩ := function_fragment id (body id) state middle outside ran
        have others : ∀ other ∈ rest, middle.table.Registered other := fun other member =>
          SymbolTable.registered_grows state.table middle.table fragment.emitted.symbols
            fragment.emitted.functions other (registered other (List.mem_cons_of_mem id member))
        obtain ⟨succeedsRest, failsRest⟩ := ih middle (fragment.emitted.function.trans outside) others
        rw [ran]
        constructor
        · intro all
          exact succeedsRest fun other member => all other (List.mem_cons_of_mem id member)
        · intro stuck
          obtain ⟨other, member, broken⟩ := stuck
          rcases List.mem_cons.mp member with rfl | later
          · exact absurd first broken
          · exact failsRest ⟨other, later, broken⟩
      · obtain ⟨cause, stopped, ran, blamed⟩ := fails first
        rw [ran]
        exact ⟨fun all => absurd (all id List.mem_cons_self) first, fun _ => ⟨cause, stopped, rfl, blamed⟩⟩

theorem fragment_targets (state after : Lowering) (code : List Statement) (fragment : Fragment state after code)
    (empty : state.program = .empty) (line : Line) (statement : Statement) (label : SymbolId)
    (found : after.program.get? line = some statement) (jumps : statement.jumpTarget? = some label) :
    ∃ target, after.program.LastNaming .label label target := by
  have whole : after.program.statements = code := by
    rw [fragment.emitted.program, empty]
    rfl
  have member : statement ∈ code := whole ▸ List.mem_of_getElem? found
  have placed := (fragment.confined.closed statement member label jumps).resolve_right List.not_mem_nil
  obtain ⟨mark, marked, names⟩ := (mem_marks code label).mp placed
  exact Program.last_naming_exists after.program.statements .label label mark (whole ▸ marked) names

theorem generate_stuck (bodies : Bodies) (table : SymbolTable) (options : Options) (built : table.Built)
    (stuck : ∃ id ∈ table.functions, ¬ Lowerable (bodies.body id)) :
    ∃ cause, (generate bodies table options).1 = .error (.lowering cause) ∧ cause.InTree := by
  obtain ⟨cause, state, ran, blamed⟩ := (functions_decide bodies.body table.functions
    (Lowering.start table .empty) rfl (table.built_registered built)).2 stuck
  exact ⟨cause, by rw [generate, ran], blamed⟩

section Complete

variable (bodies : Bodies) (table : SymbolTable) (options : Options) (built : table.Built)
  (lowerable : ∀ id ∈ table.functions, Lowerable (bodies.body id))

include built lowerable

theorem generate_lowered : ∃ state : Lowering,
    (generate bodies table options).1 = analyse state.program state.table options ∧
    (∀ line statement label, state.program.get? line = some statement → statement.jumpTarget? = some label →
      ∃ target, state.program.LastNaming .label label target) ∧
    (∀ id ∈ table.functions, ∃ start, state.program.LastNaming .func id start) ∧
    ∀ name, state.table.findFunction? name = table.findFunction? name := by
  have registered := table.built_registered built
  obtain ⟨state, ran⟩ := (functions_decide bodies.body table.functions
    (Lowering.start table .empty) rfl registered).1 lowerable
  obtain ⟨code, fragment, _, entries⟩ := functions_fragment bodies.body table.functions _ state rfl ran
  refine ⟨state, by rw [generate, ran], fragment_targets _ state code fragment rfl, ?_, ?_⟩
  · intro id listed
    obtain ⟨symbol, member⟩ := entries id listed
    have placed : entry id symbol ∈ state.program.statements := by
      rw [fragment.emitted.program]
      exact List.mem_append_right _ member
    exact Program.last_naming_exists _ .func id (entry id symbol) placed ⟨rfl, rfl⟩
  · exact table.find_function_grows state.table fragment.emitted.symbols fragment.emitted.functions registered

theorem generate_unnamed (absent : table.findFunction? options.entryPoint = none) :
    (generate bodies table options).1 = .error (.flow (.noEntryPoint options.entryPoint)) := by
  obtain ⟨state, same, targets, _, finds⟩ := generate_lowered bodies table options built lowerable
  have failed := FlowGraph.build_unnamed state.program state.table options.entryPoint targets
    ((finds _).trans absent)
  rw [same, analyse, failed]

theorem generate_succeeds (id : SymbolId) (named : table.findFunction? options.entryPoint = some id) :
    ∃ result, (generate bodies table options).1 = .ok result := by
  obtain ⟨state, same, targets, entries, finds⟩ := generate_lowered bodies table options built lowerable
  obtain ⟨start, last⟩ := entries id (List.mem_of_find?_eq_some named)
  obtain ⟨graph, succeeds⟩ := FlowGraph.build_named state.program state.table options.entryPoint targets id start
    ((finds _).trans named) last
  exact ⟨_, by rw [same, analyse, succeeds]⟩

end Complete

structure Accounted (bodies : Bodies) (table : SymbolTable) (options : Options)
    (outcome : Except GenerateError Intermediate) : Prop where
  causes : ∀ cause, outcome = .error cause →
    (∃ kind, cause = .lowering (.valueExpected kind) ∨ cause = .lowering (.notAssignable kind)) ∨
      cause = .flow (.noEntryPoint options.entryPoint)
  lowering : (∃ cause, outcome = .error (.lowering cause)) ↔
    ∃ id ∈ table.functions, ¬ Lowerable (bodies.body id)
  flow : (∃ cause, outcome = .error (.flow cause)) ↔
    (∀ id ∈ table.functions, Lowerable (bodies.body id)) ∧
      ∀ id ∈ table.functions, ∀ symbol, table.get? id = some symbol → symbol.name ≠ options.entryPoint

theorem in_tree_cases (cause : LoweringError) (blamed : cause.InTree) :
    ∃ kind, cause = .valueExpected kind ∨ cause = .notAssignable kind := by
  cases cause with
  | valueExpected kind => exact ⟨kind, Or.inl rfl⟩
  | notAssignable kind => exact ⟨kind, Or.inr rfl⟩
  | noEnclosingFunction allocation => cases blamed
  | notAFunction id => cases blamed
  | malformed cause => cases blamed

theorem generate_accounted (bodies : Bodies) (table : SymbolTable) (options : Options) (built : table.Built) :
    Accounted bodies table options (generate bodies table options).1 := by
  by_cases stuck : ∃ id ∈ table.functions, ¬ Lowerable (bodies.body id)
  · obtain ⟨cause, failed, blamed⟩ := generate_stuck bodies table options built stuck
    obtain ⟨kind, found⟩ := in_tree_cases cause blamed
    rw [failed]
    refine ⟨?_, iff_of_true ⟨cause, rfl⟩ stuck, ?_⟩
    · intro other same
      exact Or.inl ⟨kind, by grind⟩
    · apply iff_of_false
      · rintro ⟨flow, same⟩
        cases same
      · rintro ⟨lowerable, _⟩
        obtain ⟨id, listed, broken⟩ := stuck
        exact broken (lowerable id listed)
  · have lowerable : ∀ id ∈ table.functions, Lowerable (bodies.body id) := by
      intro id listed
      by_contra broken
      exact stuck ⟨id, listed, broken⟩
    cases named : table.findFunction? options.entryPoint with
    | none =>
        rw [generate_unnamed bodies table options built lowerable named]
        refine ⟨?_, iff_of_false ?_ stuck, iff_of_true ⟨_, rfl⟩ ⟨lowerable, ?_⟩⟩
        · intro cause same
          exact Or.inr (Except.error.inj same).symm
        · rintro ⟨cause, same⟩
          cases same
        · exact (table.find_function_none options.entryPoint).mp named
    | some id =>
        obtain ⟨result, succeeds⟩ := generate_succeeds bodies table options built lowerable id named
        rw [succeeds]
        refine ⟨?_, iff_of_false ?_ stuck, iff_of_false ?_ ?_⟩
        · intro cause same
          cases same
        · rintro ⟨cause, same⟩
          cases same
        · rintro ⟨cause, same⟩
          cases same
        · rintro ⟨_, absent⟩
          rw [(table.find_function_none options.entryPoint).mpr absent] at named
          cases named

def misfitTable : SymbolTable := ((SymbolTable.empty.addGlobal "x" .int).2.addFunction "main" .void).2

def misfitBodies : Bodies :=
  let x : Node := .identifier 1 .int
  let misfit : Node := .binary .assignment .void (.number (.int 3)) x
  (Bodies.empty.insert 2 (.list .statementList [.binary .loop .void x misfit])).2

theorem misfit_accounted : misfitTable.Built ∧
    ∃ cause, (generate misfitBodies misfitTable {}).1 = .error (.lowering cause) := by
  have built : misfitTable.Built := .addFunction _ _ _ (.addGlobal _ _ _ .empty)
  refine ⟨built, (generate_accounted misfitBodies misfitTable {} built).lowering.mpr ⟨2, by decide, ?_⟩⟩
  have body : misfitBodies.body 2 = .list .statementList [.binary .loop .void (.identifier 1 .int)
      (.binary .assignment .void (.number (.int 3)) (.identifier 1 .int))] := by
    simp [misfitBodies, Bodies.insert, Bodies.body, Bodies.root?]
  simp [body, Node.list, Lowerable, Assignable, Node.number]

end Lower

end ThreeAddress
