import ThreeAddress.CompilationUnit
import ThreeAddress.Proofs.Flow.Enclosure
import ThreeAddress.Proofs.Lowering.Discards
import ThreeAddress.Proofs.Lowering.Layout

set_option autoImplicit false

namespace ThreeAddress

namespace Lower

section Pieces

variable {program : Program} (before after : Lowering) (code : List Statement)
  (emitted : before.Extends after code) (placed : after.program.statements <+: program.statements)

include emitted placed

theorem piece_member (line : Line) (above : before.program.size ≤ line) (below : line < after.program.size)
    (statement : Statement) (found : program.get? line = some statement) : statement ∈ code := by
  have lines := Lowering.extends_lines before after code emitted
  obtain ⟨offset, rfl⟩ := Nat.exists_eq_add_of_le above
  have stands := Machine.stands_of_extends before after code emitted placed
  have bound : offset < code.length := by lia
  have same := stands offset code[offset] (List.getElem?_eq_getElem bound)
  obtain rfl : statement = code[offset] := Option.some.inj (found.symm.trans same)
  exact List.getElem_mem bound

theorem piece_line (statement : Statement) (member : statement ∈ code) :
    ∃ line, before.program.size ≤ line ∧ line < after.program.size ∧ program.get? line = some statement := by
  have lines := Lowering.extends_lines before after code emitted
  obtain ⟨offset, found⟩ := List.mem_iff_getElem?.mp member
  have bound := (List.getElem?_eq_some_iff.mp found).1
  exact ⟨before.program.size + offset, by lia, by lia,
    Machine.stands_of_extends before after code emitted placed offset statement found⟩

end Pieces

theorem statement_inner (node : Node) (state after : Lowering) (ran : statement node state = .ok () after) :
    Inner state after := by
  -- No symbol counts, so nothing is asked of the symbols in the tree.
  have leads : Leads (fun _ => false) (Discards node state) (statement node) state 0 fun _ => 0 :=
    statement_leads node (fun _ _ => rfl) state
  exact steps_inner _ _ (leads.ok () after ran)

/-- The place of a function in the program that lowering ends with. -/
structure Extent (body : SymbolId → Node) (whole : Lowering) (id : SymbolId) (symbol : Symbol)
    (before finished : Lowering) : Prop where
  named : whole.table.get? id = some symbol
  callable : symbol.kind = .function
  lowered : statement (body id) (begun id symbol before) = .ok () finished
  placed : finished.program.statements <+: whole.program.statements
  symbols : finished.table.symbols <+: whole.table.symbols
  next : ∀ statement, whole.program.get? finished.program.size = some statement → statement.opcode = .func

theorem function_symbol_ok (id : SymbolId) (state : Lowering) (symbol : Symbol)
    (looked : functionSymbol id state = .ok symbol state) :
    state.table.get? id = some symbol ∧ symbol.kind = .function := by
  unfold functionSymbol at looked
  grind

theorem function_extent (body : SymbolId → Node) (id : SymbolId) (rest : List SymbolId) (state middle whole : Lowering)
    (ran : function id (body id) state = .ok () middle) (others : functions body rest middle = .ok () whole) :
    ∃ symbol finished, Extent body whole id symbol state finished ∧ finished.program = middle.program := by
  obtain ⟨symbol, finished, looked, lowered, rfl⟩ := function_stages id (body id) state middle ran
  obtain ⟨more, fragment, starts, _⟩ := functions_fragment body rest _ whole rfl others
  obtain ⟨_, emitted, _⟩ := statement_inner _ _ _ lowered
  have grown : state.table.symbols <+: whole.table.symbols := emitted.symbols.trans fragment.emitted.symbols
  obtain ⟨found, kind⟩ := function_symbol_ok id state symbol looked
  refine ⟨symbol, finished, ⟨?_, kind, lowered, ?_, fragment.emitted.symbols, ?_⟩, rfl⟩
  · exact state.table.get_of_grown whole.table grown id symbol found
  · rw [fragment.emitted.program]
    exact List.prefix_append _ more
  · intro statement found
    apply starts
    rw [Program.get?, fragment.emitted.program, Program.size, List.getElem?_append_right (Nat.le_refl _),
      Nat.sub_self] at found
    rw [List.head?_eq_getElem?, found]

theorem functions_extents (body : SymbolId → Node) (ids : List SymbolId) (state whole : Lowering)
    (ran : functions body ids state = .ok () whole) :
    (∀ id ∈ ids, ∃ symbol before finished, Extent body whole id symbol before finished) ∧
      ∀ line, state.program.size ≤ line → line < whole.program.size →
        ∃ id ∈ ids, ∃ symbol before finished, Extent body whole id symbol before finished ∧
          before.program.size ≤ line ∧ line < finished.program.size := by
  induction ids generalizing state with
  | nil =>
      obtain ⟨_, rfl⟩ := (pure_ok () () state whole).mp ran
      exact ⟨by simp, fun line above below => absurd above (Nat.not_le.mpr below)⟩
  | cons id rest ih =>
      obtain ⟨_, middle, first, others⟩ := (bind_ok _ _ state whole ()).mp ran
      obtain ⟨symbol, finished, extent, same⟩ := function_extent body id rest state middle whole first others
      obtain ⟨each, covers⟩ := ih middle others
      refine ⟨?_, ?_⟩
      · intro other listed
        rcases List.mem_cons.mp listed with rfl | later
        · exact ⟨symbol, state, finished, extent⟩
        · exact each other later
      · intro line above below
        by_cases early : line < finished.program.size
        · exact ⟨id, List.mem_cons_self, symbol, state, finished, extent, above, early⟩
        · obtain ⟨other, listed, found⟩ := covers line (by rw [← same]; lia) below
          exact ⟨other, List.mem_cons_of_mem id listed, found⟩

section Extent

variable {body : SymbolId → Node} {whole : Lowering} {id : SymbolId} {symbol : Symbol}
  {before finished : Lowering}

theorem begun_size (id : SymbolId) (symbol : Symbol) (before : Lowering) :
    (begun id symbol before).program.size = before.program.size + 1 := by
  simp [begun, Program.size]

theorem extent_entry (extent : Extent body whole id symbol before finished) :
    whole.program.get? before.program.size = some (entry id symbol) ∧
      before.program.size < finished.program.size := by
  obtain ⟨code, emitted, _⟩ := statement_inner _ _ _ extent.lowered
  have lines := Lowering.extends_lines _ finished code emitted
  rw [begun_size] at lines
  refine ⟨?_, by lia⟩
  obtain ⟨rest, placed⟩ := extent.placed
  rw [Program.get?, ← placed, emitted.program, begun, List.append_assoc, List.append_assoc, Program.size,
    List.getElem?_append_right (Nat.le_refl _), Nat.sub_self]
  rfl

theorem extent_cases (extent : Extent body whole id symbol before finished) (line : Line)
    (above : before.program.size ≤ line) (statement : Statement) (found : whole.program.get? line = some statement) :
    statement = entry id symbol ∨ before.program.size < line := by
  by_cases first : line = before.program.size
  · rw [first, (extent_entry extent).1] at found
    exact Or.inl (Option.some.inj found).symm
  · exact Or.inr (by lia)

theorem extent_inside (extent : Extent body whole id symbol before finished) (line : Line)
    (above : before.program.size < line) (below : line < finished.program.size) (statement : Statement)
    (found : whole.program.get? line = some statement) :
    statement.opcode ≠ .func ∧
      (∀ label, statement.Names .label label → ∃ ref, ref.id = label ∧ finished.Owns .label ref) ∧
      statement.conforms = true := by
  obtain ⟨code, emitted, inner⟩ := statement_inner _ _ _ extent.lowered
  have start := begun_size id symbol before
  exact inner statement (piece_member _ finished code emitted extent.placed line (by lia) below statement found)

theorem extent_bound (extent : Extent body whole id symbol before finished) :
    finished.program.size ≤ whole.program.size := extent.placed.length_le

theorem extent_encloses (extent : Extent body whole id symbol before finished) (line : Line)
    (above : before.program.size ≤ line) (below : line < finished.program.size) :
    whole.program.EnclosedBy line id := by
  have bound := extent_bound extent
  refine ⟨by lia, before.program.size, entry id symbol, above, (extent_entry extent).1, ⟨rfl, rfl⟩, ?_⟩
  intro between other after upTo found
  exact (extent_inside extent between after (by lia) other found).1

theorem extent_jump (extent : Extent body whole id symbol before finished) (line : Line)
    (above : before.program.size ≤ line) (below : line < finished.program.size) (statement : Statement)
    (found : whole.program.get? line = some statement) (label : SymbolId)
    (jumps : statement.jumpTarget? = some label) :
    ∃ target mark, before.program.size < target ∧ target < finished.program.size ∧
      whole.program.get? target = some mark ∧ mark.Names .label label ∧
      ∃ labelled, whole.table.get? label = some labelled ∧ labelled.kind = .label ∧ labelled.owner = some id := by
  obtain ⟨code, fragment⟩ := statement_fragment _ _ finished extent.lowered
  have start := begun_size id symbol before
  have inside : statement ∈ code := by
    rcases extent_cases extent line above statement found with rfl | later
    · cases jumps
    · exact piece_member _ finished code fragment.emitted extent.placed line (by lia) below statement found
  have placed := (fragment.confined.closed statement inside label jumps).resolve_right List.not_mem_nil
  obtain ⟨mark, marked, names⟩ := (mem_marks code label).mp placed
  obtain ⟨target, behind, upTo, foundMark⟩ := piece_line _ finished code fragment.emitted extent.placed mark marked
  have later : before.program.size < target := by lia
  obtain ⟨_, rfl, labelled, known, kind, _, owner⟩ :=
    (extent_inside extent target later upTo mark foundMark).2.1 label names
  refine ⟨target, mark, later, upTo, foundMark, names, labelled, ?_, kind, ?_⟩
  · exact finished.table.get_of_grown whole.table extent.symbols _ labelled known
  · exact owner.trans fragment.emitted.function

end Extent

structure Generated (bodies : Bodies) (table : SymbolTable) (options : Options) (result : Intermediate)
    (whole : Lowering) : Prop where
  program : result.program = whole.program
  liveness : result.liveness = Liveness.compute whole.program whole.table result.graph
  grown : table.symbols <+: whole.table.symbols
  built : FlowGraph.build whole.program whole.table options.entryPoint = .ok result.graph
  distinct : (marks whole.program.statements).Nodup
  each : ∀ id ∈ table.functions, ∃ symbol before finished, Extent bodies.body whole id symbol before finished
  covers : ∀ line, line < whole.program.size →
    ∃ id ∈ table.functions, ∃ symbol before finished, Extent bodies.body whole id symbol before finished ∧
      before.program.size ≤ line ∧ line < finished.program.size

theorem generate_yields {α : Type} (bodies : Bodies) (table : SymbolTable) (options : Options)
    (view : Intermediate → α) (seen : α) (yields : (generate bodies table options).1.toOption.map view = some seen) :
    ∃ result after, generate bodies table options = (.ok result, after) ∧ view result = seen := by
  cases generated : generate bodies table options with
  | mk outcome after =>
      rw [generated] at yields
      cases outcome with
      | error cause => cases yields
      | ok result => exact ⟨result, after, rfl, Option.some.inj yields⟩

theorem generate_whole (bodies : Bodies) (table after : SymbolTable) (options : Options) (result : Intermediate)
    (generated : generate bodies table options = (.ok result, after)) :
    ∃ whole, functions bodies.body table.functions (.start table .empty) = .ok () whole ∧ after = whole.table ∧
      Generated bodies table options result whole := by
  unfold generate at generated
  cases lowered : functions bodies.body table.functions (.start table .empty) with
  | error cause state => simp [lowered] at generated
  | ok _ whole =>
      simp only [lowered, Prod.mk.injEq, analyse] at generated
      cases built : FlowGraph.build whole.program whole.table options.entryPoint with
      | error cause => simp [built] at generated
      | ok graph =>
          simp only [built, Except.ok.injEq] at generated
          obtain ⟨rfl, rfl⟩ := generated
          obtain ⟨code, fragment, _⟩ := functions_fragment bodies.body table.functions _ whole rfl lowered
          obtain ⟨each, covers⟩ := functions_extents bodies.body table.functions _ whole lowered
          refine ⟨whole, rfl, rfl, rfl, rfl, fragment.emitted.symbols, built, ?_, each,
            fun line below => covers line (Nat.zero_le _) below⟩
          rw [fragment.emitted.program]
          exact fragment.confined.distinct

end Lower

end ThreeAddress
