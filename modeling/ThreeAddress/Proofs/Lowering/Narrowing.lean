import ThreeAddress.Proofs.Lowering.Extents
import ThreeAddress.Proofs.Lowering.Lowerable
import ThreeAddress.Proofs.Lowering.Negations
import ThreeAddress.Proofs.Lowering.Visits

set_option autoImplicit false

namespace ThreeAddress

namespace Node

/-- The negations in a statement fit their operands. An expression in its place gives no code,
unless it is a call. -/
def bodyFits : Node → Bool
  | .binary .conditional _ condition (.binary .branches _ consequent alternative) =>
    condition.negationsFit && (consequent.bodyFits && alternative.bodyFits)
  | .binary kind _ left right =>
    match kind with
    | .statementList => left.bodyFits && right.bodyFits
    | .assignment => right.negationsFit && left.negationsFit
    | .conditional | .loop => left.negationsFit && right.bodyFits
    | .call => left.symbol?.isNone || right.negationsFit
    | _ => true
  | .unary kind _ child => kind ≠ .ret || child.negationsFit
  | _ => true

theorem blank_fits (node : Node) (blank : node.isBlank = true) : node.negationsFit = true := by
  unfold isBlank at blank
  split at blank
  all_goals cases node <;> simp_all [negationsFit, kind]

end Node

namespace Lower

theorem yields_jump_unless (condition : Node) (label : SymbolRef) :
    Yields condition.negationsFit (jumpUnless condition label) fun _ => True := by
  unfold jumpUnless
  split
  next relation ty left right =>
    apply yields_then _ _ _ _ _
      (yields_operands _ _ _ _ _ _ (value_yields left).1 (value_yields right).1 none)
    intro triple _
    exact yields_line _
  next =>
    apply yields_then _ _ _ _ _ (value_yields condition).1
    intro value _
    exact yields_line _

theorem yields_destination (node : Node) : Yields node.negationsFit (destination node) fun _ => True := by
  by_cases named : ∃ ty id, node = .symbol .identifier ty id
  · obtain ⟨ty, id, rfl⟩ := named
    exact yields_pure _ _ trivial
  · by_cases written : ∃ ty base index, node = .binary .elementWrite ty base index
    · obtain ⟨ty, base, index, rfl⟩ := written
      rw [destination_element]
      cases base.reference? with
      | none => exact yields_throw _ _ _
      | some array => exact yields_map _ _ _ _ _ (value_yields index).1 fun _ _ => trivial
    · rw [destination_missing node (fun ty id same => named ⟨ty, id, same⟩)
        (fun ty base index same => written ⟨ty, base, index, same⟩)]
      exact yields_throw _ _ _

theorem yields_store (value : Operand) (place : Destination) : Yields true (store value place) fun _ => True := by
  match place with
  | .variable target => exact yields_after true _ _ _ _ (yields_widen value _) fun _ _ => yields_line _
  | .element array index => exact yields_after true _ _ _ _ (yields_widen value _) fun _ _ => yields_line _

theorem yields_assignment (target source : Node) :
    Yields (source.negationsFit && target.negationsFit) (assignment target source) fun _ => True := by
  apply yields_bind _ _ _ _ _ _ (value_yields source).1
  intro value _
  exact yields_then _ _ _ _ _ (yields_destination target) fun place _ => yields_store value place

theorem yields_returned (node : Node) : Yields node.negationsFit (returned node) fun _ => True := by
  apply yields_then _ _ _ _ _ (value_yields node).1
  intro operand _
  apply yields_after true _ _ _ _ (yields_ask returnType? _ fun _ => rfl)
  intro ty _
  cases ty with
  | none => exact yields_pure operand _ trivial
  | some ty => exact yields_weaken _ _ _ _ (yields_widen operand ty) fun _ _ => trivial

theorem yields_ret (node : Node) : Yields node.negationsFit (ret node) fun _ => True := by
  have computes : Yields node.negationsFit (if node.isBlank then pure none else some <$> returned node)
      fun _ => True := by
    by_cases blank : node.isBlank = true
    · rw [if_pos blank, node.blank_fits blank]
      exact yields_pure none _ trivial
    · rw [if_neg blank]
      exact yields_map _ _ _ _ _ (yields_returned node) fun _ _ => trivial
  rw [ret_eq]
  exact yields_then _ _ _ _ _ computes fun _ _ => yields_line _

theorem yields_mark (label : SymbolRef) : Yields true (emitLabel label) fun _ => True := yields_line (mark label)

theorem yields_goto (label : SymbolRef) : Yields true (emitGoto label) fun _ => True := yields_line (goto label)

theorem yields_conditional (condition : Node) (consequent : Lower Unit) (alternative : Option (Lower Unit))
    (good other : Bool) (first : Yields good consequent fun _ => True)
    (second : ∀ action ∈ alternative, Yields other action fun _ => True) (absent : alternative = none → other = true) :
    Yields (condition.negationsFit && (good && other)) (conditional condition consequent alternative)
      fun _ => True := by
  apply yields_after _ _ _ _ _ (yields_allocate .label .void)
  intro otherwise _
  apply yields_bind _ _ _ _ _ _ (yields_jump_unless condition otherwise)
  intro _ _
  apply yields_bind _ _ _ _ _ _ first
  intro _ _
  cases alternative with
  | none =>
      rw [absent rfl]
      exact yields_mark otherwise
  | some action =>
      apply yields_after _ _ _ _ _ (yields_allocate .label .void)
      intro done _
      apply yields_after _ _ _ _ _ (yields_goto done)
      intro _ _
      apply yields_after _ _ _ _ _ (yields_mark otherwise)
      intro _ _
      exact yields_then _ _ _ _ _ (second action rfl) fun _ _ => yields_mark done

theorem yields_loop (condition : Node) (body : Lower Unit) (good : Bool) (inner : Yields good body fun _ => True) :
    Yields (condition.negationsFit && good) (loop condition body) fun _ => True := by
  apply yields_after _ _ _ _ _ (yields_allocate .label .void)
  intro head _
  apply yields_after _ _ _ _ _ (yields_allocate .label .void)
  intro done _
  apply yields_after _ _ _ _ _ (yields_mark head)
  intro _ _
  apply yields_bind _ _ _ _ _ _ (yields_jump_unless condition done)
  intro _ _
  apply yields_then _ _ _ _ _ inner
  intro _ _
  exact yields_after true _ _ _ _ (yields_goto head) fun _ _ => yields_mark done

theorem body_fits_construct (node : Node) :
    match node.construct with
    | .plain => (∀ ty target source, node ≠ .binary .assignment ty target source) →
      (∀ ty callee list, node ≠ .binary .call ty callee list) → node.bodyFits = true
    | .ret value => node.bodyFits = value.negationsFit
    | .sequence first rest => node.bodyFits = (first.bodyFits && rest.bodyFits)
    | .conditional condition consequent alternative =>
      node.bodyFits = (condition.negationsFit && (consequent.bodyFits && alternative.all Node.bodyFits))
    | .loop condition body => node.bodyFits = (condition.negationsFit && body.bodyFits) := by
  have empty : Node.empty.negationsFit = true := rfl
  fun_cases Node.construct node
  case case6 kind _ _ _ _ _ _ _ _ => cases kind <;> simp_all [Node.bodyFits]
  all_goals simp_all [Node.bodyFits]

theorem yields_simple (node : Node) (shape : node.construct = .plain) :
    Yields node.bodyFits (simple node) fun _ => True := by
  have other := body_fits_construct node
  rw [shape] at other
  unfold simple
  split
  next ty target source => exact yields_assignment target source
  next ty callee list => exact yields_discard _ _ _ (yields_call _ callee _ (value_yields list).2)
  next unassigned uncalled =>
    rw [other unassigned uncalled]
    exact yields_pure () _ trivial

theorem yields_statement (node : Node) : Yields node.bodyFits (statement node) fun _ => True := by
  induction node using Node.construct_induction with
  | each node ih =>
      have same := body_fits_construct node
      rw [statement_construct]
      cases shape : node.construct with
      | plain => exact yields_simple node shape
      | ret value =>
          rw [shape] at same
          rw [same]
          exact yields_ret value
      | sequence first rest =>
          rw [shape] at same
          rw [same]
          exact yields_bind _ _ _ _ _ _ (ih first (by simp [shape, Construct.parts])) fun _ _ =>
            ih rest (by simp [shape, Construct.parts])
      | conditional condition consequent alternative =>
          rw [shape] at same
          rw [same]
          apply yields_conditional _ _ _ _ _ (ih consequent (by simp [shape, Construct.parts]))
          · intro action member
            obtain ⟨other, rfl, rfl⟩ := Option.map_eq_some_iff.mp member
            exact ih other (by simp [shape, Construct.parts])
          · intro absent
            rw [Option.map_eq_none_iff] at absent
            rw [absent, Option.all_none]
      | loop condition body =>
          rw [shape] at same
          rw [same]
          exact yields_loop _ _ _ (ih body (by simp [shape, Construct.parts]))

theorem yields_function (id : SymbolId) (root : Node) : Yields root.bodyFits (function id root) fun _ => True := by
  intro state _ after ran
  obtain ⟨symbol, finished, _, lowered, rfl⟩ := function_stages id root state after ran
  obtain ⟨fits, _⟩ := yields_statement root (begun id symbol state) () finished lowered
  have opened : (begun id symbol state).program.negationsFit = state.program.negationsFit := by
    simp [begun, entry, Program.negationsFit, Statement.negationFits]
  exact ⟨by rw [fits, opened], trivial⟩

theorem yields_functions (body : SymbolId → Node) (ids : List SymbolId) :
    Yields (ids.all fun id => (body id).bodyFits) (functions body ids) fun _ => True := by
  induction ids with
  | nil => exact yields_pure () _ trivial
  | cons id rest ih => exact yields_bind _ _ _ _ _ _ (yields_function id (body id)) fun _ _ => ih

theorem generate_negations_fit_iff (bodies : Bodies) (table after : SymbolTable) (options : Options)
    (result : Intermediate) (generated : generate bodies table options = (.ok result, after)) :
    (∀ line statement operator, result.program.get? line = some statement → statement.opcode = .unary operator →
      ∃ operand, statement.first = some operand ∧ operand.ty.bytes ≤ statement.width.bytes) ↔
    ∀ id ∈ table.functions, (bodies.body id).bodyFits = true := by
  obtain ⟨whole, ran, _, unit⟩ := generate_whole bodies table after options result generated
  obtain ⟨fits, _⟩ := yields_functions bodies.body table.functions _ () whole ran
  rw [← result.program.negations_fit_iff, unit.program, fits, ← List.all_eq_true]
  rfl

def signedTable (operand : ValueType) : SymbolTable :=
  ⟨[⟨"main", .int, .function, none⟩, ⟨"x", operand, .variable, some 1⟩], [⟨1, [], [2]⟩]⟩

def signedBodies (operand ty : ValueType) : Bodies :=
  (Bodies.empty.insert 1 (.unary .ret .void (.unary (.unary .minus) ty (.identifier 2 operand)))).2

theorem widened_sign_fits : ∃ result after,
    generate (signedBodies .int8 .int) (signedTable .int8) {} = (.ok result, after) ∧
    result.program.get? 2 = some ⟨.long, .unary .neg, some (.symbol ⟨3, .int⟩), none, some (.symbol ⟨4, .int⟩)⟩ ∧
    ∀ line statement operator, result.program.get? line = some statement → statement.opcode = .unary operator →
      ∃ operand, statement.first = some operand ∧ operand.ty.bytes ≤ statement.width.bytes := by
  obtain ⟨result, after, generated, negation⟩ := generate_yields (signedBodies .int8 .int) (signedTable .int8) {}
    (fun result => result.program.get? 2)
    (some ⟨.long, .unary .neg, some (.symbol ⟨3, .int⟩), none, some (.symbol ⟨4, .int⟩)⟩) (by decide +kernel)
  refine ⟨result, after, generated, negation, ?_⟩
  exact (generate_negations_fit_iff _ _ after {} result generated).mpr (by decide +kernel)

/-- Of a wider value, only the low byte has its sign changed, although the tree casts nothing. -/
theorem narrowed_sign_cut :
    (∀ id ∈ (signedTable .int).functions, ((signedBodies .int .int8).body id).scalars = true) ∧
    ∃ result after line statement operator operand,
      generate (signedBodies .int .int8) (signedTable .int) {} = (.ok result, after) ∧
      result.program.get? line = some statement ∧ statement.opcode = .unary operator ∧
      statement.first = some operand ∧ statement.width.bytes < operand.ty.bytes := by
  refine ⟨by decide +kernel, ?_⟩
  obtain ⟨result, after, generated, negation⟩ := generate_yields (signedBodies .int .int8) (signedTable .int) {}
    (fun result => result.program.get? 1)
    (some ⟨.byte, .unary .neg, some (.symbol ⟨2, .int⟩), none, some (.symbol ⟨3, .int8⟩)⟩) (by decide +kernel)
  exact ⟨result, after, 1, _, .neg, _, generated, negation, rfl, rfl, by decide⟩

end Lower

end ThreeAddress
