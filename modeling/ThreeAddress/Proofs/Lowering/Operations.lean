import ThreeAddress.Proofs.Allocation
import ThreeAddress.Proofs.Lowering.Failure

set_option autoImplicit false

namespace ThreeAddress

namespace Lowering

inductive Grow (state after : Lowering) : Prop where
  | emit (statement : Statement) (line : Line) (emitted : Lower.emit statement state = .ok line after) :
      Grow state after
  | allocate (allocation : Allocation) (ty : ValueType) (ref : SymbolRef)
      (fresh : Lower.allocate allocation ty state = .ok ref after) : Grow state after

def Grows : Lowering → Lowering → Prop := Relation.ReflTransGen Grow

theorem grow_function (state after : Lowering) (grow : Grow state after) : after.function = state.function := by
  cases grow with
  | emit statement line emitted =>
      obtain ⟨_, _, rfl⟩ := (Lower.emit_ok statement state after line).mp emitted
      rfl
  | allocate allocation ty ref fresh =>
      obtain ⟨function, table, _, _, _, rfl⟩ := Lower.allocate_ok allocation ty state after ref fresh
      exact state.with_symbol_function table allocation

end Lowering

namespace Lower

open Lowering (Grow Grows)

variable {α : Type}

theorem emit_grows (statement : Statement) : Keeps Grows (emit statement) := by
  intro state
  cases ran : emit statement state with
  | ok line after =>
      rw [final_ok _ state after line ran]
      exact .single (.emit statement line ran)
  | error cause after =>
      have same : after = state := by
        unfold emit at ran
        grind
      rw [final, ran, same]
      exact .refl

theorem allocate_grows (allocation : Allocation) (ty : ValueType) : Keeps Grows (allocate allocation ty) := by
  intro state
  cases ran : allocate allocation ty state with
  | ok ref after =>
      rw [final_ok _ state after ref ran]
      exact .single (.allocate allocation ty ref ran)
  | error cause after =>
      rw [final, ran, allocate_error allocation ty state after cause ran]
      exact .refl

theorem grows_carried : Carried Grows where
  refl _ := .refl
  trans _ _ _ early late := early.trans late
  temporary ty := by
    rw [fresh_temporary_allocates]
    exact allocate_grows .temporary ty
  emit statement _ := emit_grows statement

theorem fresh_label_grows : Keeps Grows freshLabel := by
  rw [fresh_label_allocates]
  exact allocate_grows .label .void

theorem emitted_grows (statement : Statement) : Keeps Grows (discard (emit statement)) :=
  discard_keeps grows_carried _ (emit_grows statement)

theorem ret_grows (node : Node) : Keeps Grows (ret node) := by
  rw [ret_eq]
  apply bind_keeps grows_carried _ _ _ fun _ => emitted_grows _
  by_cases blank : node.isBlank = true
  · rw [if_pos blank]
    exact pure_keeps grows_carried none
  · rw [if_neg blank]
    exact map_keeps grows_carried some _ (returned_keeps grows_carried node)

theorem jump_unless_grows (condition : Node) (label : SymbolRef) : Keeps Grows (jumpUnless condition label) := by
  unfold jumpUnless
  split
  next relation _ left right =>
    exact bind_keeps grows_carried _ _ (operands_keeps grows_carried none _ _ (value_of_keeps grows_carried left)
      (value_of_keeps grows_carried right)) fun _ => emitted_grows _
  next => exact bind_keeps grows_carried _ _ (value_of_keeps grows_carried condition) fun _ => emitted_grows _

theorem conditional_grows (condition : Node) (consequent : Lower Unit) (alternative : Option (Lower Unit))
    (keeps : Keeps Grows consequent) (others : ∀ action ∈ alternative, Keeps Grows action) :
    Keeps Grows (conditional condition consequent alternative) := by
  apply bind_keeps grows_carried _ _ fresh_label_grows
  intro otherwise
  apply bind_keeps grows_carried _ _ (jump_unless_grows condition otherwise)
  intro _
  apply bind_keeps grows_carried _ _ keeps
  intro _
  cases alternative with
  | none => exact emitted_grows _
  | some action =>
      apply bind_keeps grows_carried _ _ fresh_label_grows
      intro done
      apply bind_keeps grows_carried _ _ (emitted_grows _)
      intro _
      apply bind_keeps grows_carried _ _ (emitted_grows _)
      intro _
      exact bind_keeps grows_carried _ _ (others action rfl) fun _ => emitted_grows _

theorem loop_grows (condition : Node) (body : Lower Unit) (keeps : Keeps Grows body) :
    Keeps Grows (loop condition body) := by
  apply bind_keeps grows_carried _ _ fresh_label_grows
  intro head
  apply bind_keeps grows_carried _ _ fresh_label_grows
  intro done
  apply bind_keeps grows_carried _ _ (emitted_grows _)
  intro _
  apply bind_keeps grows_carried _ _ (jump_unless_grows condition done)
  intro _
  apply bind_keeps grows_carried _ _ keeps
  intro _
  exact bind_keeps grows_carried _ _ (emitted_grows _) fun _ => emitted_grows _

theorem simple_grows (node : Node) : Keeps Grows (simple node) := by
  unfold simple
  split
  next target source => exact assignment_keeps grows_carried target source
  next => exact discard_keeps grows_carried _ (call_keeps grows_carried _)
  next => exact pure_keeps grows_carried ()

theorem statement_grows (node : Node) : Keeps Grows (statement node) := by
  induction node using Node.construct_induction with
  | each node ih =>
      rw [statement_construct]
      cases shape : node.construct with
      | plain => exact simple_grows node
      | ret value => exact ret_grows value
      | sequence first rest =>
          exact bind_keeps grows_carried _ _ (ih first (by simp [shape, Construct.parts])) fun _ =>
            ih rest (by simp [shape, Construct.parts])
      | conditional condition consequent alternative =>
          apply conditional_grows condition _ _ (ih consequent (by simp [shape, Construct.parts]))
          intro action member
          obtain ⟨node, present, rfl⟩ := Option.map_eq_some_iff.mp member
          exact ih node (by simp [shape, Construct.parts, present])
      | loop condition body => exact loop_grows condition _ (ih body (by simp [shape, Construct.parts]))

theorem binary_operator_grows (node : Node) : Keeps Grows (binaryOperator node) := by
  unfold binaryOperator
  split
  next => exact (value_arguments_keep grows_carried node).1
  next => exact pure_keeps grows_carried none

theorem unary_operator_grows (node : Node) : Keeps Grows (unaryOperator node) := by
  unfold unaryOperator
  split
  next => exact (value_arguments_keep grows_carried node).1
  next => exact pure_keeps grows_carried none

theorem element_read_grows (node : Node) : Keeps Grows (elementRead node) := by
  unfold elementRead
  split
  next ty base index => exact read_element_keeps grows_carried ty base _ (value_of_keeps grows_carried index)
  next => exact pure_keeps grows_carried none

end Lower

namespace Lowering

inductive Advance (state : Lowering) : Lowering → Prop where
  | grow (after : Lowering) (step : Grow state after) : Advance state after
  | turn (function : Option SymbolId) : Advance state { state with function := function }

def Advances : Lowering → Lowering → Prop := Relation.ReflTransGen Advance

theorem grows_advances (before after : Lowering) (grows : Grows before after) : Advances before after :=
  Relation.ReflTransGen.mono (fun _ next step => .grow next step) before after grows

theorem grows_function (before after : Lowering) (grows : Grows before after) :
    after.function = before.function := by
  induction grows with
  | refl => rfl
  | tail _ step ih => exact (grow_function _ _ step).trans ih

theorem advance_program (state after : Lowering) (step : Advance state after) :
    after.program = state.program ∨ ∃ statement, statement.conforms = true ∧
      after.program.statements = state.program.statements ++ [statement] := by
  cases step with
  | turn function => exact Or.inl rfl
  | grow after step =>
      cases step with
      | emit statement line emitted =>
          obtain ⟨fits, _, rfl⟩ := (Lower.emit_ok statement state after line).mp emitted
          exact Or.inr ⟨statement, fits, rfl⟩
      | allocate allocation ty ref fresh =>
          obtain ⟨function, table, _, _, _, rfl⟩ := Lower.allocate_ok allocation ty state after ref fresh
          exact Or.inl (state.with_symbol_program table allocation)

theorem advance_table (state after : Lowering) (step : Advance state after) :
    (after.table = state.table ∧ after.allocated = state.allocated) ∨
      ∃ allocation function ty, state.function = some function ∧
        state.table.addOwned function allocation.kind (allocation.name (state.allocated allocation)) ty =
          some (state.table.size + 1, after.table) ∧
        ∀ other, after.allocated other = state.allocated other + if other = allocation then 1 else 0 := by
  cases step with
  | turn function => exact Or.inl ⟨rfl, rfl⟩
  | grow after step =>
      cases step with
      | emit statement line emitted =>
          obtain ⟨_, _, rfl⟩ := (Lower.emit_ok statement state after line).mp emitted
          exact Or.inl ⟨rfl, rfl⟩
      | allocate allocation ty ref fresh =>
          obtain ⟨function, table, inside, added, _, rfl⟩ :=
            Lower.allocate_ok allocation ty state after ref fresh
          refine Or.inr ⟨allocation, function, ty, inside, ?_, ?_⟩
          · rw [with_symbol_table]
            exact added
          · intro other
            cases allocation <;> cases other <;> rfl

theorem advance_gains (state after : Lowering) (step : Advance state after) :
    state.table.Gains after.table := by
  rcases advance_table state after step with ⟨same, _⟩ | ⟨allocation, function, ty, _, added, _⟩
  · rw [same]
    exact .refl
  · exact .single ⟨allocation, function, _, _, ty, added⟩

theorem advances_gains (before after : Lowering) (advances : Advances before after) :
    before.table.Gains after.table := by
  induction advances with
  | refl => exact .refl
  | tail _ step ih => exact ih.trans (advance_gains _ _ step)

theorem advances_program (before after : Lowering) (advances : Advances before after) :
    ∃ code, after.program.statements = before.program.statements ++ code ∧
      ∀ statement ∈ code, statement.conforms = true := by
  induction advances with
  | refl => exact ⟨[], (List.append_nil _).symm, by simp⟩
  | @tail middle after _ step ih =>
      obtain ⟨code, program, fits⟩ := ih
      rcases advance_program middle after step with same | ⟨statement, fit, longer⟩
      · exact ⟨code, by rw [same, program], fits⟩
      · refine ⟨code ++ [statement], by rw [longer, program, List.append_assoc], ?_⟩
        intro other member
        rcases List.mem_append.mp member with early | last
        · exact fits other early
        · rw [List.mem_singleton.mp last]
          exact fit

/-- The names of what was allocated behind the known symbols count up from zero. -/
def Numbered (known : Nat) (state : Lowering) : Prop :=
  known ≤ state.table.size ∧ ∀ allocation : Allocation,
    state.table.namesFrom known allocation.kind = (List.range (state.allocated allocation)).map allocation.name

theorem advance_numbered (known : Nat) (state after : Lowering) (step : Advance state after)
    (numbered : Numbered known state) : Numbered known after := by
  obtain ⟨bound, names⟩ := numbered
  rcases advance_table state after step with ⟨same, counts⟩ | ⟨allocation, function, ty, _, added, counts⟩
  · unfold Numbered
    rw [same, counts]
    exact ⟨bound, names⟩
  · obtain ⟨_, symbols⟩ := state.table.add_owned_symbols after.table function _ _ _ ty added
    have size : after.table.size = state.table.size + 1 := by simp [SymbolTable.size, symbols]
    refine ⟨by lia, ?_⟩
    intro other
    have listed := state.table.list_from_push after.table _ known symbols bound
    have earlier := names other
    unfold SymbolTable.namesFrom at earlier ⊢
    rw [listed, List.filter_append, List.map_append, earlier, counts other]
    cases other <;> cases allocation <;> simp [Allocation.kind, List.range_succ]

theorem advances_numbered (known : Nat) (before after : Lowering) (advances : Advances before after)
    (numbered : Numbered known before) : Numbered known after := by
  induction advances with
  | refl => exact numbered
  | tail _ step ih => exact advance_numbered known _ _ step ih

theorem grows_owned (before after : Lowering) (grows : Grows before after) (id : SymbolId) (symbol : Symbol)
    (beyond : before.table.size < id) (found : after.table.get? id = some symbol) :
    (symbol.kind = .temporary ∨ symbol.kind = .label) ∧
      ∃ function, before.function = some function ∧ symbol.owner = some function := by
  induction grows with
  | refl =>
      have bound := before.table.get_le_size id symbol found
      lia
  | @tail middle after grown step ih =>
      rcases advance_table middle after (.grow after step) with ⟨same, _⟩ | ⟨allocation, function, ty, inside, added, _⟩
      · exact ih (same ▸ found)
      · obtain ⟨_, symbols⟩ := middle.table.add_owned_symbols after.table function _ _ _ ty added
        rcases (middle.table.get_push after.table _ symbols id symbol).mp found with old | ⟨_, rfl⟩
        · exact ih old
        · refine ⟨?_, function, (grows_function before middle grown).symm.trans inside, rfl⟩
          cases allocation with
          | temporary => exact Or.inl rfl
          | label => exact Or.inr rfl

end Lowering

inductive Operation where
  | enterFunction (id : SymbolId)
  | leaveFunction
  | emit (statement : Statement)
  | freshTemporary (ty : ValueType)
  | freshLabel
  | function (id : SymbolId) (root : Node)
  | statement (node : Node)
  | assignment (target source : Node)
  | conditional (condition consequent : Node) (alternative : Option Node)
  | loop (condition body : Node)
  | jumpUnless (condition : Node) (label : SymbolRef)
  | ret (node : Node)
  | value (node : Node)
  | binaryOperator (node : Node)
  | unaryOperator (node : Node)
  | passAll (node : Node)
  | call (node : Node)
  | elementRead (node : Node)
  | elementWrite (node : Node)
deriving DecidableEq, Repr

namespace Operation

def perform : Operation → Lowering → Lowering
  | .enterFunction id => (Lower.enterFunction id).final
  | .leaveFunction => Lower.leaveFunction.final
  | .emit added => (Lower.emit added).final
  | .freshTemporary ty => (Lower.freshTemporary ty).final
  | .freshLabel => Lower.freshLabel.final
  | .function id root => (Lower.function id root).final
  | .statement node => (Lower.statement node).final
  | .assignment target source => (Lower.assignment target source).final
  | .conditional condition consequent alternative =>
    (Lower.conditionalOf condition consequent alternative).final
  | .loop condition body => (Lower.loopOf condition body).final
  | .jumpUnless condition label => (Lower.jumpUnless condition label).final
  | .ret node => (Lower.ret node).final
  | .value node => (Lower.value node).final
  | .binaryOperator node => (Lower.binaryOperator node).final
  | .unaryOperator node => (Lower.unaryOperator node).final
  | .passAll node => (Lower.passAll node).final
  | .call node => (Lower.call node).final
  | .elementRead node => (Lower.elementRead node).final
  | .elementWrite node => (Lower.elementWrite node).final

def performAll (operations : List Operation) (state : Lowering) : Lowering :=
  operations.foldl (fun state operation => operation.perform state) state

def isSwitch : Operation → Bool
  | .enterFunction _ | .leaveFunction | .function _ _ => true
  | _ => false

def scope : Operation → Lowering → Option SymbolId
  | .function id _, _ => some id
  | _, state => state.function

theorem perform_grows (operation : Operation) (stays : operation.isSwitch = false) (state : Lowering) :
    state.Grows (operation.perform state) := by
  open Lower in
  cases operation with
  | enterFunction | leaveFunction | function => cases stays
  | emit statement => exact emit_grows statement state
  | freshTemporary ty => exact grows_carried.temporary ty state
  | freshLabel => exact fresh_label_grows state
  | statement node => exact statement_grows node state
  | assignment target source => exact assignment_keeps grows_carried target source state
  | conditional condition consequent alternative =>
      apply conditional_grows condition _ _ (statement_grows consequent)
      intro action member
      obtain ⟨node, _, rfl⟩ := Option.map_eq_some_iff.mp member
      exact statement_grows node
  | loop condition body => exact loop_grows condition _ (statement_grows body) state
  | jumpUnless condition label => exact jump_unless_grows condition label state
  | ret node => exact ret_grows node state
  | value node => exact (value_arguments_keep grows_carried node).1 state
  | binaryOperator node => exact binary_operator_grows node state
  | unaryOperator node => exact unary_operator_grows node state
  | passAll node =>
      exact bind_keeps grows_carried _ _ (arguments_of_keeps grows_carried node []) (pass_keeps grows_carried) state
  | call node => exact call_keeps grows_carried node state
  | elementRead node => exact element_read_grows node state
  | elementWrite node => exact element_write_keeps grows_carried node state

theorem function_grows (id : SymbolId) (root : Node) (state : Lowering) (symbol : Symbol)
    (found : state.table.get? id = some symbol) (kind : symbol.kind = .function) :
    ∃ body, Lowering.Grows { state with function := some id } body ∧
      (Lower.function id root state = .ok () { body with function := none } ∨
        ∃ cause, Lower.function id root state = .error cause body) := by
  have opened : Lower.emit (Lower.entry id symbol) { state with function := some id } =
      .ok state.program.size (Lower.begun id symbol state) :=
    (Lower.emit_ok _ _ _ _).mpr ⟨rfl, rfl, rfl⟩
  have grows := Lower.statement_grows root (Lower.begun id symbol state)
  rw [Lower.function_run id root state symbol found kind]
  cases ran : Lower.statement root (Lower.begun id symbol state) with
  | ok u finished =>
      rw [Lower.final_ok _ _ finished u ran] at grows
      exact ⟨finished, .head (.emit _ _ opened) grows, Or.inl rfl⟩
  | error cause stopped =>
      rw [Lower.final, ran] at grows
      exact ⟨stopped, .head (.emit _ _ opened) grows, Or.inr ⟨cause, rfl⟩⟩

theorem function_cases (id : SymbolId) (root : Node) (state : Lowering) :
    Lower.function id root state = .error (.notAFunction id) state ∨
      ∃ body, Lowering.Grows { state with function := some id } body ∧
        (Lower.function id root state = .ok () { body with function := none } ∨
          ∃ cause, Lower.function id root state = .error cause body) := by
  by_cases known : ∃ symbol, state.table.get? id = some symbol ∧ symbol.kind = .function
  · obtain ⟨symbol, found, kind⟩ := known
    exact Or.inr (function_grows id root state symbol found kind)
  · apply Or.inl
    apply Lower.function_refused id root state
    intro symbol found kind
    exact known ⟨symbol, found, kind⟩

theorem perform_advances (operation : Operation) (state : Lowering) :
    state.Advances (operation.perform state) := by
  cases switch : operation.isSwitch with
  | false => exact Lowering.grows_advances state _ (perform_grows operation switch state)
  | true =>
      cases operation with
      | enterFunction id => exact .single (.turn (some id))
      | leaveFunction => exact .single (.turn none)
      | function id root =>
          simp only [perform, Lower.final]
          rcases function_cases id root state with refused | ⟨body, grows, completed | ⟨cause, failed⟩⟩
          · rw [refused]
            exact .refl
          · rw [completed]
            exact .head (.turn (some id)) (.tail (Lowering.grows_advances _ body grows) (.turn none))
          · rw [failed]
            exact .head (.turn (some id)) (Lowering.grows_advances _ body grows)
      | _ => cases switch

theorem perform_all_advances (operations : List Operation) (state : Lowering) :
    state.Advances (performAll operations state) := by
  induction operations generalizing state with
  | nil => exact .refl
  | cons operation rest ih => exact (perform_advances operation state).trans (ih (operation.perform state))

/-- What a single operation does with the function that is being lowered. A function that could be
lowered is left, and nothing at all happens if there is no such function. -/
structure Effect (operation : Operation) (before : Lowering) : Prop where
  owned : ∀ id symbol, before.table.size < id → (operation.perform before).table.get? id = some symbol →
    (symbol.kind = .temporary ∨ symbol.kind = .label) ∧
      ∃ function, operation.scope before = some function ∧ symbol.owner = some function
  stays : operation.isSwitch = false → (operation.perform before).function = before.function
  left : ∀ id root after, operation = .function id root → Lower.function id root before = .ok () after →
    operation.perform before = after ∧ after.function = none
  refused : ∀ id root, operation = .function id root →
    (∀ symbol, before.table.get? id = some symbol → symbol.kind ≠ .function) →
    operation.perform before = before

theorem unchanged_owned (before after : Lowering) (same : after.table = before.table) (id : SymbolId)
    (symbol : Symbol) (beyond : before.table.size < id) : after.table.get? id ≠ some symbol := by
  intro found
  have bound := before.table.get_le_size id symbol (same ▸ found)
  lia

theorem perform_owned (operation : Operation) (before : Lowering) (id : SymbolId) (symbol : Symbol)
    (beyond : before.table.size < id) (found : (operation.perform before).table.get? id = some symbol) :
    (symbol.kind = .temporary ∨ symbol.kind = .label) ∧
      ∃ function, operation.scope before = some function ∧ symbol.owner = some function := by
  cases switch : operation.isSwitch with
  | false =>
      have same : operation.scope before = before.function := by
        cases operation with
        | function id root => cases switch
        | _ => rfl
      rw [same]
      exact Lowering.grows_owned before _ (perform_grows operation switch before) id symbol beyond found
  | true =>
      cases operation with
      | enterFunction => exact absurd found (unchanged_owned before _ rfl id symbol beyond)
      | leaveFunction => exact absurd found (unchanged_owned before _ rfl id symbol beyond)
      | function function root =>
          simp only [perform, Lower.final] at found
          rcases function_cases function root before with refused | ⟨body, grows, completed | ⟨cause, failed⟩⟩
          · rw [refused] at found
            exact absurd found (unchanged_owned before _ rfl id symbol beyond)
          · rw [completed] at found
            exact Lowering.grows_owned _ body grows id symbol beyond found
          · rw [failed] at found
            exact Lowering.grows_owned _ body grows id symbol beyond found
      | _ => cases switch

theorem perform_effect (operation : Operation) (before : Lowering) : operation.Effect before where
  owned := perform_owned operation before
  stays switch := Lowering.grows_function before _ (perform_grows operation switch before)
  left id root after same ran := by
    subst same
    refine ⟨Lower.final_ok _ before after () ran, ?_⟩
    rcases function_cases id root before with refused | ⟨body, grows, completed | ⟨cause, failed⟩⟩
    · rw [refused] at ran
      cases ran
    · rw [completed] at ran
      cases ran
      rfl
    · rw [failed] at ran
      cases ran
  refused id root same other := by
    subst same
    simp only [perform, Lower.final, Lower.function_refused id root before other]

theorem start_numbered (table : SymbolTable) (program : Program) :
    Lowering.Numbered table.size (.start table program) := by
  refine ⟨Nat.le_refl _, ?_⟩
  intro allocation
  cases allocation <;> simp [SymbolTable.namesFrom, Lowering.start, SymbolTable.list_from_size, Lowering.allocated]

theorem operations_only_extend (table : SymbolTable) (program : Program) (before after : Lowering)
    (early late : List Operation) (fits : ∀ statement ∈ program.statements, statement.conforms = true)
    (reached : performAll early (.start table program) = before) (continued : performAll late before = after) :
    before.program.statements <+: after.program.statements ∧
      (∀ statement ∈ after.program.statements, statement.conforms = true) ∧
      before.table.Grown after.table ∧ after.Numbered table.size ∧
      ∀ operation : Operation, operation.Effect before := by
  have start : Lowering.Advances (.start table program) before :=
    reached ▸ perform_all_advances early (.start table program)
  have advances : before.Advances after := continued ▸ perform_all_advances late before
  obtain ⟨more, longer, _⟩ := Lowering.advances_program before after advances
  obtain ⟨code, whole, fit⟩ := Lowering.advances_program _ after (start.trans advances)
  refine ⟨⟨more, longer.symm⟩, ?_, ?_, ?_, fun operation => perform_effect operation before⟩
  · intro statement member
    rw [whole] at member
    rcases List.mem_append.mp member with old | new
    · exact fits statement old
    · exact fit statement new
  · exact SymbolTable.gains_grown _ _ (Lowering.advances_gains before after advances)
  · exact Lowering.advances_numbered table.size _ after (start.trans advances) (start_numbered table program)

def faultyStart : List Operation :=
  [.freshTemporary .int, .enterFunction 2, .freshTemporary .int8, .function 1 .empty]

def faultyRest : List Operation :=
  let x : Node := .identifier 1 .int
  [.freshLabel, .ret (.unary (.unary .minus) .int x), .leaveFunction, .freshLabel,
    .function 2 (.binary .loop .void x (.binary .assignment .void (.number (.int 3)) x))]

theorem faulty_operations_extend :
    (∀ statement ∈ Program.empty.statements, statement.conforms = true) ∧
      ∃ before after, performAll faultyStart (.start Lower.misfitTable .empty) = before ∧
        performAll faultyRest before = after ∧ before.table.Grown after.table ∧
        after.table.namesFrom 2 .temporary = ["&0", "&1"] ∧ after.table.namesFrom 2 .label = ["@0", "@1", "@2"] ∧
        before.function = some 2 ∧ after.function = some 2 ∧ Operation.leaveFunction.Effect before := by
  have fits : ∀ statement ∈ Program.empty.statements, statement.conforms = true := by decide
  have counts : ∃ before after, performAll faultyStart (.start Lower.misfitTable .empty) = before ∧
      performAll faultyRest before = after ∧ after.temporaries = 2 ∧ after.labels = 3 ∧
      before.function = some 2 ∧ after.function = some 2 := ⟨_, _, rfl, rfl, by decide +kernel⟩
  obtain ⟨before, after, reached, continued, temporaries, labels, inside, still⟩ := counts
  obtain ⟨_, _, grown, ⟨_, names⟩, effect⟩ := operations_only_extend Lower.misfitTable .empty before after
    faultyStart faultyRest fits reached continued
  refine ⟨fits, before, after, reached, continued, grown, ?_, ?_, inside, still, effect .leaveFunction⟩
  · apply (names .temporary).trans
    rw [Lowering.allocated, temporaries]
    rfl
  · apply (names .label).trans
    rw [Lowering.allocated, labels]
    rfl

end Operation

end ThreeAddress
