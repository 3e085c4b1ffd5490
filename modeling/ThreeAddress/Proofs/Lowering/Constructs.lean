import ThreeAddress.Proofs.Allocation
import ThreeAddress.Proofs.Lowering.Runs

set_option autoImplicit false

namespace ThreeAddress

namespace Lowering

structure Extends (before after : Lowering) (code : List Statement) : Prop where
  program : after.program.statements = before.program.statements ++ code
  function : after.function = before.function
  functions : after.table.functions = before.table.functions
  symbols : before.table.symbols <+: after.table.symbols

theorem Extends.size {before after : Lowering} {code : List Statement}
    (extended : Extends before after code) : before.table.size ≤ after.table.size :=
  extended.symbols.length_le

theorem extends_refl (state : Lowering) : Extends state state [] :=
  ⟨(List.append_nil _).symm, rfl, rfl, List.prefix_refl _⟩

theorem extends_trans (before middle after : Lowering) (first second : List Statement)
    (earlier : Extends before middle first) (later : Extends middle after second) :
    Extends before after (first ++ second) where
  program := by rw [later.program, earlier.program, List.append_assoc]
  function := later.function.trans earlier.function
  functions := later.functions.trans earlier.functions
  symbols := earlier.symbols.trans later.symbols

theorem extends_lines (before after : Lowering) (code : List Statement)
    (extended : Extends before after code) : after.program.size = before.program.size + code.length := by
  rw [Program.size, extended.program, List.length_append]
  rfl

def Straight (before after : Lowering) : Prop :=
  ∃ code, Extends before after code ∧ ∀ statement ∈ code, statement.opcode.isPlain = true

end Lowering

namespace Lower

theorem emit_extends (statement : Statement) (state after : Lowering) (line : Line)
    (ran : emit statement state = .ok line after) :
    state.Extends after [statement] ∧ after.table = state.table := by
  obtain ⟨_, _, rfl⟩ := (emit_ok statement state after line).mp ran
  exact ⟨⟨rfl, rfl, rfl, List.prefix_refl _⟩, rfl⟩

theorem allocate_extends (allocation : Allocation) (ty : ValueType) (state after : Lowering) (ref : SymbolRef)
    (ran : allocate allocation ty state = .ok ref after) :
    state.Extends after [] ∧ ref.id = state.table.size + 1 ∧ after.table.size = state.table.size + 1 := by
  obtain ⟨function, table, _, added, rfl, rfl⟩ := allocate_ok allocation ty state after ref ran
  obtain ⟨_, ⟨symbol, symbols⟩, functions⟩ := state.table.add_owned_some table function _ _ _ _ added
  refine ⟨⟨by simp, by simp, by simpa using functions, ?_⟩, rfl, ?_⟩
  · simp [symbols]
  · simp [SymbolTable.size, symbols]

theorem computed_ok (ty : ValueType) (statement : SymbolRef → Statement) (state after : Lowering) (operand : Operand)
    (ran : (do
      let result ← freshTemporary ty
      discard (emit (statement result))
      return Operand.symbol result : Lower Operand) state = .ok operand after) :
    ∃ result allocated, operand = .symbol result ∧ freshTemporary ty state = .ok result allocated ∧
      state.Extends after [statement result] ∧ after.table = allocated.table := by
  obtain ⟨result, allocated, fresh, emits⟩ := (bind_ok _ _ state after operand).mp ran
  obtain ⟨_, last, discarded, returns⟩ := (bind_ok _ _ allocated after operand).mp emits
  obtain ⟨line, emitted⟩ := (discard_ok _ allocated last _).mp discarded
  obtain ⟨rfl, rfl⟩ := (pure_ok _ _ last after).mp returns
  obtain ⟨extended, table⟩ := emit_extends _ allocated last line emitted
  exact ⟨result, allocated, rfl, fresh, Lowering.extends_trans state allocated last [] _
    (allocate_extends .temporary ty state allocated result fresh).1 extended, table⟩

theorem straight_carried : Carried Lowering.Straight where
  refl state := ⟨[], state.extends_refl, by simp⟩
  trans before middle after earlier later := by
    obtain ⟨first, extendsFirst, plainFirst⟩ := earlier
    obtain ⟨second, extendsSecond, plainSecond⟩ := later
    refine ⟨first ++ second, Lowering.extends_trans before middle after first second extendsFirst
      extendsSecond, ?_⟩
    intro statement member
    rcases List.mem_append.mp member with early | late
    · exact plainFirst statement early
    · exact plainSecond statement late
  temporary ty state := by
    cases ran : freshTemporary ty state with
    | ok temporary after =>
        rw [final_ok _ state after temporary ran]
        exact ⟨[], (allocate_extends .temporary ty state after temporary ran).1, by simp⟩
    | error cause after =>
        rw [final, ran, allocate_error .temporary ty state after cause ran]
        exact ⟨[], state.extends_refl, by simp⟩
  emit statement plain state := by
    cases ran : emit statement state with
    | ok line after =>
        rw [final_ok _ state after line ran]
        exact ⟨[statement], (emit_extends statement state after line ran).1, by simpa using plain⟩
    | error cause after =>
        have same : after = state := by
          unfold emit at ran
          grind
        rw [final, ran, same]
        exact ⟨[], state.extends_refl, by simp⟩

end Lower

inductive Construct where
  | plain
  | ret (value : Node)
  | sequence (first rest : Node)
  | conditional (condition consequent : Node) (alternative : Option Node)
  | loop (condition body : Node)

def Node.construct : Node → Construct
  | .binary .conditional _ condition (.binary .branches _ consequent alternative) =>
    .conditional condition consequent (some alternative)
  | .binary kind _ left right =>
    match kind with
    | .statementList => .sequence left right
    | .conditional => .conditional left right none
    | .loop => .loop left right
    | .ret => .ret .empty
    | _ => .plain
  | .unary kind _ child => if kind = .ret then .ret child else .plain
  | node => if node.kind = .ret then .ret .empty else .plain

def Node.isBlank (node : Node) : Bool :=
  match node.kind with
  | .empty | .error | .unknown => true
  | _ => false

def Construct.parts : Construct → List Node
  | .plain | .ret _ => []
  | .sequence first rest => [first, rest]
  | .conditional _ consequent alternative => consequent :: alternative.toList
  | .loop _ body => [body]

theorem Node.parts_smaller (node part : Node) (inside : part ∈ node.construct.parts) :
    sizeOf part < sizeOf node := by
  revert inside
  fun_cases Node.construct node
  all_goals simp [Construct.parts]
  all_goals grind

theorem Node.construct_induction {motive : Node → Prop}
    (each : ∀ node, (∀ part ∈ node.construct.parts, motive part) → motive node) (node : Node) :
    motive node := by
  apply each node
  intro part inside
  have smaller := node.parts_smaller part inside
  exact Node.construct_induction each part
termination_by sizeOf node

namespace Lower

def simple : Node → Lower Unit
  | .binary .assignment _ target source => assignment target source
  | .binary .call ty callee list => discard (call (.binary .call ty callee list))
  | _ => return ()

theorem statement_construct (node : Node) :
    statement node =
      match node.construct with
      | .plain => simple node
      | .ret value => ret value
      | .sequence first rest => do
        statement first
        statement rest
      | .conditional condition consequent alternative =>
        conditional condition (statement consequent) (alternative.map statement)
      | .loop condition body => loop condition (statement body) := by
  fun_cases Node.construct node
  case case6 kind _ _ _ _ _ _ _ _ => cases kind <;> simp_all [statement, simple]
  case case10 => cases node <;> simp_all [statement, simple]
  all_goals simp_all [statement, simple]

theorem simple_straight (node : Node) (state after : Lowering) (u : Unit)
    (ran : simple node state = .ok u after) : state.Straight after := by
  have keeps : Keeps Lowering.Straight (simple node) := by
    unfold simple
    split
    next target source => exact assignment_keeps straight_carried target source
    next => exact discard_keeps straight_carried _ (call_keeps straight_carried _)
    next => exact pure_keeps straight_carried ()
  exact keeps_ok Lowering.Straight _ keeps state after u ran

theorem ret_eq (value : Node) :
    ret value = (if value.isBlank then pure none else some <$> returned value) >>= fun operand =>
      discard (emit ⟨.void, .ret, operand, none, none⟩) := by
  unfold ret Node.isBlank
  cases value.kind <;> rfl

theorem ret_stages (value : Node) (state after : Lowering) (u : Unit) (ran : ret value state = .ok u after) :
    ∃ code last, state.Extends after (code ++ [last]) ∧
      (∀ statement ∈ code, statement.opcode.isPlain = true) ∧ last.opcode = .ret := by
  rw [ret_eq] at ran
  obtain ⟨operand, middle, computed, emitted⟩ := (bind_ok _ _ state after u).mp ran
  obtain ⟨line, added⟩ := (discard_ok _ middle after u).mp emitted
  have keeps : Keeps Lowering.Straight
      (if value.isBlank then pure none else some <$> returned value) := by
    by_cases blank : value.isBlank = true
    · rw [if_pos blank]
      exact pure_keeps straight_carried none
    · rw [if_neg blank]
      exact map_keeps straight_carried some _ (returned_keeps straight_carried value)
  obtain ⟨code, extended, plain⟩ := keeps_ok Lowering.Straight _ keeps state middle operand computed
  exact ⟨code, _, Lowering.extends_trans state middle after code _ extended
    (emit_extends _ middle after line added).1, plain, rfl⟩

/-- A condition is computed by plain code that ends in a jump to the label. -/
structure Tested (label : SymbolRef) (before after : Lowering) (code : List Statement) (jump : Statement) :
    Prop where
  emitted : before.Extends after (code ++ [jump])
  plain : ∀ statement ∈ code, statement.opcode.isPlain = true
  conditional : jump.opcode.isConditionalJump = true
  target : jump.jumpTarget? = some label.id

theorem jump_unless_stages (condition : Node) (label : SymbolRef) (state after : Lowering) (u : Unit)
    (ran : jumpUnless condition label state = .ok u after) :
    ∃ code jump, Tested label state after code jump := by
  unfold jumpUnless at ran
  split at ran
  next relation _ left right =>
    obtain ⟨operands, middle, computed, emitted⟩ := (bind_ok _ _ state after u).mp ran
    obtain ⟨line, added⟩ := (discard_ok _ middle after u).mp emitted
    obtain ⟨code, extended, plain⟩ := keeps_ok Lowering.Straight _
      (operands_keeps straight_carried none _ _ (value_of_keeps straight_carried left)
        (value_of_keeps straight_carried right)) state middle operands computed
    exact ⟨code, _, Lowering.extends_trans state middle after code _ extended
      (emit_extends _ middle after line added).1, plain, rfl, rfl⟩
  next =>
    obtain ⟨value, middle, computed, emitted⟩ := (bind_ok _ _ state after u).mp ran
    obtain ⟨line, added⟩ := (discard_ok _ middle after u).mp emitted
    obtain ⟨code, extended, plain⟩ := keeps_ok Lowering.Straight _
      (value_of_keeps straight_carried condition) state middle value computed
    exact ⟨code, _, Lowering.extends_trans state middle after code _ extended
      (emit_extends _ middle after line added).1, plain, rfl, rfl⟩

def mark (label : SymbolRef) : Statement := ⟨.void, .label, some (.symbol label), none, none⟩

def goto (label : SymbolRef) : Statement := ⟨.void, .goto, some (.symbol label), none, none⟩

theorem emitted_extends (statement : Statement) (state after : Lowering) (u : Unit)
    (ran : discard (emit statement) state = .ok u after) :
    state.Extends after [statement] ∧ after.table = state.table := by
  obtain ⟨line, emitted⟩ := (discard_ok _ state after u).mp ran
  exact emit_extends _ state after line emitted

/-- What stands between the consequent and the alternative: a jump over the alternative, and the
label where it starts. -/
def Turns (otherwise done : SymbolRef) (before after : Lowering) : Prop :=
  ∃ labelled passed, freshLabel before = .ok done labelled ∧ emitGoto done labelled = .ok () passed ∧
    emitLabel otherwise passed = .ok () after

def Closes (otherwise : SymbolRef) (before after : Lowering) : Option Node → Prop
  | none => emitLabel otherwise before = .ok () after
  | some alternative => ∃ done turned finished, Turns otherwise done before turned ∧
    statement alternative turned = .ok () finished ∧ emitLabel done finished = .ok () after

def Opens (head done : SymbolRef) (before after : Lowering) : Prop :=
  ∃ labelled both, freshLabel before = .ok head labelled ∧ freshLabel labelled = .ok done both ∧
    emitLabel head both = .ok () after

theorem turns_unique (otherwise done other : SymbolRef) (before after last : Lowering)
    (left : Turns otherwise done before after) (right : Turns otherwise other before last) :
    done = other ∧ after = last := by
  obtain ⟨labelled, passed, label, jump, place⟩ := left
  obtain ⟨second, third, labelOther, jumpOther, placeOther⟩ := right
  obtain ⟨rfl, rfl⟩ := EStateM.Result.ok.inj (label.symm.trans labelOther)
  obtain ⟨_, rfl⟩ := EStateM.Result.ok.inj (jump.symm.trans jumpOther)
  obtain ⟨_, rfl⟩ := EStateM.Result.ok.inj (place.symm.trans placeOther)
  exact ⟨rfl, rfl⟩

theorem opens_unique (head done first second : SymbolRef) (before after last : Lowering)
    (left : Opens head done before after) (right : Opens first second before last) :
    head = first ∧ done = second ∧ after = last := by
  obtain ⟨labelled, both, one, two, place⟩ := left
  obtain ⟨third, fourth, oneOther, twoOther, placeOther⟩ := right
  obtain ⟨rfl, rfl⟩ := EStateM.Result.ok.inj (one.symm.trans oneOther)
  obtain ⟨rfl, rfl⟩ := EStateM.Result.ok.inj (two.symm.trans twoOther)
  obtain ⟨_, rfl⟩ := EStateM.Result.ok.inj (place.symm.trans placeOther)
  exact ⟨rfl, rfl, rfl⟩

theorem sequence_stages (node first rest : Node) (shape : node.construct = .sequence first rest)
    (state after : Lowering) (ran : statement node state = .ok () after) :
    ∃ middle, statement first state = .ok () middle ∧ statement rest middle = .ok () after := by
  rw [statement_construct, shape] at ran
  obtain ⟨_, middle, early, late⟩ := (bind_ok _ _ state after ()).mp ran
  exact ⟨middle, early, late⟩

theorem conditional_stages (node condition consequent : Node) (alternative : Option Node)
    (shape : node.construct = .conditional condition consequent alternative) (state after : Lowering)
    (ran : statement node state = .ok () after) :
    ∃ otherwise labelled tested joined, freshLabel state = .ok otherwise labelled ∧
      jumpUnless condition otherwise labelled = .ok () tested ∧
      statement consequent tested = .ok () joined ∧ Closes otherwise joined after alternative := by
  rw [statement_construct, shape] at ran
  simp only [conditional, bind_ok] at ran
  obtain ⟨otherwise, labelled, label, _, tested, test, _, joined, body, rest⟩ := ran
  refine ⟨otherwise, labelled, tested, joined, label, test, body, ?_⟩
  cases alternative with
  | none => exact rest
  | some other =>
      simp only [Option.map_some, bind_ok] at rest
      obtain ⟨done, second, fresh, _, passed, jump, _, turned, turn, _, finished, lowered, close⟩ := rest
      exact ⟨done, turned, finished, ⟨second, passed, fresh, jump, turn⟩, lowered, close⟩

theorem loop_stages (node condition body : Node) (shape : node.construct = .loop condition body)
    (state after : Lowering) (ran : statement node state = .ok () after) :
    ∃ head done opened tested ended repeated, Opens head done state opened ∧
      jumpUnless condition done opened = .ok () tested ∧ statement body tested = .ok () ended ∧
      emitGoto head ended = .ok () repeated ∧ emitLabel done repeated = .ok () after := by
  rw [statement_construct, shape] at ran
  simp only [loop, bind_ok] at ran
  obtain ⟨head, labelled, first, done, both, second, _, opened, opens, _, tested, test, _, ended, lowered,
    _, repeated, jump, close⟩ := ran
  exact ⟨head, done, opened, tested, ended, repeated, ⟨labelled, both, first, second, opens⟩, test, lowered,
    jump, close⟩

end Lower

end ThreeAddress
