import ThreeAddress.Lowering.Statement

set_option autoImplicit false

/-!
Runs of the lowering: what an action leaves behind, and relations between the state before an
action and the state after it that hold for all expressions as soon as they hold for each
statement emitted and each temporary allocated.
-/

namespace ThreeAddress

def Opcode.isPlain : Opcode → Bool
  | .func | .ret | .label | .goto | .jumpIf _ | .jumpNonzero | .jumpZero => false
  | _ => true

namespace Lower

variable {α β : Type}

def final (action : Lower α) (state : Lowering) : Lowering :=
  match action state with
  | .ok _ after => after
  | .error _ after => after

theorem final_ok (action : Lower α) (state after : Lowering) (a : α) (ran : action state = .ok a after) :
    final action state = after := by
  rw [final, ran]

theorem bind_ok (action : Lower α) (next : α → Lower β) (state after : Lowering) (b : β) :
    (action >>= next) state = .ok b after ↔
      ∃ a middle, action state = .ok a middle ∧ next a middle = .ok b after := by
  change EStateM.bind action next state = .ok b after ↔ _
  cases first : action state with
  | ok a middle => simp [EStateM.bind, first, and_assoc]
  | error cause middle => simp [EStateM.bind, first]

theorem pure_ok (a b : α) (state after : Lowering) :
    (pure a : Lower α) state = .ok b after ↔ a = b ∧ state = after := by
  change EStateM.Result.ok a state = .ok b after ↔ _
  simp

theorem discard_ok (action : Lower α) (state after : Lowering) (u : PUnit) :
    (discard action) state = .ok u after ↔ ∃ a, action state = .ok a after := by
  change EStateM.map (Function.const α PUnit.unit) action state = .ok u after ↔ _
  cases first : action state with
  | ok a middle => simp [EStateM.map, first]
  | error cause middle => simp [EStateM.map, first]

theorem map_ok (change : α → β) (action : Lower α) (state after : Lowering) (b : β) :
    (change <$> action) state = .ok b after ↔ ∃ a, action state = .ok a after ∧ change a = b := by
  simp only [map_eq_pure_bind, bind_ok, pure_ok]
  constructor
  · rintro ⟨a, middle, ran, same, rfl⟩
    exact ⟨a, ran, same⟩
  · rintro ⟨a, ran, same⟩
    exact ⟨a, after, ran, same, rfl⟩

theorem emit_ok (statement : Statement) (state after : Lowering) (line : Line) :
    emit statement state = .ok line after ↔ statement.conforms = true ∧ line = state.program.size ∧
      after = { state with program := ⟨state.program.statements ++ [statement]⟩ } := by
  by_cases conforms : statement.conforms = true
  · simp [emit, Program.append, conforms, eq_comm]
  · simp [emit, Program.append, conforms]

/-- A binary operator: a comparison, or arithmetic in an expression of some type. -/
inductive Combination where
  | compare (relation : Relation)
  | compute (operator : ArithmeticOperator) (ty : ValueType)

namespace Combination

def wanted : Combination → Option ValueType
  | .compare _ => none
  | .compute _ ty => scalar? ty

def result : Combination → ValueType → ValueType
  | .compare _, _ => .bool
  | .compute _ _, ty => ty

def opcode : Combination → ValueType → Opcode
  | .compare relation, ty => .set relation ty.isSigned
  | .compute operator _, ty => .binary (operator.select ty.isSigned)

def statement (combination : Combination) (ty : ValueType) (left right : Operand) (result : SymbolRef) :
    Statement :=
  ⟨ty.width, combination.opcode ty, some left, some right, some (.symbol result)⟩

def lower (combination : Combination) (left right : Lower Operand) : Lower Operand := do
  let (left, right, ty) ← operands combination.wanted left right
  let result ← freshTemporary (combination.result ty)
  discard (emit (combination.statement ty left right result))
  return .symbol result

theorem lower_compare (relation : Relation) (left right : Lower Operand) :
    comparison relation left right = (compare relation).lower left right := rfl

theorem lower_compute (operator : ArithmeticOperator) (ty : ValueType) (left right : Lower Operand) :
    arithmetic operator ty left right = (compute operator ty).lower left right := rfl

section Statement

variable (combination : Combination) (ty : ValueType) (left right : Operand) (result : SymbolRef)

theorem statement_plain : (combination.statement ty left right result).opcode.isPlain = true := by
  cases combination <;> rfl

theorem statement_conforms : (combination.statement ty left right result).conforms = true := by
  cases combination <;> rfl

end Statement

end Combination

def Keeps (relation : Lowering → Lowering → Prop) (action : Lower α) : Prop :=
  ∀ state, relation state (action.final state)

theorem keeps_ok (relation : Lowering → Lowering → Prop) (action : Lower α)
    (keeps : Keeps relation action) (state after : Lowering) (a : α) (ran : action state = .ok a after) :
    relation state after :=
  final_ok action state after a ran ▸ keeps state

/-- Relations that hold wherever a plain statement is emitted or a temporary is allocated. -/
structure Carried (relation : Lowering → Lowering → Prop) : Prop where
  refl : ∀ state, relation state state
  trans : ∀ before middle after, relation before middle → relation middle after → relation before after
  temporary : ∀ ty, Keeps relation (freshTemporary ty)
  emit : ∀ statement, statement.opcode.isPlain = true → Keeps relation (emit statement)

section Carried

variable {relation : Lowering → Lowering → Prop} (carried : Carried relation)

include carried

theorem pure_keeps (a : α) : Keeps relation (pure a : Lower α) := carried.refl

theorem throw_keeps (cause : LoweringError) : Keeps relation (throw cause : Lower α) := carried.refl

theorem bind_keeps (action : Lower α) (next : α → Lower β) (first : Keeps relation action)
    (rest : ∀ a, Keeps relation (next a)) : Keeps relation (action >>= next) := by
  intro state
  have step := first state
  change relation state (final (EStateM.bind action next) state)
  cases ran : action state with
  | ok a middle =>
      rw [final_ok action state middle a ran] at step
      have whole : final (EStateM.bind action next) state = final (next a) middle := by
        simp [final, EStateM.bind, ran]
      rw [whole]
      exact carried.trans state middle _ step (rest a middle)
  | error cause middle =>
      have whole : final (EStateM.bind action next) state = final action state := by
        simp [final, EStateM.bind, ran]
      rw [whole]
      exact step

theorem map_keeps (change : α → β) (action : Lower α) (keeps : Keeps relation action) :
    Keeps relation (change <$> action) := by
  rw [map_eq_pure_bind]
  exact bind_keeps carried action _ keeps fun a => pure_keeps carried (change a)

theorem discard_keeps (action : Lower α) (keeps : Keeps relation action) :
    Keeps relation (discard action) :=
  map_keeps carried (Function.const α PUnit.unit) action keeps

theorem require_keeps (kind : NodeKind) (value : Lower (Option Operand)) (keeps : Keeps relation value) :
    Keeps relation (require kind value) := by
  apply bind_keeps carried value _ keeps
  intro found
  cases found with
  | none => exact throw_keeps carried _
  | some operand => exact pure_keeps carried operand

theorem computed_keeps (statement : Statement) (plain : statement.opcode.isPlain = true) (a : α) :
    Keeps relation (do discard (Lower.emit statement); return a) :=
  bind_keeps carried _ _ (discard_keeps carried _ (carried.emit statement plain)) fun _ =>
    pure_keeps carried a

theorem coerce_keeps (value : Operand) (ty : ValueType) : Keeps relation (coerce value ty) :=
  bind_keeps carried _ _ (carried.temporary ty) fun _ => computed_keeps carried _ rfl _

theorem widen_keeps (value : Operand) (ty : ValueType) : Keeps relation (widen value ty) := by
  rw [widen]
  by_cases wider : value.ty.widensTo ty = true
  · rw [if_pos wider]
    exact coerce_keeps carried value ty
  · rw [if_neg wider]
    exact pure_keeps carried value

theorem operands_keeps (wanted : Option ValueType) (left right : Lower Operand)
    (keepsLeft : Keeps relation left) (keepsRight : Keeps relation right) :
    Keeps relation (operands wanted left right) := by
  apply bind_keeps carried left _ keepsLeft
  intro a
  apply bind_keeps carried right _ keepsRight
  intro b
  apply bind_keeps carried _ _ (widen_keeps carried a _)
  intro wide
  exact map_keeps carried _ _ (widen_keeps carried b _)

theorem combination_keeps (combination : Combination) (left right : Lower Operand)
    (keepsLeft : Keeps relation left) (keepsRight : Keeps relation right) :
    Keeps relation (combination.lower left right) := by
  apply bind_keeps carried _ _ (operands_keeps carried _ left right keepsLeft keepsRight)
  intro computed
  exact bind_keeps carried _ _ (carried.temporary _) fun _ =>
    computed_keeps carried _ (combination.statement_plain _ _ _ _) _

theorem apply_unary_keeps (operator : UnaryOp) (ty : ValueType) (value : Operand) :
    Keeps relation (applyUnary operator ty value) := by
  apply bind_keeps carried _ _ (widen_keeps carried value _)
  intro wide
  exact bind_keeps carried _ _ (carried.temporary _) fun _ => computed_keeps carried _ rfl _

theorem unary_keeps (operator : UnaryOperator) (ty : ValueType) (value : Lower Operand)
    (keeps : Keeps relation value) : Keeps relation (unary operator ty value) := by
  apply bind_keeps carried value _ keeps
  intro a
  cases operator with
  | not => exact apply_unary_keeps carried .not ty a
  | minus => exact apply_unary_keeps carried .neg ty a
  | plus => exact widen_keeps carried a ty
  | coercion =>
      simp only
      split
      next => exact coerce_keeps carried a ty
      next => exact pure_keeps carried a

theorem element_keeps (base : Node) (index : Lower Operand) (keeps : Keeps relation index) :
    Keeps relation (element base index) := by
  unfold element
  cases base.reference? with
  | none => exact pure_keeps carried none
  | some array => exact map_keeps carried _ index keeps

theorem read_element_keeps (ty : ValueType) (base : Node) (index : Lower Operand)
    (keeps : Keeps relation index) : Keeps relation (readElement ty base index) := by
  apply bind_keeps carried _ _ (element_keeps carried base index keeps)
  intro found
  cases found with
  | none => exact pure_keeps carried none
  | some pair =>
      exact bind_keeps carried _ _ (carried.temporary _) fun _ => computed_keeps carried _ rfl _

theorem argument_keeps (formal : Option ValueType) (value : Lower Operand) (keeps : Keeps relation value) :
    Keeps relation (argument formal value) := by
  apply bind_keeps carried value _ keeps
  intro a
  cases formal with
  | none => exact pure_keeps carried a
  | some ty => exact widen_keeps carried a ty

theorem arguments_from_keeps (kind : NodeKind) (formals : List ValueType) (list : Lower (List Operand))
    (last : Lower Operand) (keepsList : Keeps relation list) (keepsLast : Keeps relation last) :
    Keeps relation (argumentsFrom kind formals list last) := by
  unfold argumentsFrom
  split
  next => exact pure_keeps carried []
  next => exact keepsList
  next => exact map_keeps carried _ _ (argument_keeps carried formals.head? last keepsLast)

theorem pass_keeps (values : List Operand) : Keeps relation (pass values) := by
  induction values with
  | nil => exact pure_keeps carried ()
  | cons value rest ih =>
      exact bind_keeps carried _ _ (discard_keeps carried _ (carried.emit _ rfl)) fun _ => ih

theorem call_with_keeps (callee : Node) (list : List ValueType → Lower (List Operand))
    (keeps : ∀ formals, Keeps relation (list formals)) : Keeps relation (callWith callee list) := by
  unfold callWith
  cases callee.reference? with
  | none => exact pure_keeps carried none
  | some function =>
      apply bind_keeps carried (parameterTypes function.id) _ carried.refl
      intro formals
      apply bind_keeps carried _ _ (keeps formals)
      intro actuals
      apply bind_keeps carried _ _ (pass_keeps carried actuals)
      intro _
      by_cases scalar : function.ty.isScalar = true
      · rw [if_pos scalar]
        exact bind_keeps carried _ _ (map_keeps carried some _ (carried.temporary _)) fun _ =>
          computed_keeps carried _ rfl _
      · rw [if_neg scalar]
        exact bind_keeps carried _ _ (pure_keeps carried none) fun _ => computed_keeps carried _ rfl _

theorem value_arguments_keep (node : Node) :
    Keeps relation (value node) ∧ ∀ formals, Keeps relation (arguments node formals) := by
  induction node with
  | leaf kind ty => exact ⟨pure_keeps carried none, fun _ => pure_keeps carried []⟩
  | constant kind ty literal => exact ⟨pure_keeps carried _, fun _ => pure_keeps carried []⟩
  | symbol kind ty id => exact ⟨pure_keeps carried _, fun _ => pure_keeps carried []⟩
  | unary kind ty child ih =>
      refine ⟨?_, fun _ => pure_keeps carried []⟩
      unfold value
      split
      next operator =>
        exact map_keeps carried some _ (unary_keeps carried operator ty _ (require_keeps carried _ _ ih.1))
      next => exact pure_keeps carried none
  | binary kind ty left right ihLeft ihRight =>
      have first := require_keeps carried left.kind (value left) ihLeft.1
      have second := require_keeps carried right.kind (value right) ihRight.1
      refine ⟨?_, ?_⟩
      · unfold value
        split
        next =>
          rw [Combination.lower_compare]
          exact map_keeps carried some _ (combination_keeps carried _ _ _ first second)
        next =>
          rw [Combination.lower_compute]
          exact map_keeps carried some _ (combination_keeps carried _ _ _ first second)
        next => exact read_element_keeps carried ty left _ second
        next =>
          exact call_with_keeps carried left _ fun formals =>
            arguments_from_keeps carried _ formals _ _ (ihRight.2 formals) second
        next => exact pure_keeps carried none
      · intro formals
        unfold arguments
        apply bind_keeps carried _ _ (argument_keeps carried formals.head? _ first)
        intro a
        exact map_keeps carried _ _
          (arguments_from_keeps carried _ formals.tail _ _ (ihRight.2 formals.tail) second)

theorem value_of_keeps (node : Node) : Keeps relation (valueOf node) :=
  require_keeps carried node.kind (value node) (value_arguments_keep carried node).1

theorem arguments_of_keeps (node : Node) (formals : List ValueType) :
    Keeps relation (argumentsOf node formals) :=
  arguments_from_keeps carried node.kind formals _ _ ((value_arguments_keep carried node).2 formals)
    (value_of_keeps carried node)

theorem call_keeps (node : Node) : Keeps relation (call node) := by
  unfold call
  split
  next callee list => exact call_with_keeps carried callee _ (arguments_of_keeps carried list)
  next => exact pure_keeps carried none

theorem element_write_keeps (node : Node) : Keeps relation (elementWrite node) := by
  unfold elementWrite
  split
  next base index => exact element_keeps carried base _ (value_of_keeps carried index)
  next => exact pure_keeps carried none

theorem destination_keeps (node : Node) : Keeps relation (destination node) := by
  have found : Keeps relation (destination? node) := by
    unfold destination?
    split
    next => exact pure_keeps carried _
    next => exact map_keeps carried _ _ (element_write_keeps carried node)
    next => exact pure_keeps carried none
  apply bind_keeps carried _ _ found
  intro place
  cases place with
  | none => exact throw_keeps carried _
  | some place => exact pure_keeps carried place

theorem store_keeps (value : Operand) (place : Destination) : Keeps relation (store value place) := by
  match place with
  | .variable target =>
      exact bind_keeps carried _ _ (widen_keeps carried value _) fun _ =>
        discard_keeps carried _ (carried.emit _ rfl)
  | .element array index =>
      exact bind_keeps carried _ _ (widen_keeps carried value _) fun _ =>
        discard_keeps carried _ (carried.emit _ rfl)

theorem assignment_keeps (target source : Node) : Keeps relation (assignment target source) := by
  apply bind_keeps carried _ _ (value_of_keeps carried source)
  intro value
  exact bind_keeps carried _ _ (destination_keeps carried target) (store_keeps carried value)

theorem returned_keeps (node : Node) : Keeps relation (returned node) := by
  apply bind_keeps carried _ _ (value_of_keeps carried node)
  intro value
  apply bind_keeps carried returnType? _ carried.refl
  intro ty
  cases ty with
  | none => exact pure_keeps carried value
  | some ty => exact widen_keeps carried value ty

end Carried

end Lower

end ThreeAddress
