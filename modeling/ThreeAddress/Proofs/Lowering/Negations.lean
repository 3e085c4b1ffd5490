import ThreeAddress.Proofs.Lowering.Evaluable
import ThreeAddress.Proofs.Lowering.Steps

set_option autoImplicit false

/-!
Negations and the widths of their operands. A negation is computed at the type of its node, and an
operand that is wider is cut without a cast. Where this happens is seen from the tree alone, as the
types of all values are.
-/

namespace ThreeAddress

def ValueType.widened (ty wanted : ValueType) : ValueType := if ty.widensTo wanted then wanted else ty

namespace UnaryOperator

def resultType (operator : UnaryOperator) (ty operand : ValueType) : ValueType :=
  match operator with
  | .plus => operand.widened ty
  | .not | .minus | .coercion => (Lower.scalar? ty).getD operand

def fits (operator : UnaryOperator) (ty operand : ValueType) : Bool :=
  match operator with
  | .not | .minus => operand.bytes ≤ (operator.resultType ty operand).bytes
  | .plus | .coercion => true

end UnaryOperator

namespace Node

def valueType : Node → ValueType
  | .constant _ _ literal => literal.ty
  | .unary kind ty child =>
    match kind with
    | .unary operator => operator.resultType ty child.valueType
    | _ => ty
  | .binary kind ty left right =>
    match kind with
    | .relational _ => .bool
    | .arithmetic _ => Lower.operationType (Lower.scalar? ty) left.valueType right.valueType
    | .elementRead => left.ty.element?.getD ty
    | .call => left.ty
    | _ => ty
  | .leaf _ ty | .symbol _ ty _ => ty

def negationsFit : Node → Bool
  | .unary kind ty child =>
    match kind with
    | .unary operator => child.negationsFit && operator.fits ty child.valueType
    | _ => true
  | .binary kind _ left right =>
    match kind with
    | .relational _ | .arithmetic _ | .arguments => left.negationsFit && right.negationsFit
    | .elementRead | .elementWrite | .call => right.negationsFit
    | _ => true
  | _ => true

theorem empty_fits (node : Node) (empty : node.kind = .empty) : node.negationsFit = true := by
  cases node <;> simp_all [negationsFit, kind]

end Node

def Statement.negationFits (statement : Statement) : Bool :=
  match statement.opcode with
  | .unary _ => statement.first.any fun operand => operand.ty.bytes ≤ statement.width.bytes
  | _ => true

theorem Statement.negation_fits_iff (statement : Statement) (operator : UnaryOp)
    (negation : statement.opcode = .unary operator) :
    statement.negationFits = true ↔
      ∃ operand, statement.first = some operand ∧ operand.ty.bytes ≤ statement.width.bytes := by
  cases first : statement.first <;> simp [negationFits, negation, first]

def Program.negationsFit (program : Program) : Bool := program.statements.all Statement.negationFits

theorem Program.negations_fit_iff (program : Program) :
    program.negationsFit = true ↔
      ∀ line statement operator, program.get? line = some statement → statement.opcode = .unary operator →
        ∃ operand, statement.first = some operand ∧ operand.ty.bytes ≤ statement.width.bytes := by
  rw [negationsFit, List.all_eq_true]
  constructor
  · intro fits line statement operator found negation
    exact (statement.negation_fits_iff operator negation).mp (fits statement (List.mem_of_getElem? found))
  · intro fits statement member
    obtain ⟨line, found⟩ := List.mem_iff_getElem?.mp member
    cases opcode : statement.opcode with
    | unary operator =>
        exact (statement.negation_fits_iff operator opcode).mpr (fits line statement operator found opcode)
    | _ => simp [Statement.negationFits, opcode]

namespace Lower

variable {α β : Type}

/-- The negations that an action adds to the program fit under this condition and no other, and what
it returns is as described. -/
def Yields (good : Bool) (action : Lower α) (post : α → Prop) : Prop :=
  ∀ state a after, action state = .ok a after →
    after.program.negationsFit = (state.program.negationsFit && good) ∧ post a

theorem yields_weaken (good : Bool) (action : Lower α) (post other : α → Prop) (yields : Yields good action post)
    (weaker : ∀ a, post a → other a) : Yields good action other := by
  intro state a after ran
  obtain ⟨fits, holds⟩ := yields state a after ran
  exact ⟨fits, weaker a holds⟩

theorem yields_bind (good more : Bool) (action : Lower α) (next : α → Lower β) (between : α → Prop) (post : β → Prop)
    (first : Yields good action between) (rest : ∀ a, between a → Yields more (next a) post) :
    Yields (good && more) (action >>= next) post := by
  intro state b after ran
  obtain ⟨a, middle, early, late⟩ := (bind_ok action next state after b).mp ran
  obtain ⟨fits, holds⟩ := first state a middle early
  obtain ⟨further, last⟩ := rest a holds middle b after late
  exact ⟨by rw [further, fits, Bool.and_assoc], last⟩

theorem yields_then (good : Bool) (action : Lower α) (next : α → Lower β) (between : α → Prop) (post : β → Prop)
    (first : Yields good action between) (rest : ∀ a, between a → Yields true (next a) post) :
    Yields good (action >>= next) post := by
  rw [← Bool.and_true good]
  exact yields_bind good true action next between post first rest

theorem yields_after (good : Bool) (action : Lower α) (next : α → Lower β) (between : α → Prop) (post : β → Prop)
    (first : Yields true action between) (rest : ∀ a, between a → Yields good (next a) post) :
    Yields good (action >>= next) post :=
  yields_bind true good action next between post first rest

theorem yields_look (action : Lower α) (post : α → Prop)
    (looks : ∀ state a after, action state = .ok a after → after.program = state.program ∧ post a) :
    Yields true action post := by
  intro state a after ran
  obtain ⟨same, holds⟩ := looks state a after ran
  exact ⟨by rw [same, Bool.and_true], holds⟩

theorem yields_pure (a : α) (post : α → Prop) (holds : post a) : Yields true (pure a : Lower α) post := by
  apply yields_look
  intro state b after ran
  obtain ⟨rfl, rfl⟩ := (pure_ok a b state after).mp ran
  exact ⟨rfl, holds⟩

theorem yields_ask (action : Lower α) (answer : Lowering → α)
    (asks : ∀ state, action state = .ok (answer state) state) : Yields true action fun _ => True := by
  apply yields_look
  intro state a after ran
  obtain ⟨_, rfl⟩ := EStateM.Result.ok.inj ((asks state).symm.trans ran)
  exact ⟨rfl, trivial⟩

theorem yields_throw (good : Bool) (cause : LoweringError) (post : α → Prop) :
    Yields good (throw cause : Lower α) post := by
  intro state a after ran
  cases ran

theorem yields_map (good : Bool) (change : α → β) (action : Lower α) (between : α → Prop) (post : β → Prop)
    (yields : Yields good action between) (holds : ∀ a, between a → post (change a)) :
    Yields good (change <$> action) post := by
  rw [map_eq_pure_bind]
  exact yields_then good action _ between post yields fun a kept => yields_pure _ post (holds a kept)

theorem yields_discard (good : Bool) (action : Lower α) (between : α → Prop) (yields : Yields good action between) :
    Yields good (discard action) fun _ => True :=
  yields_map good (Function.const α PUnit.unit) action between _ yields fun _ _ => trivial

theorem yields_allocate (allocation : Allocation) (ty : ValueType) :
    Yields true (allocate allocation ty) fun ref => ref.ty = ty := by
  apply yields_look
  intro state ref after ran
  obtain ⟨_, _, _, rfl, _, program⟩ := allocate_pushes allocation ty state after ref ran
  exact ⟨program, rfl⟩

theorem yields_line (statement : Statement) :
    Yields statement.negationFits (discard (emit statement)) fun _ => True := by
  intro state _ after ran
  obtain ⟨line, emitted⟩ := (discard_ok _ state after _).mp ran
  obtain ⟨_, _, rfl⟩ := (emit_ok statement state after line).mp emitted
  simp [Program.negationsFit]

theorem yields_computed (good : Bool) (ty : ValueType) (statement : SymbolRef → Statement)
    (fits : ∀ result, (statement result).negationFits = good) :
    Yields good (do
      let result ← freshTemporary ty
      discard (emit (statement result))
      return Operand.symbol result) fun operand => operand.ty = ty := by
  apply yields_after good _ _ _ _ (yields_allocate .temporary ty)
  intro result same
  rw [← fits result]
  exact yields_then _ _ _ _ _ (yields_line (statement result)) fun _ _ => yields_pure _ _ same

theorem yields_coerce (value : Operand) (ty : ValueType) :
    Yields true (coerce value ty) fun operand => operand.ty = ty :=
  yields_computed true ty _ fun _ => rfl

theorem yields_widen (value : Operand) (ty : ValueType) :
    Yields true (widen value ty) fun wide => wide.ty = value.ty.widened ty := by
  rw [widen, ValueType.widened]
  by_cases wider : value.ty.widensTo ty = true
  · rw [if_pos wider, if_pos wider]
    exact yields_coerce value ty
  · rw [if_neg wider, if_neg wider]
    exact yields_pure value _ rfl

section Operators

variable (goodLeft goodRight : Bool) (left right : Lower Operand) (tyLeft tyRight : ValueType)
  (first : Yields goodLeft left fun operand => operand.ty = tyLeft)
  (second : Yields goodRight right fun operand => operand.ty = tyRight)

include first second

theorem yields_operands (wanted : Option ValueType) :
    Yields (goodLeft && goodRight) (operands wanted left right) fun triple =>
      triple.2.2 = operationType wanted tyLeft tyRight := by
  apply yields_bind _ _ _ _ _ _ first
  rintro a rfl
  apply yields_then _ _ _ _ _ second
  rintro b rfl
  apply yields_after true _ _ _ _ (yields_widen a _)
  intro wide _
  exact yields_map true _ _ _ _ (yields_widen b _) fun _ _ => rfl

theorem yields_combination (combination : Combination) :
    Yields (goodLeft && goodRight) (combination.lower left right) fun operand =>
      operand.ty = combination.result (operationType combination.wanted tyLeft tyRight) := by
  apply yields_then _ _ _ _ _ (yields_operands goodLeft goodRight left right tyLeft tyRight first second _)
  rintro triple same
  rw [← same]
  exact yields_computed true _ _ fun _ => by cases combination <;> rfl

end Operators

theorem widened_fits (ty wanted : ValueType) :
    (ty.widened wanted).bytes ≤ wanted.bytes ↔ ty.bytes ≤ wanted.bytes := by
  unfold ValueType.widened
  split_ifs with wider
  · simp only [ValueType.widensTo, Bool.and_eq_true, decide_eq_true_eq] at wider
    exact iff_of_true (Nat.le_refl _) (Nat.le_of_lt wider.2)
  · exact Iff.rfl

theorem yields_apply_unary (operator : UnaryOp) (ty : ValueType) (value : Operand) :
    Yields (decide (value.ty.bytes ≤ ((scalar? ty).getD value.ty).bytes)) (applyUnary operator ty value) fun operand =>
      operand.ty = (scalar? ty).getD value.ty := by
  apply yields_after _ _ _ _ _ (yields_widen value _)
  intro wide same
  apply yields_computed
  intro result
  -- The type of the node decides the width, and an operand wider than that is not touched.
  simp only [Statement.negationFits, Option.any_some, same]
  exact decide_eq_decide.mpr (widened_fits value.ty _)

theorem yields_unary (operator : UnaryOperator) (ty operandTy : ValueType) (good : Bool) (value : Lower Operand)
    (yields : Yields good value fun operand => operand.ty = operandTy) :
    Yields (good && operator.fits ty operandTy) (unary operator ty value) fun operand =>
      operand.ty = operator.resultType ty operandTy := by
  apply yields_bind _ _ _ _ _ _ yields
  rintro operand rfl
  cases operator with
  | not => exact yields_apply_unary .not ty operand
  | minus => exact yields_apply_unary .neg ty operand
  | plus => exact yields_widen operand ty
  | coercion =>
      simp only [UnaryOperator.fits, UnaryOperator.resultType, scalar?]
      split
      next needed =>
        rw [if_pos needed.1]
        exact yields_coerce operand ty
      next kept =>
        apply yields_pure
        by_cases scalar : ty.isScalar = true
        · rw [if_pos scalar, Option.getD_some]
          exact Decidable.of_not_not fun other => kept ⟨scalar, other⟩
        · rw [if_neg scalar, Option.getD_none]

theorem yields_argument (good : Bool) (formal : Option ValueType) (value : Lower Operand) (post : Operand → Prop)
    (yields : Yields good value post) : Yields good (argument formal value) fun _ => True := by
  apply yields_then good value _ _ _ yields
  intro operand _
  cases formal with
  | none => exact yields_pure operand _ trivial
  | some ty => exact yields_weaken _ _ _ _ (yields_widen operand ty) fun _ _ => trivial

theorem yields_element_value (good : Bool) (kind : NodeKind) (ty : ValueType) (base : Node) (index : Lower Operand)
    (post : Operand → Prop) (yields : Yields good index post) :
    Yields good (require kind (readElement ty base index)) fun operand => operand.ty = base.ty.element?.getD ty := by
  cases named : base.reference? with
  | none =>
      rw [read_element_unnamed ty base index named, require_none]
      exact yields_throw _ _ _
  | some array =>
      rw [read_element_named ty base index array named, require_some, ← reference_ty base array named]
      apply yields_then good index _ _ _ yields
      intro subscript _
      exact yields_computed true _ _ fun _ => rfl

theorem yields_pass (values : List Operand) : Yields true (pass values) fun _ => True := by
  induction values with
  | nil => exact yields_pure () _ trivial
  | cons value rest ih => exact yields_after true _ _ _ _ (yields_line _) fun _ _ => ih

theorem yields_finish (function : SymbolRef) : Yields true (finishCall function) fun _ => True := by
  rw [finishCall]
  by_cases scalar : function.ty.isScalar = true
  · rw [if_pos scalar]
    exact yields_map true _ _ _ _ (yields_computed true _ _ fun _ => rfl) fun _ _ => trivial
  · rw [if_neg scalar]
    exact yields_after true _ _ _ _ (yields_line _) fun _ _ => yields_pure none _ trivial

theorem yields_finish_value (kind : NodeKind) (function : SymbolRef) :
    Yields true (require kind (finishCall function)) fun operand => operand.ty = function.ty := by
  rw [finishCall]
  by_cases scalar : function.ty.isScalar = true
  · rw [if_pos scalar, require_some]
    exact yields_computed true _ _ fun _ => rfl
  · rw [if_neg scalar, require_bind, require_none]
    exact yields_after true _ _ _ _ (yields_line _) fun _ _ => yields_throw _ _ _

section Calls

variable (good : Bool) (callee : Node) (list : List ValueType → Lower (List Operand))
  (yields : ∀ formals, Yields good (list formals) fun _ => True)

include yields

theorem yields_prepared (function : SymbolRef) (rest : Lower α) (post : α → Prop) (finish : Yields true rest post) :
    Yields good (do
      let formals ← parameterTypes function.id
      let actuals ← list formals
      pass actuals
      rest) post := by
  apply yields_after good _ _ _ _ (yields_ask (parameterTypes function.id) _ fun _ => rfl)
  intro formals _
  apply yields_then good _ _ _ _ (yields formals)
  intro actuals _
  exact yields_after true _ _ _ _ (yields_pass actuals) fun _ _ => finish

theorem yields_call : Yields (callee.symbol?.isNone || good) (callWith callee list) fun _ => True := by
  -- Without a name to call, nothing is computed.
  have named := reference_isSome callee
  cases reference : callee.reference? with
  | none =>
      rw [reference, Option.isSome_none, eq_comm, Option.isSome_eq_false_iff] at named
      rw [call_with_unnamed callee list reference, named, Bool.true_or]
      exact yields_pure none _ trivial
  | some function =>
      rw [reference, Option.isSome_some, eq_comm, ← Option.isNone_eq_false_iff] at named
      rw [call_with_named callee list function reference, named, Bool.false_or]
      exact yields_prepared good list yields function _ _ (yields_finish function)

theorem yields_call_value (kind : NodeKind) :
    Yields good (require kind (callWith callee list)) fun operand => operand.ty = callee.ty := by
  cases reference : callee.reference? with
  | none =>
      rw [call_with_unnamed callee list reference, require_none]
      exact yields_throw _ _ _
  | some function =>
      rw [call_with_named callee list function reference, ← reference_ty callee function reference]
      simp only [require_bind]
      exact yields_prepared good list yields function _ _ (yields_finish_value kind function)

end Calls

def ValueYields (node : Node) : Prop :=
  Yields node.negationsFit (valueOf node) fun operand => operand.ty = node.valueType

def ArgumentsYield (node : Node) : Prop :=
  ∀ formals, Yields node.negationsFit (argumentsOf node formals) fun _ => True

theorem yields_missing (node : Node) (none : value node = pure none) : ValueYields node := by
  rw [ValueYields, valueOf, none, require_none]
  exact yields_throw _ _ _

theorem yields_arguments (node : Node) (formals : List ValueType) (value : ValueYields node)
    (list : node.kind = .arguments → Yields node.negationsFit (arguments node formals) fun _ => True) :
    Yields node.negationsFit (argumentsOf node formals) fun _ => True := by
  unfold argumentsOf argumentsFrom
  split
  next empty =>
    rw [node.empty_fits empty]
    exact yields_pure [] _ trivial
  next listed => exact list listed
  next =>
    exact yields_map _ _ _ _ _ (yields_argument _ formals.head? _ _ value) fun _ _ => trivial

theorem unpaired_yields (node : Node) (unpaired : node.children? = none) (value : ValueYields node) :
    ValueYields node ∧ ArgumentsYield node := by
  refine ⟨value, fun formals => yields_arguments node formals value ?_⟩
  intro listed
  have none : arguments node formals = pure [] ∧ node.negationsFit = true := by
    cases node with
    | binary kind ty left right => cases unpaired
    | _ => simp_all [arguments, Node.negationsFit, Node.kind]
  rw [none.1, none.2]
  exact yields_pure [] _ trivial

theorem unary_value_yields (kind : NodeKind) (ty : ValueType) (child : Node) (operand : ValueYields child) :
    ValueYields (.unary kind ty child) := by
  cases kind with
  | unary operator =>
      rw [ValueYields, value_of_unary]
      exact yields_unary operator ty _ _ _ operand
  | _ => exact yields_missing _ rfl

theorem binary_value_yields (kind : NodeKind) (ty : ValueType) (left right : Node) (first : ValueYields left)
    (second : ValueYields right) (list : ArgumentsYield right) : ValueYields (.binary kind ty left right) := by
  cases kind with
  | relational relation =>
      rw [ValueYields, value_of_relational, Combination.lower_compare]
      exact yields_combination _ _ _ _ _ _ first second _
  | arithmetic operator =>
      rw [ValueYields, value_of_arithmetic, Combination.lower_compute]
      exact yields_combination _ _ _ _ _ _ first second _
  | elementRead => exact yields_element_value _ .elementRead ty left _ _ second
  | call => exact yields_call_value _ left _ list .call
  | _ => exact yields_missing _ rfl

theorem value_yields (node : Node) : ValueYields node ∧ ArgumentsYield node := by
  induction node with
  | leaf kind ty => exact unpaired_yields (.leaf kind ty) rfl (yields_missing _ rfl)
  | constant kind ty literal =>
      apply unpaired_yields (.constant kind ty literal) rfl
      by_cases number : kind = .number
      · subst number
        exact yields_pure _ _ rfl
      · exact yields_missing _ (by rw [value, if_neg number])
  | symbol kind ty id =>
      apply unpaired_yields (.symbol kind ty id) rfl
      by_cases identifier : kind = .identifier
      · subst identifier
        exact yields_pure _ _ rfl
      · exact yields_missing _ (by rw [value, if_neg identifier])
  | unary kind ty child ih =>
      exact unpaired_yields (.unary kind ty child) rfl (unary_value_yields kind ty child ih.1)
  | binary kind ty left right ihLeft ihRight =>
      have value := binary_value_yields kind ty left right ihLeft.1 ihRight.1 ihRight.2
      refine ⟨value, fun formals => yields_arguments _ formals value ?_⟩
      intro listed
      obtain rfl : kind = .arguments := listed
      apply yields_bind _ _ _ _ _ _ (yields_argument _ formals.head? _ _ ihLeft.1)
      intro _ _
      exact yields_map _ _ _ _ _ (ihRight.2 formals.tail) fun _ _ => trivial

end Lower

end ThreeAddress
