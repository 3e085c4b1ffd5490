import ThreeAddress.Proofs.Lowering.Extents
import ThreeAddress.Proofs.Lowering.Visits

set_option autoImplicit false

namespace ThreeAddress

theorem Width.bytes_injective (first second : Width) (same : first.bytes = second.bytes) : first = second := by
  cases first <;> cases second <;> first | rfl | cases same

namespace ValueType

theorem scalar_bytes (ty : ValueType) (scalar : ty.isScalar = true) : ty.bytes ≤ 4 := by
  cases ty <;> first | decide | cases scalar

theorem common_scalar (left right : ValueType) (scalarLeft : left.isScalar = true)
    (scalarRight : right.isScalar = true) :
    (left.common right).isScalar = true ∧ left.bytes ≤ (left.common right).bytes ∧
      right.bytes ≤ (left.common right).bytes := by
  have boundLeft := scalar_bytes left scalarLeft
  have boundRight := scalar_bytes right scalarRight
  unfold common
  split_ifs with same unsigned
  · subst same
    exact ⟨scalarLeft, Nat.le_refl _, Nat.le_refl _⟩
  · exact ⟨rfl, boundLeft, boundRight⟩
  · exact ⟨rfl, boundLeft, boundRight⟩

theorem element_scalar (array ty : ValueType) (element : array.element? = some ty) : ty.isScalar = true := by
  cases array <;> cases element <;> rfl

end ValueType

namespace Lower

theorem operation_type_scalar (wanted : Option ValueType) (left right : ValueType)
    (scalars : ∀ ty, wanted = some ty → ty.isScalar = true) (scalarLeft : left.isScalar = true)
    (scalarRight : right.isScalar = true) :
    (operationType wanted left right).isScalar = true ∧ left.bytes ≤ (operationType wanted left right).bytes ∧
      right.bytes ≤ (operationType wanted left right).bytes := by
  have common := ValueType.common_scalar left right scalarLeft scalarRight
  cases wanted with
  | none => exact common
  | some ty =>
      have further := ValueType.common_scalar ty (left.common right) (scalars ty rfl) common.1
      simp only [operationType]
      split_ifs with enough
      · exact ⟨scalars ty rfl, by lia, by lia⟩
      · exact ⟨further.1, by lia, by lia⟩

theorem scalar_type (ty other : ValueType) (same : scalar? ty = some other) : other.isScalar = true := by
  unfold scalar? at same
  split_ifs at same with scalar
  exact Option.some.inj same ▸ scalar

theorem wanted_scalar (combination : Combination) (ty : ValueType) (same : combination.wanted = some ty) :
    ty.isScalar = true := by
  cases combination with
  | compare relation => cases same
  | compute operator wanted => exact scalar_type wanted ty same

end Lower

/-- The widths that a statement asks of its operands, in a function that returns this type. -/
def Statement.Covered (returns : ValueType) (statement : Statement) : Prop :=
  match statement.opcode with
  | .binary _ =>
    ∃ left right result, statement.first = some left ∧ statement.second = some right ∧
      statement.result = some result ∧ left.ty.width = statement.width ∧ right.ty.width = statement.width ∧
      result.ty.width = statement.width
  | .setIf _ | .jumpIf _ =>
    ∃ left right, statement.first = some left ∧ statement.second = some right ∧
      left.ty.width = statement.width ∧ right.ty.width = statement.width
  | .assign | .unary _ | .jumpZero | .param | .store =>
    ∃ operand, statement.first = some operand ∧ statement.width.bytes ≤ operand.ty.bytes
  | .ret => ∀ operand, statement.first = some operand → returns.isScalar = true → returns.bytes ≤ operand.ty.bytes
  | .coerce =>
    ∃ operand result, statement.first = some operand ∧ statement.result = some result ∧
      operand.ty.bytes < result.ty.bytes
  | _ => True

namespace Lower

variable {α β : Type} {returns : ValueType} {visits : Node → Lowering → Prop}

structure Emitted (returns : ValueType) (visits : Node → Lowering → Prop) (state after : Lowering) : Prop where
  extended : ∃ code, state.Extends after code
  covered : ∀ line statement, state.program.size ≤ line → after.program.get? line = some statement →
    statement.Covered returns ∨ statement.opcode = .coerce ∧ CastAt visits line

def Emits (returns : ValueType) (visits : Node → Lowering → Prop) (action : Lower α) (state : Lowering)
    (post : α → Prop) : Prop :=
  ∀ a after, action state = .ok a after → Emitted returns visits state after ∧ post a

theorem emitted_refl (state : Lowering) : Emitted returns visits state state where
  extended := ⟨[], state.extends_refl⟩
  covered line statement above found := by
    have below := state.program.get_lt_size line statement found
    lia

theorem emitted_trans (state middle after : Lowering) (early : Emitted returns visits state middle)
    (late : Emitted returns visits middle after) : Emitted returns visits state after := by
  obtain ⟨first, extendsFirst⟩ := early.extended
  obtain ⟨second, extendsSecond⟩ := late.extended
  refine ⟨⟨first ++ second, Lowering.extends_trans state middle after first second extendsFirst extendsSecond⟩, ?_⟩
  intro line statement above found
  by_cases behind : middle.program.size ≤ line
  · exact late.covered line statement behind found
  · apply early.covered line statement above
    rw [Program.get?, extendsSecond.program, List.getElem?_append_left (Nat.lt_of_not_le behind)] at found
    exact found

theorem emitted_mono (other : Node → Lowering → Prop) (state after : Lowering)
    (included : ∀ part before, visits part before → other part before)
    (emitted : Emitted returns visits state after) : Emitted returns other state after := by
  refine ⟨emitted.extended, ?_⟩
  intro line statement above found
  exact (emitted.covered line statement above found).imp_right fun cast =>
    ⟨cast.1, cast_mono visits other included line cast.2⟩

theorem emits_mono (other : Node → Lowering → Prop) (action : Lower α) (state : Lowering) (post : α → Prop)
    (included : ∀ part before, visits part before → other part before)
    (emits : Emits returns visits action state post) : Emits returns other action state post := by
  intro a after ran
  obtain ⟨emitted, holds⟩ := emits a after ran
  exact ⟨emitted_mono other state after included emitted, holds⟩

theorem emits_weaken (action : Lower α) (state : Lowering) (post other : α → Prop) (weaker : ∀ a, post a → other a)
    (emits : Emits returns visits action state post) : Emits returns visits action state other := by
  intro a after ran
  obtain ⟨emitted, holds⟩ := emits a after ran
  exact ⟨emitted, weaker a holds⟩

theorem emits_pure (a : α) (state : Lowering) (post : α → Prop) (holds : post a) :
    Emits returns visits (pure a : Lower α) state post := by
  intro b after ran
  obtain ⟨rfl, rfl⟩ := (pure_ok a b state after).mp ran
  exact ⟨emitted_refl state, holds⟩

theorem emits_throw (cause : LoweringError) (state : Lowering) (post : α → Prop) :
    Emits returns visits (throw cause : Lower α) state post := by
  intro a after ran
  cases ran

theorem emits_bind (action : Lower α) (next : α → Lower β) (state : Lowering) (between : α → Prop) (post : β → Prop)
    (first : Emits returns visits action state between)
    (rest : ∀ a middle, action state = .ok a middle → Emitted returns visits state middle → between a →
      Emits returns visits (next a) middle post) :
    Emits returns visits (action >>= next) state post := by
  intro b after ran
  obtain ⟨a, middle, early, late⟩ := (bind_ok action next state after b).mp ran
  obtain ⟨emitted, holds⟩ := first a middle early
  obtain ⟨following, last⟩ := rest a middle early emitted holds b after late
  exact ⟨emitted_trans state middle after emitted following, last⟩

theorem emits_map (change : α → β) (action : Lower α) (state : Lowering) (between : α → Prop) (post : β → Prop)
    (emits : Emits returns visits action state between) (holds : ∀ a, between a → post (change a)) :
    Emits returns visits (change <$> action) state post := by
  rw [map_eq_pure_bind]
  exact emits_bind action _ state between post emits fun a middle _ _ kept => emits_pure _ middle post (holds a kept)

theorem emits_look (action : Lower α) (state : Lowering) (answer : α) (looks : action state = .ok answer state) :
    Emits returns visits action state fun _ => True := by
  intro a after ran
  obtain ⟨_, rfl⟩ := EStateM.Result.ok.inj (looks.symm.trans ran)
  exact ⟨emitted_refl state, trivial⟩

theorem emits_allocate (allocation : Allocation) (ty : ValueType) (state : Lowering) :
    Emits returns visits (allocate allocation ty) state fun ref => ref.ty = ty := by
  intro ref after ran
  obtain ⟨_, _, _, rfl, _, program⟩ := allocate_pushes allocation ty state after ref ran
  have unchanged : Emitted returns visits state state := emitted_refl state
  exact ⟨⟨⟨[], (allocate_extends allocation ty state after _ ran).1⟩, program ▸ unchanged.covered⟩, rfl⟩

theorem emits_fresh_label (state : Lowering) : Emits returns visits freshLabel state fun _ => True :=
  emits_weaken _ state _ _ (fun _ _ => trivial) (emits_allocate .label .void state)

theorem emits_line (statement : Statement) (state : Lowering)
    (covered : statement.Covered returns ∨ statement.opcode = .coerce ∧ CastAt visits state.program.size) :
    Emits returns visits (discard (emit statement)) state fun _ => True := by
  intro _ after ran
  obtain ⟨line, emitted⟩ := (discard_ok _ state after _).mp ran
  refine ⟨⟨⟨[statement], (emit_extends statement state after line emitted).1⟩, ?_⟩, trivial⟩
  obtain ⟨_, _, rfl⟩ := (emit_ok statement state after line).mp emitted
  intro place found above same
  rcases (Program.get_append_cases _ statement found place).mp same with old | ⟨rfl, rfl⟩
  · have below := state.program.get_lt_size place found old
    lia
  · exact covered

def Scalar (operand : Operand) : Prop := operand.ty.isScalar = true

theorem emits_computed (ty : ValueType) (statement : SymbolRef → Statement) (state : Lowering)
    (covered : ∀ result, result.ty = ty → (statement result).Covered returns ∨
      (statement result).opcode = .coerce ∧ CastAt visits state.program.size) :
    Emits returns visits (do
      let result ← freshTemporary ty
      discard (emit (statement result))
      return Operand.symbol result) state fun operand => operand.ty = ty := by
  apply emits_bind _ _ state _ _ (emits_allocate .temporary ty state)
  intro result allocated fresh _ same
  obtain ⟨_, _, _, _, _, program⟩ := allocate_pushes .temporary ty state allocated result fresh
  apply emits_bind _ _ allocated (fun _ => True) _ (emits_line _ allocated (program ▸ covered result same))
  intro _ middle _ _ _
  exact emits_pure _ middle _ same

theorem emits_coerce (value : Operand) (ty : ValueType) (state : Lowering)
    (grows : value.ty.bytes < ty.bytes ∨ CastAt visits state.program.size) :
    Emits returns visits (coerce value ty) state fun operand => operand.ty = ty := by
  apply emits_computed
  intro result same
  apply grows.imp
  · intro narrow
    refine ⟨value, .symbol result, rfl, rfl, ?_⟩
    rw [Operand.ty, same]
    exact narrow
  · exact fun cast => ⟨rfl, cast⟩

def Widened (value : Operand) (ty : ValueType) (wide : Operand) : Prop :=
  value.ty.widensTo ty = true ∧ wide.ty = ty ∨ value.ty.widensTo ty = false ∧ wide = value

theorem emits_widen (value : Operand) (ty : ValueType) (state : Lowering) :
    Emits returns visits (widen value ty) state (Widened value ty) := by
  rw [widen]
  by_cases wider : value.ty.widensTo ty = true
  · have narrow : value.ty.bytes < ty.bytes := by
      simp only [ValueType.widensTo, Bool.and_eq_true, decide_eq_true_eq] at wider
      exact wider.2
    rw [if_pos wider]
    exact emits_weaken _ state _ _ (fun wide same => Or.inl ⟨wider, same⟩)
      (emits_coerce value ty state (Or.inl narrow))
  · rw [if_neg wider]
    exact emits_pure value state _ (Or.inr ⟨by simpa using wider, rfl⟩)

section Widened

variable {value wide : Operand} {ty : ValueType} (widened : Widened value ty wide) (scalar : Scalar value)

include widened scalar

theorem widened_scalar : Scalar wide := by
  rcases widened with ⟨wider, same⟩ | ⟨_, rfl⟩
  · simp only [ValueType.widensTo, Bool.and_eq_true] at wider
    rw [Scalar, same]
    exact wider.1.2
  · exact scalar

theorem widened_reaches (known : ty.isScalar = true) : ty.bytes ≤ wide.ty.bytes := by
  rcases widened with ⟨_, same⟩ | ⟨narrow, rfl⟩
  · rw [same]
  · unfold Scalar at scalar
    simpa [ValueType.widensTo, scalar, known] using narrow

theorem widened_exact (known : ty.isScalar = true) (enough : value.ty.bytes ≤ ty.bytes) :
    wide.ty.width = ty.width := by
  have reaches := widened_reaches widened scalar known
  apply Width.bytes_injective
  rcases widened with ⟨_, same⟩ | ⟨_, rfl⟩
  · rw [same]
  · exact Nat.le_antisymm enough reaches

end Widened

def Matched (triple : Operand × Operand × ValueType) : Prop :=
  triple.2.2.isScalar = true ∧ triple.1.ty.width = triple.2.2.width ∧ triple.2.1.ty.width = triple.2.2.width

section Operators

variable (left right : Lower Operand) (state : Lowering) (first : Emits returns visits left state Scalar)
  (second : ∀ value middle, left state = .ok value middle → Emits returns visits right middle Scalar)

include first second

theorem emits_operands (wanted : Option ValueType) (scalars : ∀ ty, wanted = some ty → ty.isScalar = true) :
    Emits returns visits (operands wanted left right) state Matched := by
  apply emits_bind _ _ state _ _ first
  intro a middle ran _ scalarLeft
  apply emits_bind _ _ middle _ _ (second a middle ran)
  intro b later _ _ scalarRight
  obtain ⟨scalar, boundLeft, boundRight⟩ := operation_type_scalar wanted a.ty b.ty scalars scalarLeft scalarRight
  apply emits_bind _ _ later _ _ (emits_widen a _ later)
  intro wide last _ _ widened
  apply emits_map _ _ last _ _ (emits_widen b _ last)
  intro other following
  exact ⟨scalar, widened_exact widened scalarLeft scalar boundLeft,
    widened_exact following scalarRight scalar boundRight⟩

theorem emits_combination (combination : Combination) :
    Emits returns visits (combination.lower left right) state Scalar := by
  apply emits_bind _ _ state _ _ (emits_operands left right state first second _ (wanted_scalar combination))
  intro triple middle _ _ matched
  obtain ⟨a, b, ty⟩ := triple
  apply emits_weaken _ middle _ _ _ (emits_computed (combination.result ty) _ middle _)
  · intro operand same
    rw [Scalar, same]
    cases combination with
    | compare relation => rfl
    | compute operator wanted => exact matched.1
  · intro result same
    left
    cases combination with
    | compare relation => exact ⟨a, b, rfl, rfl, matched.2⟩
    | compute operator wanted =>
        exact ⟨a, b, .symbol result, rfl, rfl, rfl, matched.2.1, matched.2.2, congrArg ValueType.width same⟩

end Operators

theorem emits_apply_unary (operator : UnaryOp) (ty : ValueType) (value : Operand) (scalar : Scalar value)
    (state : Lowering) : Emits returns visits (applyUnary operator ty value) state Scalar := by
  have known : ((scalar? ty).getD value.ty).isScalar = true := by
    cases wanted : scalar? ty with
    | none => exact scalar
    | some other => exact scalar_type ty other wanted
  apply emits_bind _ _ state _ _ (emits_widen value _ state)
  intro wide middle _ _ widened
  apply emits_weaken _ middle _ _ _ (emits_computed _ _ middle _)
  · intro operand same
    rw [Scalar, same]
    exact known
  · intro result _
    exact Or.inl ⟨wide, rfl, widened_reaches widened scalar known⟩

theorem emits_unary (operator : UnaryOperator) (ty : ValueType) (value : Lower Operand) (state : Lowering)
    (emits : Emits returns visits value state Scalar)
    (casts : ∀ operand middle, operator = .coercion → value state = .ok operand middle → ty.isScalar = true →
      operand.ty ≠ ty → CastAt visits middle.program.size) :
    Emits returns visits (unary operator ty value) state Scalar := by
  apply emits_bind _ _ state _ _ emits
  intro operand middle ran _ scalar
  cases operator with
  | not => exact emits_apply_unary .not ty operand scalar middle
  | minus => exact emits_apply_unary .neg ty operand scalar middle
  | plus =>
      exact emits_weaken _ middle _ _ (fun wide widened => widened_scalar widened scalar)
        (emits_widen operand ty middle)
  | coercion =>
      simp only
      split
      next needed =>
        apply emits_weaken _ middle _ _ _
          (emits_coerce operand ty middle (Or.inr (casts operand middle rfl ran needed.1 needed.2)))
        intro wide same
        rw [Scalar, same]
        exact needed.1
      next => exact emits_pure operand middle _ scalar

def ScalarIfAny (found : Option Operand) : Prop := ∀ operand, found = some operand → Scalar operand

theorem emits_some (action : Lower Operand) (state : Lowering) (emits : Emits returns visits action state Scalar) :
    Emits returns visits (some <$> action) state ScalarIfAny := by
  apply emits_map some action state _ _ emits
  intro operand scalar other same
  cases same
  exact scalar

theorem emits_none (state : Lowering) : Emits returns visits (pure none) state ScalarIfAny :=
  emits_pure none state _ fun _ same => by cases same

theorem emits_require (kind : NodeKind) (value : Lower (Option Operand)) (state : Lowering)
    (emits : Emits returns visits value state ScalarIfAny) :
    Emits returns visits (require kind value) state Scalar := by
  apply emits_bind _ _ state _ _ emits
  intro found middle _ _ scalar
  cases found with
  | none => exact emits_throw _ middle _
  | some operand => exact emits_pure operand middle _ (scalar operand rfl)

theorem emits_read_element (ty : ValueType) (base : Node) (index : Lower Operand) (state : Lowering)
    (array : base.ty.isArray = true) (post : Operand → Prop)
    (emits : ∀ ref, base.reference? = some ref → Emits returns visits index state post) :
    Emits returns visits (readElement ty base index) state ScalarIfAny := by
  cases named : base.reference? with
  | none =>
      rw [read_element_unnamed ty base index named]
      exact emits_none state
  | some ref =>
      rw [← reference_ty base ref named] at array
      obtain ⟨element, found⟩ := Option.isSome_iff_exists.mp array
      rw [read_element_named ty base index ref named]
      apply emits_some
      apply emits_bind _ _ state _ _ (emits ref named)
      intro subscript middle _ _ _
      apply emits_weaken _ middle _ _ _ (emits_computed _ _ middle _)
      · intro operand same
        rw [Scalar, same, found]
        exact ValueType.element_scalar ref.ty element found
      · intro _ _
        exact Or.inl trivial

theorem emits_argument (formal : Option ValueType) (value : Lower Operand) (state : Lowering)
    (post : Operand → Prop) (emits : Emits returns visits value state post) :
    Emits returns visits (argument formal value) state fun _ => True := by
  apply emits_bind _ _ state _ _ emits
  intro operand middle _ _ _
  cases formal with
  | none => exact emits_pure operand middle _ trivial
  | some ty => exact emits_weaken _ middle _ _ (fun _ _ => trivial) (emits_widen operand ty middle)

theorem emits_pass (values : List Operand) (state : Lowering) :
    Emits returns visits (pass values) state fun _ => True := by
  induction values generalizing state with
  | nil => exact emits_pure () state _ trivial
  | cons value rest ih =>
      have passed : Statement.Covered returns ⟨value.ty.width, .param, some value, none, none⟩ :=
        ⟨value, rfl, Nat.le_refl _⟩
      apply emits_bind _ _ state (fun _ => True) _ (emits_line _ state (Or.inl passed))
      intro _ middle _ _ _
      exact ih middle

theorem emits_finish (function : SymbolRef) (state : Lowering) :
    Emits returns visits (finishCall function) state ScalarIfAny := by
  rw [finishCall]
  by_cases scalar : function.ty.isScalar = true
  · rw [if_pos scalar]
    apply emits_some
    apply emits_weaken _ state _ _ _ (emits_computed function.ty _ state _)
    · intro operand same
      rw [Scalar, same]
      exact scalar
    · intro _ _
      exact Or.inl trivial
  · rw [if_neg scalar]
    have called : Statement.Covered returns ⟨function.ty.width, .call, some (.symbol function), none, none⟩ := trivial
    apply emits_bind _ _ state (fun _ => True) _ (emits_line _ state (Or.inl called))
    intro _ middle _ _ _
    exact emits_none middle

theorem emits_call_with (callee : Node) (list : List ValueType → Lower (List Operand)) (state : Lowering)
    (emits : ∀ function, callee.reference? = some function →
      Emits returns visits (list (state.table.parameterTypes function.id)) state fun _ => True) :
    Emits returns visits (callWith callee list) state ScalarIfAny := by
  cases named : callee.reference? with
  | none =>
      rw [call_with_unnamed callee list named]
      exact emits_none state
  | some function =>
      rw [call_with_named callee list function named]
      apply emits_bind _ _ state _ _ (emits_look (parameterTypes function.id) state _ rfl)
      intro formals same looked _ _
      obtain ⟨rfl, rfl⟩ := EStateM.Result.ok.inj looked
      apply emits_bind _ _ state _ _ (emits function named)
      intro actuals middle _ _ _
      apply emits_bind _ _ middle _ _ (emits_pass actuals middle)
      intro _ last _ _ _
      exact emits_finish function last

def ValueCovered (returns : ValueType) (node : Node) : Prop :=
  node.scalars = true → ∀ state, Emits returns (Evaluates node state) (value node) state ScalarIfAny

def ArgumentsCovered (returns : ValueType) (node : Node) : Prop :=
  node.kind = .arguments → node.scalarArguments = true → ∀ formals state,
    Emits returns (EvaluatesArgument node formals state) (arguments node formals) state fun _ => True

theorem value_covered_operand (node : Node) (values : ValueCovered returns node) (scalars : node.scalars = true)
    (state : Lowering) : Emits returns (Evaluates node state) (valueOf node) state Scalar :=
  emits_require node.kind (value node) state (values scalars state)

section Operands

variable (kind : NodeKind) (ty : ValueType) (left right : Node) (operator : kind.isBinaryOperator = true)
  (scalars : (Node.binary kind ty left right).scalars = true)

include operator scalars

theorem operator_scalars : left.scalars = true ∧ right.scalars = true := by
  cases kind with
  | relational relation => simpa [Node.scalars] using scalars
  | arithmetic operation => simpa [Node.scalars] using scalars
  | _ => cases operator

theorem emits_left (values : ValueCovered returns left) (state : Lowering) :
    Emits returns (Evaluates (.binary kind ty left right) state) (valueOf left) state Scalar :=
  emits_mono _ _ state _ (fun part before => .left kind ty left right part state before operator)
    (value_covered_operand left values (operator_scalars kind ty left right operator scalars).1 state)

theorem emits_right (values : ValueCovered returns right) (state : Lowering) (first : Operand) (middle : Lowering)
    (ran : valueOf left state = .ok first middle) :
    Emits returns (Evaluates (.binary kind ty left right) state) (valueOf right) middle Scalar :=
  emits_mono _ _ middle _
    (fun part before => .right kind ty left right part first state middle before operator ran)
    (value_covered_operand right values (operator_scalars kind ty left right operator scalars).2 middle)

end Operands

section Arguments

variable (node : Node) (values : ValueCovered returns node)

include values

theorem emits_item (passed : (node.symbol?.isSome || node.scalars) = true) (state : Lowering) :
    Emits returns (Evaluates node state) (valueOf node) state fun _ => True := by
  have emits : Emits returns (Evaluates node state) (value node) state fun _ => True := by
    cases node with
    | symbol kind ty id => exact emits_pure _ state _ trivial
    | _ => exact emits_weaken _ state _ _ (fun _ _ => trivial) (values (by simpa [Node.symbol?] using passed) state)
  apply emits_bind _ _ state _ _ emits
  intro found middle _ _ _
  cases found with
  | none => exact emits_throw _ middle _
  | some operand => exact emits_pure operand middle _ trivial

theorem emits_arguments_from (lists : ArgumentsCovered returns node) (items : node.scalarItems = true)
    (formals : List ValueType) (state : Lowering) :
    Emits returns (EvaluatesArgument node formals state)
      (argumentsFrom node.kind formals (arguments node formals) (valueOf node)) state fun _ => True := by
  unfold argumentsFrom
  split
  next => exact emits_pure [] state _ trivial
  next kind => exact lists kind (by simpa [Node.scalarItems, kind] using items) formals state
  next filled single =>
    have passed : (node.symbol?.isSome || node.scalars) = true := by
      unfold Node.scalarItems at items
      split at items
      next kind => exact absurd kind single
      next => exact items
    apply emits_map _ _ state (fun _ => True) _ _ fun _ _ => trivial
    apply emits_argument formals.head? (valueOf node) state (fun _ => True)
    exact emits_mono _ _ state _ (fun part before inner => ⟨node, state, .last node formals state filled single, inner⟩)
      (emits_item node values passed state)

end Arguments

theorem unary_covered (kind : NodeKind) (ty : ValueType) (child : Node) (values : ValueCovered returns child) :
    ValueCovered returns (.unary kind ty child) := by
  -- A cast that changes the type is the only operator that may narrow its operand.
  intro scalars state
  rw [Node.scalars] at scalars
  unfold value
  split
  next operator =>
    apply emits_some
    apply emits_unary operator ty _ state
    · exact emits_mono _ _ state _ (fun part before => .operand operator ty child part state before)
        (value_covered_operand child values scalars state)
    · rintro operand middle rfl ran scalar other
      exact ⟨ty, child, state, operand, middle, .here _ state, ran, scalar, other, rfl⟩
  next => exact emits_none state

theorem binary_covered (kind : NodeKind) (ty : ValueType) (left right : Node) (first : ValueCovered returns left)
    (second : ValueCovered returns right) (lists : ArgumentsCovered returns right) :
    ValueCovered returns (.binary kind ty left right) := by
  intro scalars state
  unfold value
  split
  next relation =>
    rw [Combination.lower_compare]
    exact emits_some _ state (emits_combination _ _ state (emits_left _ ty left right rfl scalars first state)
      (emits_right _ ty left right rfl scalars second state) _)
  next operator =>
    rw [Combination.lower_compute]
    exact emits_some _ state (emits_combination _ _ state (emits_left _ ty left right rfl scalars first state)
      (emits_right _ ty left right rfl scalars second state) _)
  next =>
    simp only [Node.scalars, Bool.and_eq_true] at scalars
    apply emits_read_element ty left _ state scalars.1 Scalar
    intro array named
    exact emits_mono _ _ state _ (fun part before => .index ty left right part array state before named)
      (value_covered_operand right second scalars.2 state)
  next =>
    rw [Node.scalars_call] at scalars
    apply emits_call_with
    intro function named
    refine emits_mono _ _ state _ ?_ (emits_arguments_from right second lists scalars _ state)
    rintro part before ⟨item, middle, passes, inner⟩
    exact .argument ty left right item part function state middle before named passes inner
  next => exact emits_none state

theorem arguments_covered (kind : NodeKind) (ty : ValueType) (left right : Node) (first : ValueCovered returns left)
    (second : ValueCovered returns right) (lists : ArgumentsCovered returns right) :
    ArgumentsCovered returns (.binary kind ty left right) := by
  intro list scalars formals state
  obtain rfl : kind = .arguments := list
  rw [Node.scalar_arguments_cons, Bool.and_eq_true] at scalars
  unfold arguments
  have item := emits_mono (EvaluatesArgument (.binary .arguments ty left right) formals state) _ state _
    (fun part before inner => ⟨left, state, .first ty left right formals state, inner⟩)
    (emits_item left first scalars.1 state)
  apply emits_bind _ _ state _ _ (emits_argument formals.head? _ state _ item)
  intro passed middle ran _ _
  apply emits_map _ _ middle (fun _ => True) _ _ fun _ _ => trivial
  refine emits_mono _ _ middle _ ?_ (emits_arguments_from right second lists scalars.2 formals.tail middle)
  rintro part before ⟨item, last, passes, inner⟩
  exact ⟨item, last, .rest ty left right item formals passed state middle last ran passes, inner⟩

theorem value_arguments_covered (node : Node) : ValueCovered returns node ∧ ArgumentsCovered returns node := by
  induction node with
  | leaf kind ty =>
      refine ⟨fun _ state => ?_, fun _ _ _ state => emits_pure [] state _ trivial⟩
      unfold value
      exact emits_none state
  | constant kind ty literal =>
      refine ⟨fun _ state => ?_, fun _ _ _ state => emits_pure [] state _ trivial⟩
      unfold value
      split
      next =>
        apply emits_pure _ state
        intro operand same
        cases same
        cases literal <;> rfl
      next => exact emits_none state
  | symbol kind ty id =>
      refine ⟨fun scalars state => ?_, fun _ _ _ state => emits_pure [] state _ trivial⟩
      unfold value
      split
      next named =>
        apply emits_pure _ state
        intro operand same
        cases same
        have scalar : ty.isScalar = true := by simpa [Node.scalars, named] using scalars
        exact scalar
      next => exact emits_none state
  | unary kind ty child ih =>
      exact ⟨unary_covered kind ty child ih.1, fun _ _ _ state => emits_pure [] state _ trivial⟩
  | binary kind ty left right ihLeft ihRight =>
      exact ⟨binary_covered kind ty left right ihLeft.1 ihRight.1 ihRight.2,
        arguments_covered kind ty left right ihLeft.1 ihRight.1 ihRight.2⟩

theorem emits_value_of (node : Node) (scalars : node.scalars = true) (state : Lowering) :
    Emits returns (Evaluates node state) (valueOf node) state Scalar :=
  value_covered_operand node (value_arguments_covered node).1 scalars state

end Lower

end ThreeAddress
