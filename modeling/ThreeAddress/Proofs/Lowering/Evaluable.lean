import ThreeAddress.Proofs.Lowering.Decisions

set_option autoImplicit false

namespace ThreeAddress

inductive Evaluable : Node → Prop where
  | number (ty : ValueType) (literal : Immediate) : Evaluable (.constant .number ty literal)
  | identifier (ty : ValueType) (id : SymbolId) : Evaluable (.symbol .identifier ty id)
  | unary (operator : UnaryOperator) (ty : ValueType) (child : Node) (operand : Evaluable child) :
      Evaluable (.unary (.unary operator) ty child)
  | relational (relation : Relation) (ty : ValueType) (left right : Node) (first : Evaluable left)
      (second : Evaluable right) : Evaluable (.binary (.relational relation) ty left right)
  | arithmetic (operator : ArithmeticOperator) (ty : ValueType) (left right : Node) (first : Evaluable left)
      (second : Evaluable right) : Evaluable (.binary (.arithmetic operator) ty left right)
  | element (ty : ValueType) (base index : Node) (named : base.symbol?.isSome = true)
      (value : Evaluable index) : Evaluable (.binary .elementRead ty base index)
  | call (ty : ValueType) (callee list : Node) (named : callee.symbol?.isSome = true)
      (scalar : callee.ty.isScalar = true)
      (arguments : ∀ item ∈ list.items .arguments, Evaluable item) :
      Evaluable (.binary .call ty callee list)

section Parts

variable (ty : ValueType) (left right : Node)

theorem evaluable_unary (operator : UnaryOperator) (child : Node) :
    Evaluable (.unary (.unary operator) ty child) ↔ Evaluable child := by
  constructor
  · intro evaluable
    cases evaluable with
    | unary _ _ _ operand => exact operand
  · exact .unary operator ty child

theorem evaluable_relational (relation : Relation) :
    Evaluable (.binary (.relational relation) ty left right) ↔ Evaluable left ∧ Evaluable right := by
  constructor
  · intro evaluable
    cases evaluable with
    | relational _ _ _ _ first second => exact ⟨first, second⟩
  · rintro ⟨first, second⟩
    exact .relational relation ty left right first second

theorem evaluable_arithmetic (operator : ArithmeticOperator) :
    Evaluable (.binary (.arithmetic operator) ty left right) ↔ Evaluable left ∧ Evaluable right := by
  constructor
  · intro evaluable
    cases evaluable with
    | arithmetic _ _ _ _ first second => exact ⟨first, second⟩
  · rintro ⟨first, second⟩
    exact .arithmetic operator ty left right first second

theorem evaluable_element :
    Evaluable (.binary .elementRead ty left right) ↔ left.symbol?.isSome = true ∧ Evaluable right := by
  constructor
  · intro evaluable
    cases evaluable with
    | element _ _ _ named value => exact ⟨named, value⟩
  · rintro ⟨named, value⟩
    exact .element ty left right named value

theorem evaluable_call :
    Evaluable (.binary .call ty left right) ↔
      left.symbol?.isSome = true ∧ left.ty.isScalar = true ∧ ∀ item ∈ right.items .arguments, Evaluable item := by
  constructor
  · intro evaluable
    cases evaluable with
    | call _ _ _ named scalar arguments => exact ⟨named, scalar, arguments⟩
  · rintro ⟨named, scalar, arguments⟩
    exact .call ty left right named scalar arguments

end Parts

namespace Lower

theorem require_some {kind : NodeKind} (action : Lower Operand) : require kind (some <$> action) = action := by
  simp [require]

theorem require_none (kind : NodeKind) : require kind (pure none) = throw (.valueExpected kind) := by
  simp [require]

theorem read_element_named (ty : ValueType) (base : Node) (index : Lower Operand) (array : SymbolRef)
    (named : base.reference? = some array) :
    readElement ty base index = some <$> (do
      let index ← index
      let result ← freshTemporary (array.ty.element?.getD ty)
      discard (emit ⟨(array.ty.element?.getD ty).width, .load, some (.symbol array), some index,
        some (.symbol result)⟩)
      return .symbol result) := by
  simp [readElement, element, named]

theorem read_element_unnamed (ty : ValueType) (base : Node) (index : Lower Operand)
    (unnamed : base.reference? = none) : readElement ty base index = pure none := by
  simp [readElement, element, unnamed]

def finishCall (function : SymbolRef) : Lower (Option Operand) :=
  if function.ty.isScalar then
    some <$> (do
      let result ← freshTemporary function.ty
      discard (emit ⟨function.ty.width, .call, some (.symbol function), none, some (.symbol result)⟩)
      return .symbol result)
  else do
    discard (emit ⟨function.ty.width, .call, some (.symbol function), none, none⟩)
    return none

theorem call_with_named (callee : Node) (list : List ValueType → Lower (List Operand)) (function : SymbolRef)
    (named : callee.reference? = some function) :
    callWith callee list = (do
      let formals ← parameterTypes function.id
      let actuals ← list formals
      pass actuals
      finishCall function) := by
  by_cases scalar : function.ty.isScalar = true
  · simp [callWith, named, scalar, finishCall]
  · simp [callWith, named, scalar, finishCall]

theorem call_with_unnamed (callee : Node) (list : List ValueType → Lower (List Operand))
    (unnamed : callee.reference? = none) : callWith callee list = pure none := by
  simp [callWith, unnamed]

theorem require_bind {α : Type} (kind : NodeKind) (action : Lower α) (next : α → Lower (Option Operand)) :
    require kind (action >>= next) = action >>= fun a => require kind (next a) := by
  simp [require]

theorem reference_isSome (node : Node) : node.reference?.isSome = node.symbol?.isSome := by
  rw [Node.reference?, Option.isSome_map]

theorem reference_ty (node : Node) (ref : SymbolRef) (named : node.reference? = some ref) :
    ref.ty = node.ty := by
  obtain ⟨id, _, rfl⟩ := Option.map_eq_some_iff.mp named
  rfl

theorem decides_pass (values : List Operand) : Decides True (pass values) := by
  induction values with
  | nil => exact decides_pure ()
  | cons value rest ih =>
      exact decides_then True _ _ (decides_discard True _ (decides_emit _ rfl)) fun _ => ih

theorem decides_parameter_types (id : SymbolId) : Decides True (parameterTypes id) := fun state inside =>
  ⟨fun _ => ⟨_, state, rfl, inside⟩, fun never => absurd trivial never⟩

theorem decides_argument (formal : Option ValueType) (value : Lower Operand) (good : Prop)
    (decides : Decides good value) : Decides good (argument formal value) := by
  apply decides_then good value _ decides
  intro a
  cases formal with
  | none => exact decides_pure a
  | some ty => exact decides_widen a ty

theorem decides_element_value (kind : NodeKind) (ty : ValueType) (base : Node) (index : Lower Operand)
    (good : Prop) (decides : Decides good index) :
    Decides (base.symbol?.isSome = true ∧ good) (require kind (readElement ty base index)) := by
  rw [← reference_isSome]
  cases named : base.reference? with
  | none =>
      rw [read_element_unnamed ty base index named, require_none]
      exact decides_congr False _ (by simp) _ (decides_throw _ trivial)
  | some array =>
      rw [read_element_named ty base index array named, require_some]
      apply decides_congr good _ (by simp)
      apply decides_then good index _ decides
      intro a
      exact decides_then True _ _ (decides_allocate .temporary _) fun _ => decides_computed _ rfl _

theorem decides_prepared {α : Type} (function : SymbolRef) (list : List ValueType → Lower (List Operand))
    (rest : Lower α) (good last : Prop) (decides : ∀ formals, Decides good (list formals))
    (finish : Decides last rest) :
    Decides (good ∧ last) (do
      let formals ← parameterTypes function.id
      let actuals ← list formals
      pass actuals
      rest) := by
  apply decides_after _ _ _ (decides_parameter_types function.id)
  intro formals
  apply decides_bind good last _ _ (decides formals)
  intro actuals
  exact decides_after last _ _ (decides_pass actuals) fun _ => finish

theorem decides_finish (function : SymbolRef) : Decides True (finishCall function) := by
  rw [finishCall]
  by_cases scalar : function.ty.isScalar = true
  · rw [if_pos scalar]
    apply decides_map True
    exact decides_then True _ _ (decides_allocate .temporary _) fun _ => decides_computed _ rfl _
  · rw [if_neg scalar]
    exact decides_computed _ rfl none

theorem decides_finish_value (kind : NodeKind) (function : SymbolRef) :
    Decides (function.ty.isScalar = true) (require kind (finishCall function)) := by
  rw [finishCall]
  by_cases scalar : function.ty.isScalar = true
  · rw [if_pos scalar, require_some]
    apply decides_congr True _ (by simp [scalar])
    exact decides_then True _ _ (decides_allocate .temporary _) fun _ => decides_computed _ rfl _
  · rw [if_neg scalar, require_bind, require_none]
    apply decides_congr False _ (by simp [scalar])
    exact decides_after False _ _ (decides_discard True _ (decides_emit _ rfl)) fun _ =>
      decides_throw _ trivial

theorem decides_call (callee : Node) (list : List ValueType → Lower (List Operand)) (good : Prop)
    (decides : ∀ formals, Decides good (list formals)) :
    Decides (callee.symbol?.isSome = true → good) (callWith callee list) := by
  rw [← reference_isSome]
  cases named : callee.reference? with
  | none =>
      rw [call_with_unnamed callee list named]
      exact decides_congr True _ (by simp) _ (decides_pure none)
  | some function =>
      rw [call_with_named callee list function named]
      exact decides_congr (good ∧ True) _ (by simp) _
        (decides_prepared function list _ good True decides (decides_finish function))

theorem decides_call_value (kind : NodeKind) (callee : Node) (list : List ValueType → Lower (List Operand))
    (good : Prop) (decides : ∀ formals, Decides good (list formals)) :
    Decides (callee.symbol?.isSome = true ∧ callee.ty.isScalar = true ∧ good)
      (require kind (callWith callee list)) := by
  rw [← reference_isSome]
  cases named : callee.reference? with
  | none =>
      rw [call_with_unnamed callee list named, require_none]
      exact decides_congr False _ (by simp) _ (decides_throw _ trivial)
  | some function =>
      rw [call_with_named callee list function named, ← reference_ty callee function named]
      simp only [require_bind]
      exact decides_congr (good ∧ function.ty.isScalar = true) _ (by simp [and_comm]) _
        (decides_prepared function list _ good _ decides (decides_finish_value kind function))

theorem items_empty (kind : NodeKind) (node : Node) (empty : node.kind = .empty) : node.items kind = [] := by
  cases node <;> simp_all [Node.items, Node.kind]

theorem items_other (kind : NodeKind) (node : Node) (filled : node.kind ≠ .empty) (other : node.kind ≠ kind) :
    node.items kind = [node] := by
  cases node <;> simp_all [Node.items, Node.kind]

theorem decides_arguments (node : Node) (formals : List ValueType)
    (value : Decides (Evaluable node) (valueOf node))
    (list : node.kind = .arguments →
      Decides (∀ item ∈ node.items .arguments, Evaluable item) (arguments node formals)) :
    Decides (∀ item ∈ node.items .arguments, Evaluable item) (argumentsOf node formals) := by
  unfold argumentsOf argumentsFrom
  split
  next empty =>
    rw [items_empty .arguments node empty]
    exact decides_congr True _ (by simp) _ (decides_pure [])
  next listed => exact list listed
  next filled other =>
    rw [items_other .arguments node filled other]
    apply decides_congr (Evaluable node) _ (by simp)
    exact decides_map _ _ _ (decides_argument formals.head? _ _ value)

theorem value_of_unary (operator : UnaryOperator) (ty : ValueType) (child : Node) :
    valueOf (.unary (.unary operator) ty child) = unary operator ty (valueOf child) := by
  rw [valueOf, value, require_some]
  rfl

theorem relational_value (relation : Relation) (ty : ValueType) (left right : Node) :
    value (.binary (.relational relation) ty left right) =
      some <$> comparison relation (valueOf left) (valueOf right) := by
  rw [value]
  rfl

theorem value_of_relational (relation : Relation) (ty : ValueType) (left right : Node) :
    valueOf (.binary (.relational relation) ty left right) = comparison relation (valueOf left) (valueOf right) := by
  rw [valueOf, relational_value, require_some]

theorem value_of_arithmetic (operator : ArithmeticOperator) (ty : ValueType) (left right : Node) :
    valueOf (.binary (.arithmetic operator) ty left right) =
      arithmetic operator ty (valueOf left) (valueOf right) := by
  rw [valueOf, value, require_some]
  rfl

theorem decides_missing (node : Node) (absent : ¬ Evaluable node) (none : value node = pure none) :
    Decides (Evaluable node) (valueOf node) := by
  rw [valueOf, none, require_none]
  exact decides_congr False _ (iff_of_false id absent) _ (decides_throw (.valueExpected node.kind) trivial)

theorem decides_unary_value (kind : NodeKind) (ty : ValueType) (child : Node)
    (operand : Decides (Evaluable child) (valueOf child)) :
    Decides (Evaluable (.unary kind ty child)) (valueOf (.unary kind ty child)) := by
  by_cases operator : ∃ operator, kind = .unary operator
  · obtain ⟨operator, rfl⟩ := operator
    rw [value_of_unary]
    exact decides_congr (Evaluable child) _ (evaluable_unary ty operator child).symm _
      (decides_unary operator ty _ _ operand)
  · apply decides_missing
    · intro evaluable
      cases evaluable with
      | unary operator' _ _ _ => exact operator ⟨operator', rfl⟩
    · unfold value
      split
      next operator' => exact absurd ⟨operator', rfl⟩ operator
      next => rfl

theorem decides_binary_value (kind : NodeKind) (ty : ValueType) (left right : Node)
    (first : Decides (Evaluable left) (valueOf left)) (second : Decides (Evaluable right) (valueOf right))
    (list : ∀ formals, Decides (∀ item ∈ right.items .arguments, Evaluable item) (argumentsOf right formals)) :
    Decides (Evaluable (.binary kind ty left right)) (valueOf (.binary kind ty left right)) := by
  cases kind with
  | relational relation =>
      rw [value_of_relational, Combination.lower_compare]
      exact decides_congr _ _ (evaluable_relational ty left right relation).symm _
        (decides_combination _ _ _ _ _ first second)
  | arithmetic operator =>
      rw [value_of_arithmetic, Combination.lower_compute]
      exact decides_congr _ _ (evaluable_arithmetic ty left right operator).symm _
        (decides_combination _ _ _ _ _ first second)
  | elementRead =>
      exact decides_congr _ _ (evaluable_element ty left right).symm _
        (decides_element_value .elementRead ty left _ _ second)
  | call =>
      exact decides_congr _ _ (evaluable_call ty left right).symm _ (decides_call_value .call left _ _ list)
  | _ => exact decides_missing _ (by intro evaluable; cases evaluable) rfl

theorem decides_unpaired (node : Node) (unpaired : node.children? = none)
    (value : Decides (Evaluable node) (valueOf node)) :
    Decides (Evaluable node) (valueOf node) ∧
      ∀ formals, Decides (∀ item ∈ node.items .arguments, Evaluable item) (argumentsOf node formals) := by
  refine ⟨value, fun formals => decides_arguments node formals value ?_⟩
  intro listed
  have none : arguments node formals = pure [] := by
    cases node with
    | binary kind ty left right => cases unpaired
    | _ => rfl
  have items : node.items .arguments = [] := by
    cases node with
    | binary kind ty left right => cases unpaired
    | _ => simp_all [Node.items, Node.kind]
  rw [none, items]
  exact decides_congr True _ (by simp) _ (decides_pure [])

theorem decides_constant_value (kind : NodeKind) (ty : ValueType) (literal : Immediate) :
    Decides (Evaluable (.constant kind ty literal)) (valueOf (.constant kind ty literal)) := by
  by_cases number : kind = .number
  · subst number
    exact decides_congr True _ (iff_of_true trivial (.number ty literal)) _ (decides_pure _)
  · apply decides_missing
    · intro evaluable
      cases evaluable
      exact number rfl
    · rw [value, if_neg number]

theorem decides_symbol_value (kind : NodeKind) (ty : ValueType) (id : SymbolId) :
    Decides (Evaluable (.symbol kind ty id)) (valueOf (.symbol kind ty id)) := by
  by_cases identifier : kind = .identifier
  · subst identifier
    exact decides_congr True _ (iff_of_true trivial (.identifier ty id)) _ (decides_pure _)
  · apply decides_missing
    · intro evaluable
      cases evaluable
      exact identifier rfl
    · rw [value, if_neg identifier]

theorem decides_value (node : Node) :
    Decides (Evaluable node) (valueOf node) ∧
      ∀ formals, Decides (∀ item ∈ node.items .arguments, Evaluable item) (argumentsOf node formals) := by
  induction node with
  | leaf kind ty =>
      apply decides_unpaired (.leaf kind ty) rfl
      exact decides_missing _ (by intro evaluable; cases evaluable) rfl
  | constant kind ty literal =>
      exact decides_unpaired (.constant kind ty literal) rfl (decides_constant_value kind ty literal)
  | symbol kind ty id => exact decides_unpaired (.symbol kind ty id) rfl (decides_symbol_value kind ty id)
  | unary kind ty child ih =>
      exact decides_unpaired (.unary kind ty child) rfl (decides_unary_value kind ty child ih.1)
  | binary kind ty left right ihLeft ihRight =>
      have value := decides_binary_value kind ty left right ihLeft.1 ihRight.1 ihRight.2
      refine ⟨value, fun formals => decides_arguments _ formals value ?_⟩
      intro listed
      obtain rfl : kind = .arguments := listed
      have items : (Node.binary .arguments ty left right).items .arguments =
          left :: right.items .arguments := by simp [Node.items]
      rw [items]
      apply decides_congr (Evaluable left ∧ ∀ item ∈ right.items .arguments, Evaluable item) _ (by simp)
      apply decides_bind _ _ _ _ (decides_argument formals.head? _ _ ihLeft.1)
      intro a
      exact decides_map _ _ _ (ihRight.2 formals.tail)

end Lower

end ThreeAddress
