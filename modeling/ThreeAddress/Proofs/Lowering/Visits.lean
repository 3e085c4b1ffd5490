import ThreeAddress.Proofs.Lowering.Discards

set_option autoImplicit false

namespace ThreeAddress

mutual

/-- Names are used at scalar types, and elements are taken of arrays. What is called, what elements
are taken of and what is passed as it is may be names of other types. -/
def Node.scalars : Node → Bool
  | .leaf _ _ | .constant _ _ _ => true
  | .symbol kind ty _ => kind ≠ .identifier || ty.isScalar
  | .unary _ _ child => child.scalars
  | .binary kind _ left right =>
    match kind with
    | .call =>
      match right.kind with
      | .arguments => right.scalarArguments
      | _ => right.symbol?.isSome || right.scalars
    | .elementRead | .elementWrite => left.ty.isArray && right.scalars
    | _ => left.scalars && right.scalars

def Node.scalarArguments : Node → Bool
  | .binary _ _ item rest =>
    (item.symbol?.isSome || item.scalars) &&
      match rest.kind with
      | .arguments => rest.scalarArguments
      | _ => rest.symbol?.isSome || rest.scalars
  | _ => true

end

def Node.scalarItems (node : Node) : Bool :=
  match node.kind with
  | .arguments => node.scalarArguments
  | _ => node.symbol?.isSome || node.scalars

theorem Node.scalars_call (ty : ValueType) (callee list : Node) :
    (Node.binary .call ty callee list).scalars = list.scalarItems := by
  rw [Node.scalars, Node.scalarItems]

theorem Node.scalar_arguments_cons (kind : NodeKind) (ty : ValueType) (item rest : Node) :
    (Node.binary kind ty item rest).scalarArguments =
      ((item.symbol?.isSome || item.scalars) && rest.scalarItems) := by
  rw [Node.scalarArguments, Node.scalarItems]

theorem Node.construct_scalars (node part : Node) (scalars : node.scalars = true)
    (inside : part ∈ node.construct.nodes) : part.scalars = true := by
  revert inside
  fun_cases Node.construct node
  all_goals simp [Construct.nodes]
  all_goals grind [Node.scalars, Node.empty]

namespace Lower

inductive Passes : Node → List ValueType → Lowering → Node → Lowering → Prop where
  | last (node : Node) (formals : List ValueType) (state : Lowering) (filled : node.kind ≠ .empty)
      (single : node.kind ≠ .arguments) : Passes node formals state node state
  | first (ty : ValueType) (item rest : Node) (formals : List ValueType) (state : Lowering) :
      Passes (.binary .arguments ty item rest) formals state item state
  | rest (ty : ValueType) (item rest part : Node) (formals : List ValueType) (value : Operand)
      (state middle before : Lowering) (lowered : argument formals.head? (valueOf item) state = .ok value middle)
      (inner : Passes rest formals.tail middle part before) :
      Passes (.binary .arguments ty item rest) formals state part before

inductive Evaluates : Node → Lowering → Node → Lowering → Prop where
  | here (node : Node) (state : Lowering) : Evaluates node state node state
  | operand (operator : UnaryOperator) (ty : ValueType) (child part : Node) (state before : Lowering)
      (inner : Evaluates child state part before) :
      Evaluates (.unary (.unary operator) ty child) state part before
  | left (kind : NodeKind) (ty : ValueType) (left right part : Node) (state before : Lowering)
      (operator : kind.isBinaryOperator = true) (inner : Evaluates left state part before) :
      Evaluates (.binary kind ty left right) state part before
  | right (kind : NodeKind) (ty : ValueType) (left right part : Node) (value : Operand)
      (state middle before : Lowering) (operator : kind.isBinaryOperator = true)
      (lowered : valueOf left state = .ok value middle) (inner : Evaluates right middle part before) :
      Evaluates (.binary kind ty left right) state part before
  | index (ty : ValueType) (base index part : Node) (array : SymbolRef) (state before : Lowering)
      (named : base.reference? = some array) (inner : Evaluates index state part before) :
      Evaluates (.binary .elementRead ty base index) state part before
  | argument (ty : ValueType) (callee list item part : Node) (function : SymbolRef) (state middle before : Lowering)
      (named : callee.reference? = some function)
      (passed : Passes list (state.table.parameterTypes function.id) state item middle)
      (inner : Evaluates item middle part before) : Evaluates (.binary .call ty callee list) state part before

inductive Visits : Node → Lowering → Node → Lowering → Prop where
  | source (ty : ValueType) (target source part : Node) (state before : Lowering)
      (inner : Evaluates source state part before) : Visits (.binary .assignment ty target source) state part before
  | subscript (ty written : ValueType) (base index source part : Node) (value : Operand)
      (state middle before : Lowering) (lowered : valueOf source state = .ok value middle)
      (inner : Evaluates index middle part before) :
      Visits (.binary .assignment ty (.binary .elementWrite written base index) source) state part before
  | call (ty : ValueType) (callee list part : Node) (state before : Lowering)
      (inner : Evaluates (.binary .call ty callee list) state part before) :
      Visits (.binary .call ty callee list) state part before
  | returned (node value part : Node) (state before : Lowering) (shape : node.construct = .ret value)
      (inner : Evaluates value state part before) : Visits node state part before
  | condition (node condition consequent part : Node) (alternative : Option Node) (otherwise : SymbolRef)
      (state labelled before : Lowering) (shape : node.construct = .conditional condition consequent alternative)
      (label : freshLabel state = .ok otherwise labelled) (inner : Evaluates condition labelled part before) :
      Visits node state part before
  | test (node condition body part : Node) (head done : SymbolRef) (state opened before : Lowering)
      (shape : node.construct = .loop condition body) (opens : Opens head done state opened)
      (inner : Evaluates condition opened part before) : Visits node state part before
  | first (node first rest part : Node) (state before : Lowering) (shape : node.construct = .sequence first rest)
      (inner : Visits first state part before) : Visits node state part before
  | rest (node first rest part : Node) (state middle before : Lowering)
      (shape : node.construct = .sequence first rest) (lowered : statement first state = .ok () middle)
      (inner : Visits rest middle part before) : Visits node state part before
  | consequent (node condition consequent part : Node) (alternative : Option Node) (otherwise : SymbolRef)
      (state labelled tested before : Lowering)
      (shape : node.construct = .conditional condition consequent alternative)
      (label : freshLabel state = .ok otherwise labelled)
      (test : jumpUnless condition otherwise labelled = .ok () tested)
      (inner : Visits consequent tested part before) : Visits node state part before
  | alternative (node condition consequent alternative part : Node) (otherwise done : SymbolRef)
      (state labelled tested joined turned before : Lowering)
      (shape : node.construct = .conditional condition consequent (some alternative))
      (label : freshLabel state = .ok otherwise labelled)
      (test : jumpUnless condition otherwise labelled = .ok () tested)
      (lowered : statement consequent tested = .ok () joined) (turns : Turns otherwise done joined turned)
      (inner : Visits alternative turned part before) : Visits node state part before
  | body (node condition body part : Node) (head done : SymbolRef) (state opened tested before : Lowering)
      (shape : node.construct = .loop condition body) (opens : Opens head done state opened)
      (test : jumpUnless condition done opened = .ok () tested) (inner : Visits body tested part before) :
      Visits node state part before

def EvaluatesArgument (list : Node) (formals : List ValueType) (state : Lowering) (part : Node) (before : Lowering) :
    Prop :=
  ∃ item middle, Passes list formals state item middle ∧ Evaluates item middle part before

/-- The line of a cast: it stands behind the code of the value, and only a value of another type
needs one. -/
def CastAt (visits : Node → Lowering → Prop) (line : Line) : Prop :=
  ∃ ty child before value middle, visits (.unary (.unary .coercion) ty child) before ∧
    valueOf child before = .ok value middle ∧ ty.isScalar = true ∧ value.ty ≠ ty ∧ line = middle.program.size

theorem cast_mono (visits other : Node → Lowering → Prop)
    (included : ∀ part before, visits part before → other part before) (line : Line) (cast : CastAt visits line) :
    CastAt other line := by
  obtain ⟨ty, child, before, value, middle, visited, cast⟩ := cast
  exact ⟨ty, child, before, value, middle, included _ before visited, cast⟩

end Lower

end ThreeAddress
