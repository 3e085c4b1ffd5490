import ThreeAddress.Proofs.Lowering.Constructs

set_option autoImplicit false

namespace ThreeAddress

namespace Lowering

def Inside (state : Lowering) : Prop := ∃ id, state.function = some id ∧ id ∈ state.table.functions

theorem inside_extends (before after : Lowering) (code : List Statement)
    (extended : before.Extends after code) (inside : before.Inside) : after.Inside := by
  obtain ⟨id, current, listed⟩ := inside
  exact ⟨id, extended.function.trans current, extended.functions ▸ listed⟩

end Lowering

def LoweringError.InTree : LoweringError → Prop
  | .valueExpected _ | .notAssignable _ => True
  | .noEnclosingFunction _ | .notAFunction _ | .malformed _ => False

namespace Lower

variable {α β : Type}

/-- In a function the action succeeds under the condition; otherwise the tree is to blame. -/
def Decides (good : Prop) (action : Lower α) : Prop :=
  ∀ state : Lowering, state.Inside →
    (good → ∃ a after, action state = .ok a after ∧ after.Inside) ∧
    (¬ good → ∃ cause after, action state = .error cause after ∧ cause.InTree)

theorem bind_run (action : Lower α) (next : α → Lower β) (state : Lowering) :
    (action >>= next) state =
      match action state with
      | .ok a middle => next a middle
      | .error cause middle => .error cause middle := by
  change EStateM.bind action next state = _
  unfold EStateM.bind
  cases action state <;> rfl

theorem decides_congr (good other : Prop) (same : good ↔ other) (action : Lower α)
    (decides : Decides good action) : Decides other action := by
  rw [← propext same]
  exact decides

theorem decides_pure (a : α) : Decides True (pure a : Lower α) := by
  intro state inside
  exact ⟨fun _ => ⟨a, state, rfl, inside⟩, fun never => absurd trivial never⟩

theorem decides_throw (cause : LoweringError) (blamed : cause.InTree) :
    Decides False (throw cause : Lower α) := by
  intro state _
  exact ⟨False.elim, fun _ => ⟨cause, state, rfl, blamed⟩⟩

theorem decides_bind (good rest : Prop) (action : Lower α) (next : α → Lower β)
    (first : Decides good action) (second : ∀ a, Decides rest (next a)) :
    Decides (good ∧ rest) (action >>= next) := by
  intro state inside
  by_cases holds : good
  · obtain ⟨a, middle, ran, insideMiddle⟩ := (first state inside).1 holds
    rw [bind_run, ran]
    obtain ⟨succeeds, fails⟩ := second a middle insideMiddle
    exact ⟨fun both => succeeds both.2, fun broken => fails fun later => broken ⟨holds, later⟩⟩
  · obtain ⟨cause, middle, ran, blamed⟩ := (first state inside).2 holds
    rw [bind_run, ran]
    exact ⟨fun both => absurd both.1 holds, fun _ => ⟨cause, middle, rfl, blamed⟩⟩

theorem decides_then (good : Prop) (action : Lower α) (next : α → Lower β) (first : Decides good action)
    (second : ∀ a, Decides True (next a)) : Decides good (action >>= next) :=
  decides_congr (good ∧ True) good (iff_of_eq (and_true good)) _ (decides_bind good True action next first second)

theorem decides_after (good : Prop) (action : Lower α) (next : α → Lower β) (first : Decides True action)
    (second : ∀ a, Decides good (next a)) : Decides good (action >>= next) :=
  decides_congr (True ∧ good) good (iff_of_eq (true_and good)) _ (decides_bind True good action next first second)

theorem decides_map (good : Prop) (change : α → β) (action : Lower α) (decides : Decides good action) :
    Decides good (change <$> action) := by
  rw [map_eq_pure_bind]
  exact decides_then good action _ decides fun a => decides_pure (change a)

theorem decides_discard (good : Prop) (action : Lower α) (decides : Decides good action) :
    Decides good (discard action) :=
  decides_map good (Function.const α PUnit.unit) action decides

theorem decides_emit (statement : Statement) (fits : statement.conforms = true) :
    Decides True (emit statement) := by
  intro state inside
  refine ⟨fun _ => ?_, fun never => absurd trivial never⟩
  have ran := (emit_ok statement state _ _).mpr ⟨fits, rfl, rfl⟩
  exact ⟨_, _, ran, Lowering.inside_extends state _ _ (emit_extends statement state _ _ ran).1 inside⟩

theorem decides_allocate (allocation : Allocation) (ty : ValueType) : Decides True (allocate allocation ty) := by
  intro state inside
  refine ⟨fun _ => ?_, fun never => absurd trivial never⟩
  obtain ⟨id, current, listed⟩ := inside
  obtain ⟨scope, found⟩ := state.table.scope_of_mem id listed
  have ran : ∃ ref after, allocate allocation ty state = .ok ref after := by
    simp [allocate, current, SymbolTable.addOwned, found]
  obtain ⟨ref, after, ran⟩ := ran
  exact ⟨ref, after, ran, Lowering.inside_extends state after []
    (allocate_extends allocation ty state after ref ran).1 ⟨id, current, listed⟩⟩

theorem decides_computed (statement : Statement) (fits : statement.conforms = true) (a : α) :
    Decides True (do discard (emit statement); return a) :=
  decides_then True _ _ (decides_discard True _ (decides_emit statement fits)) fun _ => decides_pure a

theorem decides_coerce (value : Operand) (ty : ValueType) : Decides True (coerce value ty) :=
  decides_then True _ _ (decides_allocate .temporary ty) fun _ => decides_computed _ rfl _

theorem decides_widen (value : Operand) (ty : ValueType) : Decides True (widen value ty) := by
  rw [widen]
  by_cases wider : value.ty.widensTo ty = true
  · rw [if_pos wider]
    exact decides_coerce value ty
  · rw [if_neg wider]
    exact decides_pure value

theorem decides_operands (wanted : Option ValueType) (left right : Lower Operand) (goodLeft goodRight : Prop)
    (first : Decides goodLeft left) (second : Decides goodRight right) :
    Decides (goodLeft ∧ goodRight) (operands wanted left right) := by
  apply decides_bind goodLeft goodRight left _ first
  intro a
  apply decides_then goodRight right _ second
  intro b
  apply decides_then True _ _ (decides_widen a _)
  intro wide
  exact decides_map True _ _ (decides_widen b _)

theorem decides_combination (combination : Combination) (left right : Lower Operand) (goodLeft goodRight : Prop)
    (first : Decides goodLeft left) (second : Decides goodRight right) :
    Decides (goodLeft ∧ goodRight) (combination.lower left right) := by
  apply decides_then _ _ _ (decides_operands _ left right goodLeft goodRight first second)
  intro computed
  exact decides_then True _ _ (decides_allocate .temporary _) fun _ =>
    decides_computed _ (combination.statement_conforms _ _ _ _) _

theorem decides_apply_unary (operator : UnaryOp) (ty : ValueType) (value : Operand) :
    Decides True (applyUnary operator ty value) := by
  apply decides_then True _ _ (decides_widen value _)
  intro wide
  exact decides_then True _ _ (decides_allocate .temporary _) fun _ => decides_computed _ rfl _

theorem decides_unary (operator : UnaryOperator) (ty : ValueType) (value : Lower Operand) (good : Prop)
    (decides : Decides good value) : Decides good (unary operator ty value) := by
  apply decides_then good value _ decides
  intro a
  cases operator with
  | not => exact decides_apply_unary .not ty a
  | minus => exact decides_apply_unary .neg ty a
  | plus => exact decides_widen a ty
  | coercion =>
      simp only
      split
      next => exact decides_coerce a ty
      next => exact decides_pure a

end Lower

end ThreeAddress
