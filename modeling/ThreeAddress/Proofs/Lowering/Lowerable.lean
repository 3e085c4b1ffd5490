import ThreeAddress.Proofs.Lowering.Evaluable

set_option autoImplicit false

namespace ThreeAddress

def Assignable (node : Node) : Prop :=
  (∃ ty id, node = .symbol .identifier ty id) ∨
    ∃ ty base index, node = .binary .elementWrite ty base index ∧ base.symbol?.isSome = true ∧ Evaluable index

/-- Statements whose conditions, values and destinations are fine. Other nodes give no code. -/
def Lowerable : Node → Prop
  | .binary .conditional _ condition (.binary .branches _ consequent alternative) =>
    Evaluable condition ∧ Lowerable consequent ∧ Lowerable alternative
  | .binary kind _ left right =>
    match kind with
    | .statementList => Lowerable left ∧ Lowerable right
    | .assignment => Evaluable right ∧ Assignable left
    | .conditional => Evaluable left ∧ Lowerable right
    | .loop => Evaluable left ∧ Lowerable right
    | .call => left.symbol?.isSome = true → ∀ item ∈ right.items .arguments, Evaluable item
    | _ => True
  | .unary kind _ child => kind = .ret → child.isBlank = true ∨ Evaluable child
  | _ => True

namespace Lower

theorem decides_jump_unless (condition : Node) (label : SymbolRef) :
    Decides (Evaluable condition) (jumpUnless condition label) := by
  unfold jumpUnless
  split
  next relation ty left right =>
    apply decides_congr _ _ (evaluable_relational ty left right relation).symm
    apply decides_then _ _ _ (decides_operands none _ _ _ _ (decides_value left).1 (decides_value right).1)
    intro computed
    exact decides_discard True _ (decides_emit _ rfl)
  next =>
    apply decides_then _ _ _ (decides_value condition).1
    intro computed
    exact decides_discard True _ (decides_emit _ rfl)

theorem decides_element_destination (ty : ValueType) (base index : Node) :
    Decides (base.symbol?.isSome = true ∧ Evaluable index) (destination (.binary .elementWrite ty base index)) := by
  rw [← reference_isSome]
  cases named : base.reference? with
  | none =>
      have same : destination (.binary .elementWrite ty base index) = throw (.notAssignable .elementWrite) := by
        simp [destination, destination?, elementWrite, element, named, Node.kind]
      rw [same]
      exact decides_congr False _ (by simp) _ (decides_throw _ trivial)
  | some array =>
      have same : destination (.binary .elementWrite ty base index) = Destination.element array <$> valueOf index := by
        simp [destination, destination?, elementWrite, element, named, Node.kind]
      rw [same]
      exact decides_congr (Evaluable index) _ (by simp) _ (decides_map _ _ _ (decides_value index).1)

theorem destination_missing (node : Node) (unnamed : ∀ ty id, node ≠ .symbol .identifier ty id)
    (unwritten : ∀ ty base index, node ≠ .binary .elementWrite ty base index) :
    destination node = throw (.notAssignable node.kind) := by
  have missing : destination? node = pure none := by
    unfold destination?
    cases node with
    | symbol kind ty id =>
        have other : kind ≠ .identifier := fun same => unnamed ty id (by rw [same])
        cases kind <;> first | rfl | exact absurd rfl other
    | binary kind ty base index =>
        have other : kind ≠ .elementWrite := fun same => unwritten ty base index (by rw [same])
        cases kind <;> first | rfl | exact absurd rfl other
    | leaf kind ty => cases kind <;> rfl
    | constant kind ty literal => cases kind <;> rfl
    | unary kind ty child => cases kind <;> rfl
  rw [destination, missing]
  rfl

theorem decides_destination (node : Node) : Decides (Assignable node) (destination node) := by
  by_cases named : ∃ ty id, node = .symbol .identifier ty id
  · obtain ⟨ty, id, rfl⟩ := named
    exact decides_congr True _ (iff_of_true trivial (Or.inl ⟨ty, id, rfl⟩)) _ (decides_pure _)
  · by_cases written : ∃ ty base index, node = .binary .elementWrite ty base index
    · obtain ⟨ty, base, index, rfl⟩ := written
      exact decides_congr _ _ (by simp [Assignable]) _ (decides_element_destination ty base index)
    · rw [destination_missing node (fun ty id same => named ⟨ty, id, same⟩)
        (fun ty base index same => written ⟨ty, base, index, same⟩)]
      apply decides_congr False _ (iff_of_false id _) _ (decides_throw (.notAssignable node.kind) trivial)
      intro assignable
      rcases assignable with plain | ⟨ty, base, index, same, _⟩
      · exact named plain
      · exact written ⟨ty, base, index, same⟩

theorem decides_store (value : Operand) (place : Destination) : Decides True (store value place) := by
  match place with
  | .variable target =>
      exact decides_then True _ _ (decides_widen value _) fun _ => decides_discard True _ (decides_emit _ rfl)
  | .element array index =>
      exact decides_then True _ _ (decides_widen value _) fun _ => decides_discard True _ (decides_emit _ rfl)

theorem decides_assignment (target source : Node) :
    Decides (Evaluable source ∧ Assignable target) (assignment target source) := by
  apply decides_bind _ _ _ _ (decides_value source).1
  intro value
  exact decides_then _ _ _ (decides_destination target) (decides_store value)

theorem decides_return_type : Decides True returnType? := fun state inside =>
  ⟨fun _ => ⟨_, state, rfl, inside⟩, fun never => absurd trivial never⟩

theorem decides_ret (value : Node) : Decides (value.isBlank = true ∨ Evaluable value) (ret value) := by
  rw [ret_eq]
  by_cases blank : value.isBlank = true
  · rw [if_pos blank]
    apply decides_congr True _ (by simp [blank])
    exact decides_then True _ _ (decides_pure none) fun _ => decides_discard True _ (decides_emit _ rfl)
  · rw [if_neg blank]
    apply decides_congr (Evaluable value) _ (by simp [blank])
    apply decides_then _ _ _ (decides_map _ some _ _) fun _ => decides_discard True _ (decides_emit _ rfl)
    apply decides_then _ _ _ (decides_value value).1
    intro operand
    apply decides_after True returnType? _ decides_return_type
    intro ty
    cases ty with
    | none => exact decides_pure operand
    | some ty => exact decides_widen operand ty

theorem decides_mark (label : SymbolRef) : Decides True (emitLabel label) :=
  decides_discard True _ (decides_emit _ rfl)

theorem decides_goto (label : SymbolRef) : Decides True (emitGoto label) :=
  decides_discard True _ (decides_emit _ rfl)

theorem decides_conditional (condition : Node) (consequent : Lower Unit) (alternative : Option (Lower Unit))
    (good other : Prop) (first : Decides good consequent)
    (second : ∀ action ∈ alternative, Decides other action) (absent : alternative = none → other) :
    Decides (Evaluable condition ∧ good ∧ other) (conditional condition consequent alternative) := by
  apply decides_after _ _ _ (decides_allocate .label .void)
  intro otherwise
  apply decides_bind _ _ _ _ (decides_jump_unless condition otherwise)
  intro _
  apply decides_bind _ _ _ _ first
  intro _
  cases alternative with
  | none => exact decides_congr True other (by simp [absent rfl]) _ (decides_mark otherwise)
  | some action =>
      apply decides_after _ _ _ (decides_allocate .label .void)
      intro done
      apply decides_after _ _ _ (decides_goto done)
      intro _
      apply decides_after _ _ _ (decides_mark otherwise)
      intro _
      exact decides_then _ _ _ (second action rfl) fun _ => decides_mark done

theorem decides_loop (condition : Node) (body : Lower Unit) (good : Prop) (inner : Decides good body) :
    Decides (Evaluable condition ∧ good) (loop condition body) := by
  apply decides_after _ _ _ (decides_allocate .label .void)
  intro head
  apply decides_after _ _ _ (decides_allocate .label .void)
  intro done
  apply decides_after _ _ _ (decides_mark head)
  intro _
  apply decides_bind _ _ _ _ (decides_jump_unless condition done)
  intro _
  apply decides_then _ _ _ inner
  intro _
  exact decides_then True _ _ (decides_goto head) fun _ => decides_mark done

theorem lowerable_construct (node : Node) :
    match node.construct with
    | .plain => (∀ ty target source, node ≠ .binary .assignment ty target source) →
      (∀ ty callee list, node ≠ .binary .call ty callee list) → Lowerable node
    | .ret value => Lowerable node ↔ value.isBlank = true ∨ Evaluable value
    | .sequence first rest => Lowerable node ↔ Lowerable first ∧ Lowerable rest
    | .conditional condition consequent alternative =>
      Lowerable node ↔ Evaluable condition ∧ Lowerable consequent ∧ ∀ other ∈ alternative, Lowerable other
    | .loop condition body => Lowerable node ↔ Evaluable condition ∧ Lowerable body := by
  have blank : Node.empty.isBlank = true := rfl
  fun_cases Node.construct node
  case case6 kind _ _ _ _ _ _ _ _ => cases kind <;> simp_all [Lowerable]
  all_goals simp_all [Lowerable]

theorem decides_simple (node : Node) (shape : node.construct = .plain) :
    Decides (Lowerable node) (simple node) := by
  have other := lowerable_construct node
  rw [shape] at other
  unfold simple
  split
  next ty target source => exact decides_assignment target source
  next ty callee list =>
    exact decides_discard _ _ (decides_call callee (argumentsOf list) _ (decides_value list).2)
  next unassigned uncalled =>
    exact decides_congr True _ (iff_of_true trivial (other unassigned uncalled)) _ (decides_pure ())

theorem decides_statement (node : Node) : Decides (Lowerable node) (statement node) := by
  induction node using Node.construct_induction with
  | each node ih =>
      rw [statement_construct]
      have same := lowerable_construct node
      cases shape : node.construct with
      | plain => exact decides_simple node shape
      | ret value =>
          rw [shape] at same
          exact decides_congr _ _ same.symm _ (decides_ret value)
      | sequence first rest =>
          rw [shape] at same
          apply decides_congr _ _ same.symm
          exact decides_bind _ _ _ _ (ih first (by simp [shape, Construct.parts])) fun _ =>
            ih rest (by simp [shape, Construct.parts])
      | conditional condition consequent alternative =>
          rw [shape] at same
          apply decides_congr _ _ same.symm
          apply decides_conditional _ _ _ _ _ (ih consequent (by simp [shape, Construct.parts]))
          · intro action member
            obtain ⟨other, rfl, rfl⟩ := Option.map_eq_some_iff.mp member
            exact decides_congr (Lowerable other) _ (by simp) _ (ih other (by simp [shape, Construct.parts]))
          · intro absent
            rw [Option.map_eq_none_iff] at absent
            simp [absent]
      | loop condition body =>
          rw [shape] at same
          apply decides_congr _ _ same.symm
          exact decides_loop _ _ _ (ih body (by simp [shape, Construct.parts]))

end Lower

end ThreeAddress
