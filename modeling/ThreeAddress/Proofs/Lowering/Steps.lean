import Mathlib.Algebra.Order.Group.Multiset
import Mathlib.Logic.Relation
import ThreeAddress.Proofs.Flow.Landmarks
import ThreeAddress.Proofs.Lowering.Constructs

set_option autoImplicit false

/-!
What the lowering of a body can do, step by step. Some references are counted: a counted temporary
waits from the statement that computes it to the one that reads it, and no control flow may come in
between.
-/

namespace ThreeAddress

def Operand.held (counts : SymbolRef → Bool) : Operand → Multiset SymbolRef
  | .immediate _ => 0
  | .symbol ref => if counts ref then {ref} else 0

def Statement.held (counts : SymbolRef → Bool) (statement : Statement) : Multiset SymbolRef :=
  (statement.operands.map (Operand.held counts)).sum

def Statement.Defines (statement : Statement) (id : SymbolId) : Prop :=
  statement.result.bind Operand.symbolId? = some id

instance (statement : Statement) (id : SymbolId) : Decidable (statement.Defines id) :=
  inferInstanceAs (Decidable (_ = _))

theorem Statement.defines_iff (statement : Statement) (id : SymbolId) :
    statement.Defines id ↔ ∃ ref, statement.result = some (.symbol ref) ∧ ref.id = id := by
  unfold Statement.Defines
  constructor
  · intro defines
    obtain ⟨operand, into, same⟩ := Option.bind_eq_some_iff.mp defines
    cases operand with
    | immediate literal => cases same
    | symbol ref => exact ⟨ref, into, Option.some.inj same⟩
  · rintro ⟨ref, into, rfl⟩
    rw [into]
    rfl

def Lowering.Owns (state : Lowering) (kind : SymbolKind) (ref : SymbolRef) : Prop :=
  ∃ symbol, state.table.get? ref.id = some symbol ∧ symbol.kind = kind ∧ symbol.ty = ref.ty ∧
    symbol.owner = state.function

namespace Lower

section Held

variable (counts : SymbolRef → Bool)

theorem held_one (width : Width) (opcode : Opcode) (value : Operand) (result : Option Operand) :
    Statement.held counts ⟨width, opcode, some value, none, result⟩ = value.held counts := by
  simp [Statement.held, Statement.operands]

theorem held_two (width : Width) (opcode : Opcode) (left right : Operand) (result : Option Operand) :
    Statement.held counts ⟨width, opcode, some left, some right, result⟩ =
      left.held counts + right.held counts := by
  simp [Statement.held, Statement.operands]

theorem held_counted (ref : SymbolRef) (counted : counts ref = true) :
    (Operand.symbol ref).held counts = {ref} := by
  simp [Operand.held, counted]

theorem held_uncounted (ref : SymbolRef) (uncounted : counts ref = false) :
    (Operand.symbol ref).held counts = 0 := by
  simp [Operand.held, uncounted]

theorem held_symbol (operand : Operand) (ref : SymbolRef) :
    ref ∈ operand.held counts ↔ operand = .symbol ref ∧ counts ref = true := by
  cases operand with
  | immediate literal => simp [Operand.held]
  | symbol other =>
      by_cases counted : counts other = true
      · simp only [held_counted counts other counted, Multiset.mem_singleton, Operand.symbol.injEq]
        grind
      · simp only [held_uncounted counts other (by simpa using counted), Multiset.notMem_zero,
          Operand.symbol.injEq]
        grind

theorem statement_held (statement : Statement) (ref : SymbolRef) :
    ref ∈ statement.held counts ↔ Operand.symbol ref ∈ statement.operands ∧ counts ref = true := by
  unfold Statement.held
  induction statement.operands with
  | nil => simp
  | cons operand rest ih =>
      rw [List.map_cons, List.sum_cons, Multiset.mem_add, ih, held_symbol, List.mem_cons]
      grind

end Held

/-- A state of lowering, and the temporaries that wait to be read. -/
abbrev Stage := Lowering × Multiset SymbolRef

inductive Step (counts : SymbolRef → Bool) (spare : SymbolId → Prop) : Stage → Stage → Prop where
  | compute (statement : Statement) (ty : ValueType) (result : SymbolRef) (line : Line)
      (state allocated after : Lowering) (rest : Multiset SymbolRef)
      (plain : statement.opcode.isPlain = true) (into : statement.result = some (.symbol result))
      (fresh : freshTemporary ty state = .ok result allocated)
      (emitted : emit statement allocated = .ok line after) :
      Step counts spare (state, statement.held counts + rest)
        (after, (Operand.symbol result).held counts + rest)
  | consume (statement : Statement) (line : Line) (state after : Lowering) (rest : Multiset SymbolRef)
      (plain : statement.opcode.isPlain = true)
      (uncounted : ∀ ref, statement.result = some (.symbol ref) → counts ref = false)
      (emitted : emit statement state = .ok line after) :
      Step counts spare (state, statement.held counts + rest) (after, rest)
  | branch (statement : Statement) (line : Line) (state after : Lowering)
      (ends : statement.opcode = .ret ∨ statement.opcode.isConditionalJump = true)
      (owned : ∀ label, statement.result = some (.symbol label) → state.Owns .label label)
      (emitted : emit statement state = .ok line after) :
      Step counts spare (state, statement.held counts) (after, 0)
  | place (statement : Statement) (label : SymbolRef) (line : Line) (state after : Lowering)
      (shape : statement = mark label ∨ statement = goto label) (owned : state.Owns .label label)
      (emitted : emit statement state = .ok line after) : Step counts spare (state, 0) (after, 0)
  | label (label : SymbolRef) (state after : Lowering) (waiting : Multiset SymbolRef)
      (fresh : freshLabel state = .ok label after) : Step counts spare (state, waiting) (after, waiting)
  | drop (state : Lowering) (dropped rest : Multiset SymbolRef) (spared : ∀ ref ∈ dropped, spare ref.id) :
      Step counts spare (state, dropped + rest) (state, rest)

def Steps (counts : SymbolRef → Bool) (spare : SymbolId → Prop) : Stage → Stage → Prop :=
  Relation.ReflTransGen (Step counts spare)

theorem allocate_owns (allocation : Allocation) (ty : ValueType) (state after : Lowering) (ref : SymbolRef)
    (ran : allocate allocation ty state = .ok ref after) : after.Owns allocation.kind ref := by
  have extended := (allocate_extends allocation ty state after ref ran).1
  obtain ⟨function, name, inside, rfl, symbols, _⟩ := allocate_pushes allocation ty state after ref ran
  exact ⟨_, (state.table.get_push after.table _ symbols _ _).mpr (Or.inr ⟨rfl, rfl⟩), rfl, rfl,
    inside.symm.trans extended.function.symm⟩

theorem owns_extends (before after : Lowering) (code : List Statement) (extended : before.Extends after code)
    (kind : SymbolKind) (ref : SymbolRef) (owned : before.Owns kind ref) : after.Owns kind ref := by
  obtain ⟨symbol, found, kind, ty, owner⟩ := owned
  exact ⟨symbol, before.table.get_of_grown after.table extended.symbols ref.id symbol found, kind, ty,
    owner.trans extended.function.symm⟩

section Steps

variable {counts : SymbolRef → Bool} {spare : SymbolId → Prop}

theorem step_mono {other : SymbolId → Prop} (weaker : ∀ id, spare id → other id) (before after : Stage)
    (step : Step counts spare before after) : Step counts other before after := by
  cases step with
  | compute statement ty result line state allocated after rest plain into fresh emitted =>
      exact .compute statement ty result line state allocated after rest plain into fresh emitted
  | consume statement line state after rest plain uncounted emitted =>
      exact .consume statement line state after rest plain uncounted emitted
  | branch statement line state after ends owned emitted =>
      exact .branch statement line state after ends owned emitted
  | place statement label line state after shape owned emitted =>
      exact .place statement label line state after shape owned emitted
  | label label state after waiting fresh => exact .label label state after waiting fresh
  | drop state dropped rest spared =>
      exact .drop state dropped rest fun ref member => weaker ref.id (spared ref member)

theorem steps_mono {other : SymbolId → Prop} (weaker : ∀ id, spare id → other id) (before after : Stage)
    (steps : Steps counts spare before after) : Steps counts other before after :=
  Relation.ReflTransGen.mono (step_mono weaker) before after steps

def Inner (before after : Lowering) : Prop :=
  ∃ code, before.Extends after code ∧ ∀ statement ∈ code, statement.opcode ≠ .func ∧
    (∀ label, statement.Names .label label → ∃ ref, ref.id = label ∧ after.Owns .label ref) ∧
    statement.conforms = true

theorem inner_trans (before middle after : Lowering) (early : Inner before middle) (late : Inner middle after) :
    Inner before after := by
  obtain ⟨first, extendsFirst, innerFirst⟩ := early
  obtain ⟨second, extendsSecond, innerSecond⟩ := late
  refine ⟨first ++ second, Lowering.extends_trans before middle after first second extendsFirst extendsSecond, ?_⟩
  intro statement member
  rcases List.mem_append.mp member with inFirst | inSecond
  · obtain ⟨opcode, owned, fits⟩ := innerFirst statement inFirst
    refine ⟨opcode, ?_, fits⟩
    intro label names
    obtain ⟨ref, same, owns⟩ := owned label names
    exact ⟨ref, same, owns_extends middle after second extendsSecond .label ref owns⟩
  · exact innerSecond statement inSecond

theorem emit_inner (statement : Statement) (state after : Lowering) (line : Line)
    (emitted : emit statement state = .ok line after) (opcode : statement.opcode ≠ .func)
    (owned : ∀ label, statement.Names .label label → ∃ ref, ref.id = label ∧ state.Owns .label ref) :
    Inner state after := by
  have extended := (emit_extends statement state after line emitted).1
  refine ⟨[statement], extended, ?_⟩
  intro other member
  rw [List.mem_singleton.mp member]
  refine ⟨opcode, ?_, ((emit_ok statement state after line).mp emitted).1⟩
  intro label names
  obtain ⟨ref, same, owns⟩ := owned label names
  exact ⟨ref, same, owns_extends state after _ extended .label ref owns⟩

theorem emit_plain_inner (statement : Statement) (state after : Lowering) (line : Line)
    (emitted : emit statement state = .ok line after) (plain : statement.opcode.isPlain = true) :
    Inner state after := by
  apply emit_inner statement state after line emitted
  · intro same
    simp [same, Opcode.isPlain] at plain
  · intro label names
    simp [names.1, Opcode.isPlain] at plain

theorem step_inner (before after : Stage) (step : Step counts spare before after) :
    Inner before.1 after.1 := by
  cases step with
  | compute statement ty result line state allocated after rest plain into fresh emitted =>
      have allocates : Inner state allocated :=
        ⟨[], (allocate_extends .temporary ty state allocated result fresh).1, by simp⟩
      exact inner_trans state allocated after allocates
        (emit_plain_inner statement allocated after line emitted plain)
  | consume statement line state after rest plain uncounted emitted =>
      exact emit_plain_inner statement state after line emitted plain
  | branch statement line state after ends owned emitted =>
      apply emit_inner statement state after line emitted
      · intro same
        simp [same, Opcode.isConditionalJump] at ends
      · intro label names
        simp [names.1, Opcode.isConditionalJump] at ends
  | place statement label line state after shape owned emitted =>
      apply emit_inner statement state after line emitted
      · rcases shape with rfl | rfl <;> simp [mark, goto]
      · intro other names
        rcases shape with rfl | rfl
        · exact ⟨label, Option.some.inj names.2, owned⟩
        · exact absurd names.1 (by simp [goto])
  | label label state after waiting fresh =>
      exact ⟨[], (allocate_extends .label .void state after label fresh).1, by simp⟩
  | drop state dropped rest spared => exact ⟨[], state.extends_refl, by simp⟩

theorem steps_inner (before after : Stage) (steps : Steps counts spare before after) :
    Inner before.1 after.1 := by
  induction steps with
  | refl => exact ⟨[], before.1.extends_refl, by simp⟩
  | tail _ step ih => exact inner_trans _ _ _ ih (step_inner _ _ step)

theorem steps_owns (before after : Stage) (steps : Steps counts spare before after)
    (kind : SymbolKind) (ref : SymbolRef) (owned : before.1.Owns kind ref) : after.1.Owns kind ref := by
  obtain ⟨code, extended, _⟩ := steps_inner before after steps
  exact owns_extends before.1 after.1 code extended kind ref owned

end Steps

end Lower

end ThreeAddress
