import ThreeAddress.Proofs.Allocation
import ThreeAddress.Proofs.Lowering.Coupling
import ThreeAddress.Proofs.Lowering.Failure

set_option autoImplicit false

namespace ThreeAddress

def Symbol.shape (symbol : Symbol) : ValueType × SymbolKind × Option SymbolId :=
  (symbol.ty, symbol.kind, symbol.owner)

def Operand.rename (rename : SymbolId → SymbolId) : Operand → Operand
  | .immediate value => .immediate value
  | .symbol ref => .symbol ⟨rename ref.id, ref.ty⟩

def Statement.rename (rename : SymbolId → SymbolId) (statement : Statement) : Statement where
  width := statement.width
  opcode := statement.opcode
  first := statement.first.map (Operand.rename rename)
  second := statement.second.map (Operand.rename rename)
  result := statement.result.map (Operand.rename rename)

section Rename

variable {link : SymbolId → SymbolId → Prop} (rename : SymbolId → SymbolId)
  (follows : ∀ id other, link id other → other = rename id)

include follows

theorem Operand.linked_rename (operand other : Option Operand)
    (linked : Option.Rel (Operand.Linked link) operand other) : other = operand.map (Operand.rename rename) := by
  cases linked with
  | none => rfl
  | some linked =>
      cases linked with
      | immediate value => rfl
      | symbol ref copy linked =>
          obtain ⟨ids, types⟩ := linked
          rw [Option.map_some, Operand.rename, ← follows _ _ ids, types]

theorem Statement.linked_rename (statement other : Statement) (linked : statement.Linked link other) :
    other = statement.rename rename := by
  cases other with
  | mk width opcode first second result =>
      simp only [Statement.rename, Statement.mk.injEq]
      exact ⟨linked.width.symm, linked.opcode.symm, Operand.linked_rename rename follows _ _ linked.first,
        Operand.linked_rename rename follows _ _ linked.second,
        Operand.linked_rename rename follows _ _ linked.result⟩

theorem Statement.code_rename (code copy : List Statement)
    (linked : List.Forall₂ (Statement.Linked link) code copy) : copy = code.map (Statement.rename rename) := by
  induction linked with
  | nil => rfl
  | @cons statement other code copy same _ ih =>
      rw [List.map_cons, statement.linked_rename rename follows other same, ih]

end Rename

/-- Known symbols keep their ids, and the ids behind the lower bound move behind the other. -/
def Displaced (base : SymbolTable) (low high : Nat) (id other : SymbolId) : Prop :=
  (id = other ∧ (base.get? id).isSome = true) ∨ ∃ offset, id = low + offset + 1 ∧ other = high + offset + 1

structure Moved (base : SymbolTable) (first second state other : Lowering) : Prop where
  gains : base.Gains state.table
  others : base.Gains other.table
  code : ∃ code copy, state.program.statements = first.program.statements ++ code ∧
    other.program.statements = second.program.statements ++ copy ∧
    List.Forall₂ (Statement.Linked (Displaced base first.table.size second.table.size)) code copy
  symbols : ∃ added copies, state.table.symbols = first.table.symbols ++ added ∧
    other.table.symbols = second.table.symbols ++ copies ∧ added.map Symbol.shape = copies.map Symbol.shape

structure Twin (base : SymbolTable) (first second state other : Lowering) : Prop extends
    Moved base first second state other where
  function : other.function = state.function
  known : ∀ id, state.function = some id → (base.get? id).isSome = true

namespace Lower

section Twins

variable {base : SymbolTable} {first second : Lowering}

theorem add_owned_isSome (table : SymbolTable) (function : SymbolId) (kind : SymbolKind) (name : String)
    (ty : ValueType) : (table.addOwned function kind name ty).isSome = (table.parameters? function).isSome := by
  unfold SymbolTable.addOwned SymbolTable.parameters?
  cases table.scope? function <;> rfl

theorem twin_scope (state other : Lowering) (twins : Twin base first second state other) (function : SymbolId) :
    state.table.parameters? function = other.table.parameters? function := by
  rw [(SymbolTable.gains_grown _ _ twins.gains).parameters, (SymbolTable.gains_grown _ _ twins.others).parameters]

theorem moved_sizes (state other : Lowering) (moved : Moved base first second state other) :
    ∃ count, state.table.size = first.table.size + count ∧ other.table.size = second.table.size + count := by
  obtain ⟨added, copies, symbols, others, shapes⟩ := moved.symbols
  have lengths : added.length = copies.length := by simpa using congrArg List.length shapes
  exact ⟨added.length, by simp [SymbolTable.size, symbols], by simp [SymbolTable.size, others, lengths]⟩

theorem twin_allocated (state other : Lowering) (twins : Twin base first second state other)
    (allocation : Allocation) (function id copy : SymbolId) (name label : String) (ty : ValueType)
    (table copied : SymbolTable)
    (added : state.table.addOwned function allocation.kind name ty = some (id, table))
    (follows : other.table.addOwned function allocation.kind label ty = some (copy, copied)) :
    Twin base first second (state.withSymbol table allocation) (other.withSymbol copied allocation) where
  gains := by
    rw [Lowering.with_symbol_table]
    exact twins.gains.tail ⟨allocation, function, id, name, ty, added⟩
  others := by
    rw [Lowering.with_symbol_table]
    exact twins.others.tail ⟨allocation, function, copy, label, ty, follows⟩
  code := by simpa using twins.code
  symbols := by
    obtain ⟨early, copies, symbols, others, shapes⟩ := twins.symbols
    obtain ⟨_, pushed⟩ := state.table.add_owned_symbols table function id _ name ty added
    obtain ⟨_, copiedPushed⟩ := other.table.add_owned_symbols copied function copy _ label ty follows
    refine ⟨early ++ [⟨name, ty, allocation.kind, some function⟩],
      copies ++ [⟨label, ty, allocation.kind, some function⟩], ?_, ?_, ?_⟩
    · simp [pushed, symbols]
    · simp [copiedPushed, others]
    · simp [shapes, Symbol.shape]
  function := by simpa using twins.function
  known := by simpa using twins.known

theorem couples_allocate (allocation : Allocation) (ty : ValueType) :
    Couples (Twin base first second) (SymbolRef.Linked (Displaced base first.table.size second.table.size))
      (allocate allocation ty) (allocate allocation ty) := by
  intro state other twins
  cases inside : state.function with
  | none =>
      have outside : other.function = none := twins.function.trans inside
      simp only [allocate, inside, outside]
      exact .error _ state other twins
  | some function =>
      have within : other.function = some function := twins.function.trans inside
      have same := add_owned_isSome state.table function allocation.kind
        (allocation.name (state.allocated allocation)) ty
      rw [twin_scope state other twins, ← add_owned_isSome other.table function allocation.kind
        (allocation.name (other.allocated allocation)) ty] at same
      simp only [allocate, inside, within]
      cases added : state.table.addOwned function allocation.kind
          (allocation.name (state.allocated allocation)) ty with
      | none =>
          rw [added, Option.isSome_none, eq_comm, Option.isSome_eq_false_iff, Option.isNone_iff_eq_none] at same
          rw [same]
          exact .error _ state other twins
      | some pair =>
          rw [added, Option.isSome_some, eq_comm, Option.isSome_iff_exists] at same
          obtain ⟨copy, follows⟩ := same
          obtain ⟨id, _⟩ := state.table.add_owned_symbols pair.2 function pair.1 _ _ _ added
          obtain ⟨copied, _⟩ := other.table.add_owned_symbols copy.2 function copy.1 _ _ _ follows
          obtain ⟨count, size, otherSize⟩ := moved_sizes state other twins.toMoved
          rw [follows]
          refine .ok _ _ _ _ ⟨Or.inr ⟨count, ?_, ?_⟩, rfl⟩
            (twin_allocated state other twins allocation function _ _ _ _ ty _ _ added follows)
          · rw [id, size]
          · rw [copied, otherSize]

theorem couples_emitted (statement other : Statement) (fits : statement.conforms = true)
    (linked : Statement.Linked (Displaced base first.table.size second.table.size) statement other) :
    Couples (Twin base first second) (fun _ _ => True) (discard (emit statement)) (discard (emit other)) := by
  intro state copy twins
  have runs : ∀ (statement : Statement) (state : Lowering), statement.conforms = true →
      discard (emit statement) state =
        .ok () { state with program := ⟨state.program.statements ++ [statement]⟩ } := fun statement state fits =>
    (discard_ok _ state _ ()).mpr ⟨_, (emit_ok statement state _ _).mpr ⟨fits, rfl, rfl⟩⟩
  rw [runs statement state fits, runs other copy (statement.linked_conforms other linked ▸ fits)]
  apply Alike.ok _ _ _ _ trivial
  refine ⟨⟨twins.gains, twins.others, ?_, twins.symbols⟩, twins.function, twins.known⟩
  obtain ⟨code, following, program, copied, same⟩ := twins.code
  refine ⟨code ++ [statement], following ++ [other], ?_, ?_, ?_⟩
  · simp [program]
  · simp [copied]
  · exact List.rel_append same (.cons linked .nil)

theorem twin_coupled (listed : base.Listed) :
    Coupled (Displaced base first.table.size second.table.size) (Twin base first second) where
  emit := couples_emitted
  temporary ty := by
    rw [fresh_temporary_allocates]
    exact couples_allocate .temporary ty
  label := by
    rw [fresh_label_allocates]
    exact couples_allocate .label .void
  parameters id := by
    intro state other twins
    refine .ok _ _ state other ?_ twins
    rw [SymbolTable.grown_parameter_types base _ (SymbolTable.gains_grown _ _ twins.gains) listed,
      SymbolTable.grown_parameter_types base _ (SymbolTable.gains_grown _ _ twins.others) listed]
  returned := by
    intro state other twins
    refine .ok _ _ state other ?_ twins
    rw [twins.function]
    cases inside : state.function with
    | none => rfl
    | some id =>
        have known := twins.known id inside
        rw [Option.bind_some, Option.bind_some,
          SymbolTable.grown_get base _ (SymbolTable.gains_grown _ _ twins.gains) id known,
          SymbolTable.grown_get base _ (SymbolTable.gains_grown _ _ twins.others) id known]

end Twins

def shift (low high : Nat) (id : SymbolId) : SymbolId := if low < id then id - low + high else id

def Known (base : SymbolTable) (id : SymbolId) (root : Node) : Prop :=
  (base.get? id).isSome = true ∧ ∀ symbol ∈ root.symbols, (base.get? symbol).isSome = true

structure Relocated (first second after other : Lowering) : Prop where
  code : ∃ code, after.program.statements = first.program.statements ++ code ∧
    other.program.statements =
      second.program.statements ++ code.map (Statement.rename (shift first.table.size second.table.size))
  symbols : ∃ added copies, after.table.symbols = first.table.symbols ++ added ∧
    other.table.symbols = second.table.symbols ++ copies ∧ added.map Symbol.shape = copies.map Symbol.shape

theorem displaced_shift (base : SymbolTable) (low high : Nat) (bound : base.size ≤ low) (id other : SymbolId)
    (displaced : Displaced base low high id other) : other = shift low high id := by
  unfold shift
  rcases displaced with ⟨rfl, known⟩ | ⟨offset, rfl, rfl⟩
  · obtain ⟨symbol, found⟩ := Option.isSome_iff_exists.mp known
    have inside := base.get_le_size id symbol found
    rw [if_neg (by lia)]
  · rw [if_pos (by lia)]
    lia

theorem gains_size (base table : SymbolTable) (gains : base.Gains table) : base.size ≤ table.size :=
  (SymbolTable.gains_grown base table gains).symbols.length_le

theorem moved_relocated (base : SymbolTable) (first second after other : Lowering)
    (bound : base.size ≤ first.table.size) (moved : Moved base first second after other) :
    Relocated first second after other where
  code := by
    obtain ⟨code, copy, program, copied, linked⟩ := moved.code
    have renamed := Statement.code_rename (shift first.table.size second.table.size)
      (displaced_shift base first.table.size second.table.size bound) code copy linked
    exact ⟨code, program, by rw [copied, renamed]⟩
  symbols := moved.symbols

theorem moved_refl (base : SymbolTable) (first second : Lowering) (gains : base.Gains first.table)
    (others : base.Gains second.table) : Moved base first second first second where
  gains := gains
  others := others
  code := ⟨[], [], by simp, by simp, .nil⟩
  symbols := ⟨[], [], by simp, by simp, rfl⟩

theorem begun_twin (base : SymbolTable) (first second : Lowering) (gains : base.Gains first.table)
    (others : base.Gains second.table) (id : SymbolId) (symbol : Symbol) (known : (base.get? id).isSome = true) :
    Twin base first second (begun id symbol first) (begun id symbol second) where
  gains := gains
  others := others
  code := by
    refine ⟨[entry id symbol], [entry id symbol], rfl, rfl, .cons ⟨rfl, rfl, .some ?_, .none, .none⟩ .nil⟩
    exact .symbol _ _ ⟨Or.inl ⟨rfl, known⟩, rfl⟩
  symbols := ⟨[], [], by simp [begun], by simp [begun], rfl⟩
  function := rfl
  known := by
    intro other inside
    obtain rfl : id = other := Option.some.inj inside
    exact known

theorem function_moved (base : SymbolTable) (listed : base.Listed) (id : SymbolId) (root : Node)
    (known : Known base id root) (first second : Lowering) (gains : base.Gains first.table)
    (others : base.Gains second.table) :
    Alike (Moved base first second) (fun _ _ => True) (function id root first) (function id root second) := by
  obtain ⟨symbol, found⟩ := Option.isSome_iff_exists.mp known.1
  have here : first.table.get? id = some symbol := by
    rw [SymbolTable.grown_get base _ (SymbolTable.gains_grown _ _ gains) id known.1, found]
  have there : second.table.get? id = some symbol := by
    rw [SymbolTable.grown_get base _ (SymbolTable.gains_grown _ _ others) id known.1, found]
  by_cases kind : symbol.kind = .function
  · rw [function_run id root first symbol here kind, function_run id root second symbol there kind]
    have linked : ∀ id ∈ root.symbols, Displaced base first.table.size second.table.size id id :=
      fun id member => Or.inl ⟨rfl, known.2 id member⟩
    have outcome := couples_statement (twin_coupled listed) root linked _ _
      (begun_twin base first second gains others id symbol known.1)
    revert outcome
    generalize statement root (begun id symbol first) = left
    generalize statement root (begun id symbol second) = right
    intro outcome
    cases outcome with
    | ok a b after other matched twins =>
        exact .ok _ _ _ _ trivial ⟨twins.gains, twins.others, twins.code, twins.symbols⟩
    | error cause after other twins => exact .error cause after other twins.toMoved
  · rw [function_refused id root first (by simp [here, kind]), function_refused id root second (by simp [there, kind])]
    exact .error _ first second (moved_refl base first second gains others)

end Lower

end ThreeAddress
