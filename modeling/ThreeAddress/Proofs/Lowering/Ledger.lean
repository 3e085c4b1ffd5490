import ThreeAddress.Proofs.Lowering.Steps

set_option autoImplicit false

namespace ThreeAddress

def Statement.readings (statement : Statement) (id : SymbolId) : Nat :=
  statement.operands.countP fun operand => operand.symbolId? = some id

def readings (code : List Statement) (id : SymbolId) : Nat :=
  (code.flatMap Statement.operands).countP fun operand => operand.symbolId? = some id

def definitions (code : List Statement) (id : SymbolId) : Nat :=
  code.countP fun statement => statement.Defines id

def SymbolTable.Temporary (table : SymbolTable) (known : Nat) (id : SymbolId) : Prop :=
  known < id ∧ ∃ symbol, table.get? id = some symbol ∧ symbol.kind = .temporary

namespace Lower

theorem readings_append (first second : List Statement) (id : SymbolId) :
    readings (first ++ second) id = readings first id + readings second id := by
  simp [readings]

theorem definitions_append (first second : List Statement) (id : SymbolId) :
    definitions (first ++ second) id = definitions first id + definitions second id :=
  List.countP_append

theorem readings_single (statement : Statement) (id : SymbolId) :
    readings [statement] id = statement.readings id := by
  simp [readings, Statement.readings]

theorem definitions_defined (statement : Statement) (id : SymbolId) (defines : statement.Defines id) :
    definitions [statement] id = 1 := by
  simp [definitions, defines]

theorem definitions_undefined (statement : Statement) (id : SymbolId) (other : ¬ statement.Defines id) :
    definitions [statement] id = 0 := by
  simp [definitions, other]

structure Waits (code : List Statement) (id : SymbolId) : Prop where
  defined : definitions code id = 1
  unread : readings code id = 0
  straight : ∃ early definition late, code = early ++ definition :: late ∧ definition.Defines id ∧
    ∀ statement ∈ late, statement.opcode.isPlain = true

structure Spent (code : List Statement) (id : SymbolId) : Prop where
  defined : definitions code id = 1
  read : readings code id = 1
  straight : ∃ early definition between use late, code = early ++ definition :: (between ++ use :: late) ∧
    definition.Defines id ∧ 0 < use.readings id ∧ ∀ statement ∈ between, statement.opcode.isPlain = true

section Push

variable (code : List Statement) (statement : Statement) (id : SymbolId)

theorem waits_new (undefined : definitions code id = 0) (unread : readings code id = 0)
    (defines : statement.Defines id) (silent : statement.readings id = 0) : Waits (code ++ [statement]) id where
  defined := by rw [definitions_append, undefined, definitions_defined statement id defines]
  unread := by rw [readings_append, unread, readings_single, silent]
  straight := ⟨code, statement, [], rfl, defines, by simp⟩

theorem waits_push (waits : Waits code id) (plain : statement.opcode.isPlain = true)
    (other : ¬ statement.Defines id) (silent : statement.readings id = 0) :
    Waits (code ++ [statement]) id where
  defined := by rw [definitions_append, waits.defined, definitions_undefined statement id other]
  unread := by rw [readings_append, waits.unread, readings_single, silent]
  straight := by
    obtain ⟨early, definition, late, rfl, defines, straight⟩ := waits.straight
    refine ⟨early, definition, late ++ [statement], by simp, defines, ?_⟩
    intro later member
    rcases List.mem_append.mp member with old | new
    · exact straight later old
    · rw [List.mem_singleton.mp new]
      exact plain

theorem waits_spent (waits : Waits code id) (other : ¬ statement.Defines id) (reads : statement.readings id = 1) :
    Spent (code ++ [statement]) id where
  defined := by rw [definitions_append, waits.defined, definitions_undefined statement id other]
  read := by rw [readings_append, waits.unread, readings_single, reads]
  straight := by
    obtain ⟨early, definition, late, rfl, defines, straight⟩ := waits.straight
    exact ⟨early, definition, late, statement, [], by simp, defines, by lia, straight⟩

theorem spent_push (spent : Spent code id) (other : ¬ statement.Defines id) (silent : statement.readings id = 0) :
    Spent (code ++ [statement]) id where
  defined := by rw [definitions_append, spent.defined, definitions_undefined statement id other]
  read := by rw [readings_append, spent.read, readings_single, silent]
  straight := by
    obtain ⟨early, definition, between, use, late, rfl, defines, reads, straight⟩ := spent.straight
    exact ⟨early, definition, between, use, late ++ [statement], by simp, defines, reads, straight⟩

end Push

/-- What has become of each temporary: it waits, has been read, or was dropped. -/
structure Ledger (known : Nat) (spare : SymbolId → Prop) (code : List Statement) (table : SymbolTable)
    (waiting : Multiset SymbolId) : Prop where
  grown : known ≤ table.size
  unused : ∀ id, table.size < id → definitions code id = 0 ∧ readings code id = 0
  distinct : waiting.Nodup
  allocated : ∀ id ∈ waiting, table.Temporary known id
  waits : ∀ id ∈ waiting, Waits code id
  settled : ∀ id, table.Temporary known id → id ∈ waiting ∨ Spent code id ∨
    (definitions code id = 1 ∧ readings code id = 0) ∧ spare id

/-- A statement that reads temporaries which waited and computes fresh ones. -/
structure Adds (known : Nat) (statement : Statement) (table after : SymbolTable)
    (used fresh : Multiset SymbolId) : Prop where
  grown : table.size ≤ after.size
  kept : ∀ id, table.Temporary known id → after.Temporary known id
  old : ∀ id, after.Temporary known id → table.Temporary known id ∨ id ∈ fresh
  computed : ∀ id ∈ fresh, table.size < id ∧ after.Temporary known id ∧ statement.Defines id
  single : fresh.Nodup
  bounded : ∀ id, after.size < id → ¬ statement.Defines id
  silent : ∀ id, table.size < id → statement.readings id = 0
  reads : ∀ id, table.Temporary known id → statement.readings id = used.count id
  writes : ∀ id, table.Temporary known id → ¬ statement.Defines id

theorem temporary_le (table : SymbolTable) (known : Nat) (id : SymbolId) (temporary : table.Temporary known id) :
    id ≤ table.size := by
  obtain ⟨_, symbol, found, _⟩ := temporary
  exact table.get_le_size id symbol found

theorem temporary_beyond (table : SymbolTable) (id : SymbolId) : ¬ table.Temporary table.size id :=
  fun temporary => Nat.not_lt.mpr (temporary_le table table.size id temporary) temporary.1

section Ledger

variable {known : Nat} {spare : SymbolId → Prop}

theorem ledger_add (code : List Statement) (statement : Statement) (table after : SymbolTable)
    (used fresh rest : Multiset SymbolId) (ledger : Ledger known spare code table (used + rest))
    (adds : Adds known statement table after used fresh)
    (barrier : statement.opcode.isPlain = true ∨ rest = 0) :
    Ledger known spare (code ++ [statement]) after (fresh + rest) := by
  obtain ⟨_, restDistinct, apart⟩ := Multiset.nodup_add.mp ledger.distinct
  have old : ∀ id ∈ rest, table.Temporary known id := fun id member =>
    ledger.allocated id (Multiset.mem_add.mpr (Or.inr member))
  refine ⟨ledger.grown.trans adds.grown, ?_, ?_, ?_, ?_, ?_⟩
  · intro id beyond
    have earlier : table.size < id := Nat.lt_of_le_of_lt adds.grown beyond
    rw [definitions_append, readings_append, readings_single,
      definitions_undefined statement id (adds.bounded id beyond), adds.silent id earlier]
    exact ledger.unused id earlier
  · refine Multiset.nodup_add.mpr ⟨adds.single, restDistinct, ?_⟩
    rw [Multiset.disjoint_left]
    intro id new waiting
    have bound := temporary_le table known id (old id waiting)
    have beyond := (adds.computed id new).1
    lia
  · intro id member
    rcases Multiset.mem_add.mp member with new | waiting
    · exact (adds.computed id new).2.1
    · exact adds.kept id (old id waiting)
  · intro id member
    rcases Multiset.mem_add.mp member with new | waiting
    · obtain ⟨beyond, _, defines⟩ := adds.computed id new
      obtain ⟨undefined, unread⟩ := ledger.unused id beyond
      exact waits_new code statement id undefined unread defines (adds.silent id beyond)
    · have temporary := old id waiting
      have plain : statement.opcode.isPlain = true := by
        rcases barrier with plain | empty
        · exact plain
        · simp [empty] at waiting
      have unused : used.count id = 0 := by
        rw [Multiset.count_eq_zero]
        exact fun member => Multiset.disjoint_left.mp apart member waiting
      exact waits_push code statement id (ledger.waits id (Multiset.mem_add.mpr (Or.inr waiting))) plain
        (adds.writes id temporary) ((adds.reads id temporary).trans unused)
  · intro id temporary
    rcases adds.old id temporary with earlier | new
    · have writes := adds.writes id earlier
      have reads := adds.reads id earlier
      by_cases taken : id ∈ used
      · have waiting : id ∈ used + rest := Multiset.mem_add.mpr (Or.inl taken)
        have once : used.count id = 1 :=
          Multiset.count_eq_one_of_mem (Multiset.nodup_add.mp ledger.distinct).1 taken
        exact Or.inr (Or.inl (waits_spent code statement id (ledger.waits id waiting) writes (reads.trans once)))
      · have silent : statement.readings id = 0 := reads.trans (Multiset.count_eq_zero.mpr taken)
        rcases ledger.settled id earlier with waiting | spent | ⟨⟨defined, unread⟩, spared⟩
        · exact Or.inl (Multiset.mem_add.mpr (Or.inr ((Multiset.mem_add.mp waiting).resolve_left taken)))
        · exact Or.inr (Or.inl (spent_push code statement id spent writes silent))
        · refine Or.inr (Or.inr ⟨⟨?_, ?_⟩, spared⟩)
          · rw [definitions_append, defined, definitions_undefined statement id writes]
          · rw [readings_append, unread, readings_single, silent]
    · exact Or.inl (Multiset.mem_add.mpr (Or.inl new))

theorem ledger_drop (code : List Statement) (table : SymbolTable) (dropped rest : Multiset SymbolId)
    (ledger : Ledger known spare code table (dropped + rest)) (spared : ∀ id ∈ dropped, spare id) :
    Ledger known spare code table rest := by
  have kept : ∀ id ∈ rest, id ∈ dropped + rest := fun id member => Multiset.mem_add.mpr (Or.inr member)
  refine ⟨ledger.grown, ledger.unused, (Multiset.nodup_add.mp ledger.distinct).2.1,
    fun id member => ledger.allocated id (kept id member), fun id member => ledger.waits id (kept id member), ?_⟩
  intro id temporary
  rcases ledger.settled id temporary with waiting | others
  · rcases Multiset.mem_add.mp waiting with gone | stays
    · have waits := ledger.waits id waiting
      exact Or.inr (Or.inr ⟨⟨waits.defined, waits.unread⟩, spared id gone⟩)
    · exact Or.inl stays
  · exact Or.inr others

theorem temporary_push (known : Nat) (table after : SymbolTable) (added : Symbol)
    (symbols : after.symbols = table.symbols ++ [added]) (id : SymbolId) :
    after.Temporary known id ↔ table.Temporary known id ∨
      known < id ∧ id = table.size + 1 ∧ added.kind = .temporary := by
  simp only [SymbolTable.Temporary, table.get_push after added symbols]
  grind

theorem ledger_label (code : List Statement) (table after : SymbolTable) (added : Symbol)
    (symbols : after.symbols = table.symbols ++ [added]) (kind : added.kind = .label)
    (waiting : Multiset SymbolId) (ledger : Ledger known spare code table waiting) :
    Ledger known spare code after waiting := by
  have same : ∀ id, after.Temporary known id ↔ table.Temporary known id := by
    intro id
    simp [temporary_push known table after added symbols, kind]
  have size : after.size = table.size + 1 := by simp [SymbolTable.size, symbols]
  have grown := ledger.grown
  refine ⟨by lia, fun id beyond => ledger.unused id (by lia), ledger.distinct, ?_, ledger.waits, ?_⟩
  · exact fun id member => (same id).mpr (ledger.allocated id member)
  · exact fun id temporary => ledger.settled id ((same id).mp temporary)

def later (known : Nat) (ref : SymbolRef) : Bool := decide (known < ref.id)

def ids (refs : Multiset SymbolRef) : Multiset SymbolId := refs.map SymbolRef.id

theorem ids_zero : ids 0 = 0 := Multiset.map_zero _

theorem ids_add (first second : Multiset SymbolRef) : ids (first + second) = ids first + ids second :=
  Multiset.map_add _ first second

theorem held_count (operand : Operand) (id : SymbolId) (beyond : known < id) :
    (ids (operand.held (later known))).count id = if operand.symbolId? = some id then 1 else 0 := by
  cases operand with
  | immediate literal => simp [ids, Operand.held, Operand.symbolId?]
  | symbol ref =>
      by_cases same : ref.id = id
      · have counted : later known ref = true := by simpa [later, same] using beyond
        simp [ids, held_counted _ ref counted, Operand.symbolId?, same]
      · by_cases counted : later known ref = true
        · simp [ids, held_counted _ ref counted, Operand.symbolId?, same, Ne.symm same]
        · simp [ids, held_uncounted _ ref (by simpa using counted), Operand.symbolId?, same]

theorem held_readings (statement : Statement) (id : SymbolId) (beyond : known < id) :
    statement.readings id = (ids (statement.held (later known))).count id := by
  unfold Statement.readings Statement.held
  induction statement.operands with
  | nil => simp [ids_zero]
  | cons operand rest ih =>
      rw [List.map_cons, List.sum_cons, ids_add, Multiset.count_add, List.countP_cons, ih, Nat.add_comm]
      simp [← held_count operand id beyond]

theorem held_silent (code : List Statement) (statement : Statement) (table : SymbolTable)
    (rest : Multiset SymbolId) (ledger : Ledger known spare code table (ids (statement.held (later known)) + rest))
    (id : SymbolId) (beyond : table.size < id) : statement.readings id = 0 := by
  rw [held_readings statement id (Nat.lt_of_le_of_lt ledger.grown beyond), Multiset.count_eq_zero]
  intro member
  have bound := temporary_le table known id (ledger.allocated id (Multiset.mem_add.mpr (Or.inl member)))
  lia

theorem adds_nothing (statement : Statement) (table : SymbolTable) (used : Multiset SymbolId)
    (bounded : ∀ id, statement.Defines id → id ≤ table.size ∧ ¬ table.Temporary known id)
    (silent : ∀ id, table.size < id → statement.readings id = 0)
    (reads : ∀ id, table.Temporary known id → statement.readings id = used.count id) :
    Adds known statement table table used 0 where
  grown := Nat.le_refl _
  kept := fun _ temporary => temporary
  old := fun _ temporary => Or.inl temporary
  computed := by simp
  single := Multiset.nodup_zero
  bounded := fun id beyond defines => by
    have bound := (bounded id defines).1
    lia
  silent := silent
  reads := reads
  writes := fun id temporary defines => (bounded id defines).2 temporary

theorem label_not_temporary (known : Nat) (state : Lowering) (label : SymbolRef)
    (owned : state.Owns .label label) :
    label.id ≤ state.table.size ∧ ¬ state.table.Temporary known label.id := by
  obtain ⟨symbol, found, kind, _⟩ := owned
  refine ⟨state.table.get_le_size label.id symbol found, ?_⟩
  rintro ⟨_, other, same, temporary⟩
  grind

theorem adds_computed (code : List Statement) (statement : Statement) (table after : SymbolTable) (added : Symbol)
    (result : SymbolRef) (rest : Multiset SymbolId)
    (ledger : Ledger known spare code table (ids (statement.held (later known)) + rest))
    (symbols : after.symbols = table.symbols ++ [added]) (kind : added.kind = .temporary)
    (id : result.id = table.size + 1) (into : statement.result = some (.symbol result)) :
    Adds known statement table after (ids (statement.held (later known)))
      (ids ((Operand.symbol result).held (later known))) := by
  have beyond : known < result.id := by
    have grown := ledger.grown
    lia
  have held : ids ((Operand.symbol result).held (later known)) = {result.id} := by
    rw [held_counted _ result (by simpa [later] using beyond), ids, Multiset.map_singleton]
  have size : after.size = table.size + 1 := by simp [SymbolTable.size, symbols]
  have defines : ∀ other, statement.Defines other ↔ other = result.id := by
    intro other
    simp [Statement.Defines, into, Operand.symbolId?, eq_comm]
  have same := temporary_push known table after added symbols
  rw [held]
  refine ⟨by lia, ?_, ?_, ?_, Multiset.nodup_singleton _, ?_, held_silent code statement table rest ledger, ?_, ?_⟩
  · exact fun other temporary => (same other).mpr (Or.inl temporary)
  · intro other temporary
    rcases (same other).mp temporary with old | ⟨_, new, _⟩
    · exact Or.inl old
    · exact Or.inr (Multiset.mem_singleton.mpr (new.trans id.symm))
  · intro other member
    obtain rfl := Multiset.mem_singleton.mp member
    exact ⟨by lia, (same _).mpr (Or.inr ⟨beyond, id, kind⟩), (defines _).mpr rfl⟩
  · intro other above into
    have equal := (defines other).mp into
    lia
  · exact fun other temporary => held_readings statement other temporary.1
  · intro other temporary into
    have bound := temporary_le table known other temporary
    have equal := (defines other).mp into
    lia

def Balanced (known : Nat) (spare : SymbolId → Prop) (start : List Statement) (stage : Stage) : Prop :=
  ∃ code, stage.1.program.statements = start ++ code ∧ Ledger known spare code stage.1.table (ids stage.2)

theorem balanced_emit (start : List Statement) (statement : Statement) (line : Line) (state allocated after : Lowering)
    (used fresh rest : Multiset SymbolRef) (same : allocated.program = state.program)
    (emitted : emit statement allocated = .ok line after)
    (balanced : Balanced known spare start (state, used + rest))
    (adds : ∀ code, Ledger known spare code state.table (ids used + ids rest) →
      Adds known statement state.table allocated.table (ids used) (ids fresh))
    (barrier : statement.opcode.isPlain = true ∨ rest = 0) :
    Balanced known spare start (after, fresh + rest) := by
  obtain ⟨code, program, ledger⟩ := balanced
  obtain ⟨extended, table⟩ := emit_extends statement allocated after line emitted
  rw [ids_add] at ledger
  refine ⟨code ++ [statement], ?_, ?_⟩
  · rw [extended.program, same, program, List.append_assoc]
  · rw [table, ids_add]
    exact ledger_add code statement state.table allocated.table _ _ _ ledger (adds code ledger)
      (barrier.imp_right fun empty => by rw [empty, ids_zero])

theorem balanced_step (start : List Statement) (before after : Stage)
    (step : Step (later known) spare before after) (balanced : Balanced known spare start before) :
    Balanced known spare start after := by
  cases step with
  | compute statement ty result line state allocated after rest plain into fresh emitted =>
      obtain ⟨function, name, _, rfl, symbols, program⟩ := allocate_pushes .temporary ty state allocated result fresh
      exact balanced_emit start statement line state allocated after _ _ rest program emitted balanced
        (fun code ledger => adds_computed code statement state.table allocated.table _ _ _ ledger symbols rfl rfl
          into) (Or.inl plain)
  | consume statement line state after rest plain uncounted emitted =>
      rw [← zero_add rest]
      apply balanced_emit start statement line state state after _ 0 rest rfl emitted balanced _ (Or.inl plain)
      intro code ledger
      apply adds_nothing statement state.table _ _ (held_silent code statement state.table _ ledger)
        fun id temporary => held_readings statement id temporary.1
      intro id defines
      obtain ⟨ref, into, rfl⟩ := (statement.defines_iff id).mp defines
      have early : ¬ known < ref.id := by simpa [later] using uncounted ref into
      have grown := ledger.grown
      exact ⟨by lia, fun temporary => early temporary.1⟩
  | branch statement line state after ends owned emitted =>
      rw [← add_zero (statement.held (later known))] at balanced
      rw [← add_zero (0 : Multiset SymbolRef)]
      apply balanced_emit start statement line state state after _ 0 0 rfl emitted balanced _ (Or.inr rfl)
      intro code ledger
      apply adds_nothing statement state.table _ _ (held_silent code statement state.table _ ledger)
        fun id temporary => held_readings statement id temporary.1
      intro id defines
      obtain ⟨ref, into, rfl⟩ := (statement.defines_iff id).mp defines
      exact label_not_temporary known state ref (owned ref into)
  | place statement label line state after shape owned emitted =>
      have reads : ∀ id, 0 < statement.readings id → id = label.id := by
        intro id read
        rcases shape with rfl | rfl
        all_goals
          simp [Statement.readings, Statement.operands, mark, goto, Operand.symbolId?] at read
          grind
      rw [← add_zero (0 : Multiset SymbolRef)] at balanced ⊢
      apply balanced_emit start statement line state state after 0 0 0 rfl emitted balanced _ (Or.inr rfl)
      intro code ledger
      obtain ⟨bound, other⟩ := label_not_temporary known state label owned
      apply adds_nothing statement state.table
      · intro id defines
        rcases shape with rfl | rfl
        all_goals cases defines
      · intro id beyond
        by_contra read
        have same := reads id (Nat.pos_of_ne_zero read)
        lia
      · intro id temporary
        rw [ids_zero, Multiset.count_zero]
        by_contra read
        exact other (reads id (Nat.pos_of_ne_zero read) ▸ temporary)
  | label label state after waiting fresh =>
      obtain ⟨code, program, ledger⟩ := balanced
      obtain ⟨function, name, _, _, symbols, same⟩ := allocate_pushes .label .void state after label fresh
      exact ⟨code, by rw [same]; exact program,
        ledger_label code state.table after.table _ symbols rfl _ ledger⟩
  | drop state dropped rest spared =>
      obtain ⟨code, program, ledger⟩ := balanced
      rw [ids_add] at ledger
      refine ⟨code, program, ledger_drop code state.table _ _ ledger ?_⟩
      intro id member
      obtain ⟨ref, gone, rfl⟩ := Multiset.mem_map.mp member
      exact spared ref gone

theorem balanced_steps (start : List Statement) (before after : Stage)
    (steps : Steps (later known) spare before after) (balanced : Balanced known spare start before) :
    Balanced known spare start after := by
  induction steps with
  | refl => exact balanced
  | tail _ step ih => exact balanced_step start _ _ step ih

end Ledger

end Lower

end ThreeAddress
