import ThreeAddress.Proofs.Lowering.Temporaries

set_option autoImplicit false

namespace ThreeAddress

universe u v

structure Datum (V : Type u) where
  ty : ValueType
  value : V

abbrev Store (V : Type u) := SymbolId → V

/-- What literals stand for and what operators compute: from their operands, at a width, for a
result of some type. A load has the memory, the array with what is stored for it, and an index. -/
structure Valuation (V : Type u) (M : Type v) where
  literal : Immediate → V
  apply : Opcode → Width → List (Datum V) → ValueType → V
  load : Width → M → SymbolRef → V → Datum V → ValueType → V

def Opcode.isComputation : Opcode → Bool
  | .binary _ | .unary _ | .setIf _ | .coerce | .load => true
  | _ => false

def Node.callFree : Node → Bool
  | .leaf kind _ | .constant kind _ _ | .symbol kind _ _ => kind ≠ .call
  | .unary kind _ child => kind ≠ .call && child.callFree
  | .binary kind _ left right => kind ≠ .call && left.callFree && right.callFree

def ArithmeticOperator.operation (operator : ArithmeticOperator) (ty : ValueType) : Opcode :=
  match operator, ty.isSigned with
  | .add, _ => .binary .add
  | .sub, _ => .binary .sub
  | .mul, _ => .binary .mul
  | .and, _ => .binary .and
  | .or, _ => .binary .or
  | .div, true | .idiv, true => .binary .idiv
  | .div, false | .idiv, false => .binary .div
  | .mod, true => .binary .imod
  | .mod, false => .binary .mod

def Relation.operation (relation : Relation) (ty : ValueType) : Opcode :=
  match relation, ty.isSigned with
  | .eq, _ => .setIf .equal
  | .ne, _ => .setIf .notEqual
  | .lt, true => .setIf .less
  | .lt, false => .setIf .below
  | .gt, true => .setIf .greater
  | .gt, false => .setIf .above
  | .le, true => .setIf .lessOrEqual
  | .le, false => .setIf .belowOrEqual
  | .ge, true => .setIf .greaterOrEqual
  | .ge, false => .setIf .notBelow

namespace ValueType

def meeting (a b : ValueType) : ValueType :=
  if a = .uint ∨ b = .uint then .uint else if a = b then a else .int

/-- The type of an operation on two values in an expression of some type. Only a scalar type counts,
and one that is too small for the values meets their own. -/
def computation (wanted a b : ValueType) : ValueType :=
  if wanted.isScalar then
    if wanted.bytes < (a.meeting b).bytes then wanted.meeting (a.meeting b) else wanted
  else a.meeting b

theorem common_meeting (a b : ValueType) : a.common b = a.meeting b := by
  unfold common meeting
  split_ifs <;> simp_all

end ValueType

namespace Valuation

variable {V : Type u} {M : Type v} (valuation : Valuation V M) (memory : M)

def read (operand : Operand) (store : Store V) : Datum V :=
  match operand with
  | .immediate literal => ⟨literal.ty, valuation.literal literal⟩
  | .symbol ref => ⟨ref.ty, store ref.id⟩

def compute (statement : Statement) (ty : ValueType) (store : Store V) : V :=
  match statement.opcode, statement.first, statement.second with
  | .load, some (.symbol array), some index =>
    valuation.load statement.width memory array (store array.id) (valuation.read index store) ty
  | opcode, _, _ =>
    valuation.apply opcode statement.width (statement.operands.map fun operand => valuation.read operand store) ty

def execute (statement : Statement) (store : Store V) : Store V :=
  match statement.result with
  | some (.symbol result) =>
    Function.update store result.id (valuation.compute memory statement result.ty store)
  | _ => store

def run (code : List Statement) (store : Store V) : Store V :=
  code.foldl (fun store statement => valuation.execute memory statement store) store

def coerced (ty : ValueType) (a : Datum V) : Datum V := ⟨ty, valuation.apply .coerce ty.width [a] ty⟩

def widened (ty : ValueType) (a : Datum V) : Datum V :=
  if a.ty.widensTo ty then valuation.coerced ty a else a

def compared (relation : Relation) (a b : Datum V) : Datum V :=
  let ty := a.ty.meeting b.ty
  ⟨.bool, valuation.apply (relation.operation ty) ty.width [valuation.widened ty a, valuation.widened ty b] .bool⟩

def combined (operator : ArithmeticOperator) (wanted : ValueType) (a b : Datum V) : Datum V :=
  let ty := wanted.computation a.ty b.ty
  ⟨ty, valuation.apply (operator.operation ty) ty.width [valuation.widened ty a, valuation.widened ty b] ty⟩

def applied (operator : UnaryOp) (wanted : ValueType) (a : Datum V) : Datum V :=
  let ty := if wanted.isScalar then wanted else a.ty
  ⟨ty, valuation.apply (.unary operator) ty.width [valuation.widened ty a] ty⟩

def transformed (operator : UnaryOperator) (ty : ValueType) (a : Datum V) : Datum V :=
  match operator with
  | .not => valuation.applied .not ty a
  | .minus => valuation.applied .neg ty a
  | .plus => valuation.widened ty a
  | .coercion => if ty.isScalar ∧ a.ty ≠ ty then valuation.coerced ty a else a

def loaded (array : SymbolRef) (ty : ValueType) (store : Store V) (index : Datum V) : Datum V :=
  let ty := array.ty.element?.getD ty
  ⟨ty, valuation.load ty.width memory array (store array.id) index ty⟩

def evaluate (store : Store V) : Node → Option (Datum V)
  | .leaf _ _ => none
  | .constant kind _ literal => if kind = .number then some ⟨literal.ty, valuation.literal literal⟩ else none
  | .symbol kind ty id => if kind = .identifier then some ⟨ty, store id⟩ else none
  | .unary kind ty child =>
    match kind with
    | .unary operator => (evaluate store child).map (valuation.transformed operator ty)
    | _ => none
  | .binary kind ty left right =>
    match kind with
    | .relational relation =>
      (evaluate store left).bind fun a => (evaluate store right).map (valuation.compared relation a)
    | .arithmetic operator =>
      (evaluate store left).bind fun a => (evaluate store right).map (valuation.combined operator ty a)
    | .elementRead =>
      left.reference?.bind fun array => (evaluate store right).map (valuation.loaded memory array ty store)
    | _ => none

theorem evaluate_congr (node : Node) (store other : Store V) (same : ∀ id ∈ node.symbols, store id = other id) :
    valuation.evaluate memory store node = valuation.evaluate memory other node := by
  induction node with
  | leaf kind ty => rfl
  | constant kind ty literal => rfl
  | symbol kind ty id => simp only [evaluate, same id (by simp [Node.symbols])]
  | unary kind ty child ih => simp only [evaluate, ih same]
  | binary kind ty left right ihLeft ihRight =>
      have sameLeft := ihLeft fun id member => same id (List.mem_append_left _ member)
      have sameRight := ihRight fun id member => same id (List.mem_append_right _ member)
      unfold evaluate
      split
      next => rw [sameLeft, sameRight]
      next => rw [sameLeft, sameRight]
      next =>
        cases left with
        | symbol own base id =>
            have address :
                valuation.loaded memory ⟨id, base⟩ ty store = valuation.loaded memory ⟨id, base⟩ ty other := by
              funext index
              simp only [loaded, same id (by simp [Node.symbols])]
            rw [sameRight]
            exact congrArg (Option.map · _) address
        | _ => rfl
      next => rfl

theorem run_append (first second : List Statement) (store : Store V) :
    valuation.run memory (first ++ second) store = valuation.run memory second (valuation.run memory first store) :=
  List.foldl_append

theorem execute_frame (statement : Statement) (store : Store V) (id : SymbolId) (other : ¬ statement.Defines id) :
    valuation.execute memory statement store id = store id := by
  unfold execute
  cases into : statement.result with
  | none => rfl
  | some operand =>
      cases operand with
      | immediate literal => rfl
      | symbol result =>
          apply Function.update_of_ne
          rintro rfl
          exact other ((statement.defines_iff _).mpr ⟨result, into, rfl⟩)

theorem run_frame (code : List Statement) (store : Store V) (id : SymbolId)
    (other : ∀ statement ∈ code, ¬ statement.Defines id) : valuation.run memory code store id = store id := by
  induction code generalizing store with
  | nil => rfl
  | cons statement rest ih =>
      have later := ih (valuation.execute memory statement store) fun next member =>
        other next (List.mem_cons_of_mem _ member)
      exact later.trans (valuation.execute_frame memory statement store id (other statement List.mem_cons_self))

end Valuation

namespace Lower

variable {V : Type u} {M : Type v} {D E : Type u} {α β : Type}

/-- Depends only on the first symbols of the table. -/
def Stable {D : Type u} (known : Nat) (f : Store V → D) : Prop :=
  ∀ store other : Store V, (∀ id ≤ known, store id = other id) → f store = f other

structure Computed (state after : Lowering) (code : List Statement) : Prop where
  extended : state.Extends after code
  computes : ∀ statement ∈ code, statement.opcode.isComputation = true
  fresh : ∀ statement ∈ code, ∀ id, statement.Defines id → after.table.Temporary state.table.size id

theorem temporary_grows (known : Nat) (before after : SymbolTable) (grown : before.symbols <+: after.symbols)
    (id : SymbolId) (temporary : before.Temporary known id) : after.Temporary known id := by
  obtain ⟨beyond, symbol, found, kind⟩ := temporary
  exact ⟨beyond, symbol, before.get_of_grown after grown id symbol found, kind⟩

theorem computed_refl (state : Lowering) : Computed state state [] where
  extended := state.extends_refl
  computes _ member := by cases member
  fresh _ member := by cases member

theorem computed_trans (state middle after : Lowering) (first second : List Statement)
    (early : Computed state middle first) (late : Computed middle after second) :
    Computed state after (first ++ second) where
  extended := Lowering.extends_trans state middle after first second early.extended late.extended
  computes statement member := by
    rcases List.mem_append.mp member with before | behind
    · exact early.computes statement before
    · exact late.computes statement behind
  fresh statement member id defines := by
    rcases List.mem_append.mp member with before | behind
    · exact temporary_grows _ _ _ late.extended.symbols id (early.fresh statement before id defines)
    · obtain ⟨beyond, temporary⟩ := late.fresh statement behind id defines
      exact ⟨Nat.lt_of_le_of_lt early.extended.size beyond, temporary⟩

section Holds

variable (valuation : Valuation V M) (memory : M)

structure Holds (state after : Lowering) (code : List Statement) (outcome : Store V → D)
    (datum : Store V → Option D) : Prop where
  computed : Computed state after code
  stable : Stable after.table.size outcome
  value : ∀ store, datum store = some (outcome (valuation.run memory code store))

def Computes (action : Lower α) (state : Lowering) (outcome : α → Store V → D) (datum : Store V → Option D) : Prop :=
  ∀ a after, action state = .ok a after → ∃ code, Holds valuation memory state after code (outcome a) datum

theorem stable_run (state after : Lowering) (code : List Statement) (computed : Computed state after code)
    (f : Store V → D) (stable : Stable state.table.size f) (store : Store V) :
    f (valuation.run memory code store) = f store := by
  apply stable
  intro id bound
  apply valuation.run_frame memory
  intro statement member defines
  have beyond := (computed.fresh statement member id defines).1
  lia

theorem stable_mono {f : Store V → D} (less more : Nat) (bound : less ≤ more) (stable : Stable less f) :
    Stable more f := fun store other same =>
  stable store other fun id within => same id (Nat.le_trans within bound)

theorem computes_pure (a : α) (state : Lowering) (outcome : α → Store V → D)
    (stable : Stable state.table.size (outcome a)) :
    Computes valuation memory (pure a : Lower α) state outcome fun store => some (outcome a store) := by
  intro b after ran
  obtain ⟨rfl, rfl⟩ := (pure_ok a b state after).mp ran
  exact ⟨[], computed_refl state, stable, fun _ => rfl⟩

theorem computes_bind (action : Lower α) (next : α → Lower β) (state : Lowering) (out : α → Store V → D)
    (last : β → Store V → E) (datum : Store V → Option D) (change : D → E)
    (first : Computes valuation memory action state out datum)
    (rest : ∀ a middle, Stable middle.table.size (out a) →
      Computes valuation memory (next a) middle last fun store => some (change (out a store))) :
    Computes valuation memory (action >>= next) state last fun store => (datum store).map change := by
  intro b after ran
  obtain ⟨a, middle, early, late⟩ := (bind_ok action next state after b).mp ran
  obtain ⟨code, holds⟩ := first a middle early
  obtain ⟨more, holdsLast⟩ := rest a middle holds.stable b after late
  refine ⟨code ++ more, computed_trans state middle after code more holds.computed holdsLast.computed,
    holdsLast.stable, ?_⟩
  intro store
  rw [valuation.run_append, holds.value, Option.map_some]
  exact holdsLast.value _

theorem computes_both {γ : Type} (left : Lower α) (right : α → Lower β) (next : α → β → Lower γ) (state : Lowering)
    (out : α → Store V → D) (other : β → Store V → D) (last : γ → Store V → E) (one two : Store V → Option D)
    (change : D → D → E) (first : Computes valuation memory left state out one)
    (second : ∀ a middle, state.table.size ≤ middle.table.size →
      Computes valuation memory (right a) middle other two)
    (known : Stable state.table.size two)
    (rest : ∀ a b later, Stable later.table.size (out a) → Stable later.table.size (other b) →
      Computes valuation memory (next a b) later last fun store => some (change (out a store) (other b store))) :
    Computes valuation memory (left >>= fun a => right a >>= next a) state last fun store =>
      (one store).bind fun a => (two store).map (change a) := by
  -- Two outcomes, the first of which waits while the second is computed.
  intro c after ran
  obtain ⟨a, middle, early, following⟩ := (bind_ok _ _ state after c).mp ran
  obtain ⟨b, later, late, final⟩ := (bind_ok _ _ middle after c).mp following
  obtain ⟨code, holds⟩ := first a middle early
  obtain ⟨more, holdsOther⟩ := second a middle holds.computed.extended.size b later late
  have waits := stable_mono _ _ holdsOther.computed.extended.size holds.stable
  obtain ⟨tail, holdsLast⟩ := rest a b later waits holdsOther.stable c after final
  have both := computed_trans state middle later code more holds.computed holdsOther.computed
  refine ⟨(code ++ more) ++ tail, computed_trans state later after _ tail both holdsLast.computed,
    holdsLast.stable, ?_⟩
  intro store
  have same := stable_run valuation memory state middle code holds.computed two known store
  have kept := stable_run valuation memory middle later more holdsOther.computed (out a) holds.stable
    (valuation.run memory code store)
  rw [valuation.run_append, valuation.run_append, holds.value, ← same, holdsOther.value, Option.bind_some,
    Option.map_some, ← kept]
  exact holdsLast.value _

variable {valuation memory} in
theorem computes_congr {action : Lower α} {state : Lowering} {outcome : α → Store V → D} (datum : Store V → Option D)
    {other : Store V → Option D} (same : ∀ store, datum store = other store)
    (computes : Computes valuation memory action state outcome datum) :
    Computes valuation memory action state outcome other :=
  funext same ▸ computes

theorem computes_result (ty : ValueType) (statement : SymbolRef → Statement) (state : Lowering) (result : Store V → V)
    (into : ∀ ref, (statement ref).result = some (.symbol ref))
    (computation : ∀ ref, (statement ref).opcode.isComputation = true)
    (same : ∀ ref store, valuation.compute memory (statement ref) ty store = result store) :
    Computes valuation memory (do
      let ref ← freshTemporary ty
      discard (emit (statement ref))
      return Operand.symbol ref) state valuation.read fun store => some ⟨ty, result store⟩ := by
  intro operand after ran
  obtain ⟨ref, allocated, rfl, fresh, extended, table⟩ := computed_ok ty statement state after operand ran
  obtain ⟨absent, symbol, found, kind⟩ := allocates_fresh ty state allocated ref fresh
  obtain ⟨_, _, _, rfl, symbols, _⟩ := allocate_pushes .temporary ty state allocated ref fresh
  refine ⟨[statement ⟨state.table.size + 1, ty⟩], ⟨extended, ?_, ?_⟩, ?_, ?_⟩
  · intro other member
    rw [List.mem_singleton.mp member]
    exact computation _
  · intro other member id defines
    obtain ⟨target, written, rfl⟩ := (other.defines_iff id).mp defines
    rw [List.mem_singleton.mp member, into] at written
    cases written
    exact ⟨Nat.lt_succ_self _, symbol, table ▸ found, kind⟩
  · intro store other agree
    have size : after.table.size = state.table.size + 1 := by simp [table, SymbolTable.size, symbols]
    rw [Valuation.read, Valuation.read, agree _ (by rw [size])]
  · intro store
    rw [Valuation.run, List.foldl_cons, List.foldl_nil, Valuation.execute, into]
    simp only [Valuation.read, Function.update_self, same]

theorem computes_coerce (value : Operand) (ty : ValueType) (state : Lowering) :
    Computes valuation memory (coerce value ty) state valuation.read fun store =>
      some (valuation.coerced ty (valuation.read value store)) :=
  computes_result valuation memory ty _ state _ (fun _ => rfl) (fun _ => rfl) fun _ _ => rfl

theorem read_ty (operand : Operand) (store : Store V) : (valuation.read operand store).ty = operand.ty := by
  cases operand <;> rfl

theorem computes_widen (value : Operand) (ty : ValueType) (state : Lowering)
    (stable : Stable state.table.size (valuation.read value)) :
    Computes valuation memory (widen value ty) state valuation.read fun store =>
      some (valuation.widened ty (valuation.read value store)) := by
  rw [widen]
  by_cases wider : value.ty.widensTo ty = true
  · rw [if_pos wider]
    refine computes_congr _ ?_ (computes_coerce valuation memory value ty state)
    intro store
    rw [Valuation.widened, read_ty, if_pos wider]
  · rw [if_neg wider]
    refine computes_congr _ ?_ (computes_pure valuation memory value state valuation.read stable)
    intro store
    rw [Valuation.widened, read_ty, if_neg wider]

def readPair (triple : Operand × Operand × ValueType) (store : Store V) : Datum V × Datum V × ValueType :=
  (valuation.read triple.1 store, valuation.read triple.2.1 store, triple.2.2)

def matched (wanted : Option ValueType) (a b : Datum V) : Datum V × Datum V × ValueType :=
  let ty := operationType wanted a.ty b.ty
  (valuation.widened ty a, valuation.widened ty b, ty)

def operated (combination : Combination) (a b : Datum V) : Datum V :=
  let ty := operationType combination.wanted a.ty b.ty
  ⟨combination.result ty, valuation.apply (combination.opcode ty) ty.width
    [valuation.widened ty a, valuation.widened ty b] (combination.result ty)⟩

theorem compare_operation (relation : Relation) (ty : ValueType) :
    (Combination.compare relation).opcode ty = relation.operation ty := by
  unfold Relation.operation
  cases relation <;> cases signed : ty.isSigned <;> simp [Combination.opcode, Opcode.set, Condition.testing, signed]

theorem compute_operation (operator : ArithmeticOperator) (wanted ty : ValueType) :
    (Combination.compute operator wanted).opcode ty = operator.operation ty := by
  unfold ArithmeticOperator.operation
  cases operator <;> cases signed : ty.isSigned <;> simp [Combination.opcode, ArithmeticOperator.select, signed]

theorem compare_type (relation : Relation) (a b : ValueType) :
    operationType (Combination.compare relation).wanted a b = a.meeting b :=
  a.common_meeting b

theorem compute_type (operator : ArithmeticOperator) (wanted a b : ValueType) :
    operationType (Combination.compute operator wanted).wanted a b = wanted.computation a b := by
  unfold ValueType.computation
  by_cases scalar : wanted.isScalar = true
  · simp only [Combination.wanted, scalar?, if_pos scalar, operationType, ValueType.common_meeting]
    split_ifs <;> first | rfl | lia
  · simp only [Combination.wanted, scalar?, if_neg scalar, operationType, ValueType.common_meeting]

theorem scalar_type_given (wanted ty : ValueType) :
    (scalar? wanted).getD ty = if wanted.isScalar then wanted else ty := by
  unfold scalar?
  split_ifs <;> rfl

theorem compared_operated (relation : Relation) :
    valuation.compared relation = operated valuation (.compare relation) := by
  funext a b
  simp only [Valuation.compared, operated, compare_type, compare_operation]
  rfl

theorem combined_operated (operator : ArithmeticOperator) (wanted : ValueType) :
    valuation.combined operator wanted = operated valuation (.compute operator wanted) := by
  funext a b
  simp only [Valuation.combined, operated, compute_type, compute_operation]
  rfl

theorem stable_widened (ty : ValueType) (value : Operand) (known : Nat) (stable : Stable known (valuation.read value)) :
    Stable known fun store => some (valuation.widened ty (valuation.read value store)) := by
  intro store other same
  simp only [stable store other same]

section Operators

variable (left right : Lower Operand) (state : Lowering) (one two : Store V → Option (Datum V))
  (first : Computes valuation memory left state valuation.read one)
  (second : ∀ middle : Lowering, state.table.size ≤ middle.table.size →
    Computes valuation memory right middle valuation.read two)
  (known : Stable state.table.size two)

include first second known

theorem computes_operands (wanted : Option ValueType) :
    Computes valuation memory (operands wanted left right) state (readPair valuation) fun store =>
      (one store).bind fun a => (two store).map (matched valuation wanted a) := by
  apply computes_both valuation memory left (fun _ => right) _ state valuation.read valuation.read _ one two _ first
    (fun _ => second) known
  intro a b later stableLeft stableRight
  have widening := computes_both valuation memory (widen a (operationType wanted a.ty b.ty))
    (fun _ => widen b (operationType wanted a.ty b.ty)) (fun x y => pure (x, y, operationType wanted a.ty b.ty)) later
    valuation.read valuation.read (readPair valuation) _ _ (fun x y => (x, y, operationType wanted a.ty b.ty))
    (computes_widen valuation memory a _ later stableLeft)
    (fun _ middle grown => computes_widen valuation memory b _ middle (stable_mono _ _ grown stableRight))
    (stable_widened valuation _ b _ stableRight)
    (fun x y last stableX stableY => computes_pure valuation memory (x, y, _) last (readPair valuation)
      (by
        intro store other same
        simp only [readPair, stableX store other same, stableY store other same]))
  refine computes_congr _ ?_ widening
  intro store
  simp only [matched, read_ty, Option.bind_some, Option.map_some]

theorem computes_combination (combination : Combination) :
    Computes valuation memory (combination.lower left right) state valuation.read fun store =>
      (one store).bind fun a => (two store).map (operated valuation combination a) := by
  have computes := computes_bind valuation memory _ _ state _ valuation.read _
    (fun triple => ⟨combination.result triple.2.2, valuation.apply (combination.opcode triple.2.2) triple.2.2.width
      [triple.1, triple.2.1] (combination.result triple.2.2)⟩)
    (computes_operands valuation memory left right state one two first second known combination.wanted)
    (fun triple middle _ => computes_result valuation memory (combination.result triple.2.2)
      (combination.statement triple.2.2 triple.1 triple.2.1) middle _ (fun _ => rfl)
      (fun _ => by cases combination <;> rfl) fun _ _ => by cases combination <;> rfl)
  refine computes_congr _ ?_ computes
  intro store
  simp only [Option.map_bind, Function.comp_def, Option.map_map]
  rfl

end Operators

theorem computes_apply_unary (operator : UnaryOp) (ty : ValueType) (value : Operand) (state : Lowering)
    (stable : Stable state.table.size (valuation.read value)) :
    Computes valuation memory (applyUnary operator ty value) state valuation.read fun store =>
      some (valuation.applied operator ty (valuation.read value store)) := by
  have computes := computes_bind valuation memory _ _ state valuation.read valuation.read _
    (fun a => ⟨(scalar? ty).getD value.ty, valuation.apply (.unary operator) ((scalar? ty).getD value.ty).width [a]
      ((scalar? ty).getD value.ty)⟩)
    (computes_widen valuation memory value ((scalar? ty).getD value.ty) state stable)
    (fun wide middle _ => computes_result valuation memory ((scalar? ty).getD value.ty)
      (fun result => ⟨((scalar? ty).getD value.ty).width, .unary operator, some wide, none, some (.symbol result)⟩)
      middle _ (fun _ => rfl) (fun _ => rfl) fun _ _ => rfl)
  refine computes_congr _ ?_ computes
  intro store
  simp only [Valuation.applied, read_ty, Option.map_some, scalar_type_given]

theorem computes_unary (operator : UnaryOperator) (ty : ValueType) (value : Lower Operand) (state : Lowering)
    (one : Store V → Option (Datum V)) (first : Computes valuation memory value state valuation.read one) :
    Computes valuation memory (unary operator ty value) state valuation.read fun store =>
      (one store).map (valuation.transformed operator ty) := by
  apply computes_bind valuation memory value _ state valuation.read valuation.read one _ first
  intro a middle stable
  cases operator with
  | not => exact computes_apply_unary valuation memory .not ty a middle stable
  | minus => exact computes_apply_unary valuation memory .neg ty a middle stable
  | plus => exact computes_widen valuation memory a ty middle stable
  | coercion =>
      simp only [Valuation.transformed, read_ty]
      by_cases needed : ty.isScalar = true ∧ a.ty ≠ ty
      · simp only [if_pos needed]
        exact computes_coerce valuation memory a ty middle
      · simp only [if_neg needed]
        exact computes_pure valuation memory a middle valuation.read stable

theorem computes_beside (action : Lower α) (state : Lowering) (outcome : α → Store V → D) (datum : Store V → Option D)
    (extra : Store V → E) (known : Stable state.table.size extra)
    (computes : Computes valuation memory action state outcome datum) :
    Computes valuation memory action state (fun a store => (extra store, outcome a store)) fun store =>
      (datum store).map fun d => (extra store, d) := by
  intro a after ran
  obtain ⟨code, holds⟩ := computes a after ran
  refine ⟨code, holds.computed, ?_, ?_⟩
  · intro store other same
    have later := stable_mono _ _ holds.computed.extended.size known
    simp only [later store other same, holds.stable store other same]
  · intro store
    have kept := stable_run valuation memory state after code holds.computed extra known store
    simp only [holds.value, Option.map_some, kept]

theorem computes_element (kind : NodeKind) (ty : ValueType) (base : Node) (array : SymbolRef)
    (named : base.reference? = some array) (index : Lower Operand) (state : Lowering)
    (bound : array.id ≤ state.table.size) (one : Store V → Option (Datum V))
    (first : Computes valuation memory index state valuation.read one) :
    Computes valuation memory (require kind (readElement ty base index)) state valuation.read fun store =>
      (one store).map (valuation.loaded memory array ty store) := by
  rw [read_element_named ty base index array named, require_some]
  have address : Stable state.table.size fun store : Store V => store array.id := fun _ _ same => same array.id bound
  have computes := computes_bind valuation memory index _ state _ valuation.read _
    (fun pair => ⟨array.ty.element?.getD ty, valuation.load (array.ty.element?.getD ty).width memory array pair.1 pair.2
      (array.ty.element?.getD ty)⟩)
    (computes_beside valuation memory index state valuation.read one _ address first)
    (fun subscript middle _ => computes_result valuation memory (array.ty.element?.getD ty)
      (fun result => ⟨(array.ty.element?.getD ty).width, .load, some (.symbol array), some subscript,
        some (.symbol result)⟩) middle _ (fun _ => rfl) (fun _ => rfl) fun _ _ => rfl)
  refine computes_congr _ ?_ computes
  intro store
  rw [Option.map_map]
  rfl

theorem computes_missing (node : Node) (missing : value node = pure none) (state : Lowering)
    (datum : Store V → Option (Datum V)) : Computes valuation memory (valueOf node) state valuation.read datum := by
  intro operand after ran
  rw [valueOf, missing, require_none] at ran
  cases ran

theorem stable_evaluate (node : Node) (known : Nat) (listed : ∀ id ∈ node.symbols, id ≤ known) :
    Stable known fun store => valuation.evaluate memory store node := fun store other same =>
  valuation.evaluate_congr memory node store other fun id member => same id (listed id member)

def Faithful (node : Node) : Prop :=
  ∀ state : Lowering, (∀ id ∈ node.symbols, id ≤ state.table.size) →
    Computes valuation memory (valueOf node) state valuation.read fun store => valuation.evaluate memory store node

theorem faithful_constant (kind : NodeKind) (ty : ValueType) (literal : Immediate) :
    Faithful valuation memory (.constant kind ty literal) := by
  intro state _
  by_cases number : kind = .number
  · subst number
    exact computes_pure valuation memory (.immediate literal) state valuation.read fun _ _ _ => rfl
  · exact computes_missing valuation memory _ (by rw [value, if_neg number]) state _

theorem faithful_symbol (kind : NodeKind) (ty : ValueType) (id : SymbolId) :
    Faithful valuation memory (.symbol kind ty id) := by
  intro state listed
  by_cases identifier : kind = .identifier
  · subst identifier
    apply computes_pure valuation memory (.symbol ⟨id, ty⟩) state valuation.read
    intro store other same
    rw [Valuation.read, Valuation.read, same id (listed id (by simp [Node.symbols]))]
  · exact computes_missing valuation memory _ (by rw [value, if_neg identifier]) state _

theorem faithful_unary (kind : NodeKind) (ty : ValueType) (child : Node) (operand : Faithful valuation memory child) :
    Faithful valuation memory (.unary kind ty child) := by
  intro state listed
  cases kind with
  | unary operator =>
      rw [value_of_unary]
      exact computes_unary valuation memory operator ty _ state _ (operand state listed)
  | _ => exact computes_missing valuation memory _ rfl state _

theorem faithful_binary (kind : NodeKind) (ty : ValueType) (left right : Node) (other : kind ≠ .call)
    (first : Faithful valuation memory left) (second : Faithful valuation memory right) :
    Faithful valuation memory (.binary kind ty left right) := by
  intro state listed
  have listedLeft : ∀ id ∈ left.symbols, id ≤ state.table.size := fun id member =>
    listed id (List.mem_append_left _ member)
  have listedRight : ∀ id ∈ right.symbols, id ≤ state.table.size := fun id member =>
    listed id (List.mem_append_right _ member)
  have known := stable_evaluate valuation memory right state.table.size listedRight
  have later : ∀ middle : Lowering, state.table.size ≤ middle.table.size →
      Computes valuation memory (valueOf right) middle valuation.read fun store =>
        valuation.evaluate memory store right := fun middle grown =>
    second middle fun id member => (listedRight id member).trans grown
  cases kind with
  | relational relation =>
      simp only [value_of_relational, Combination.lower_compare, Valuation.evaluate, compared_operated]
      exact computes_combination valuation memory _ _ state _ _ (first state listedLeft) later known _
  | arithmetic operator =>
      simp only [value_of_arithmetic, Combination.lower_compute, Valuation.evaluate, combined_operated]
      exact computes_combination valuation memory _ _ state _ _ (first state listedLeft) later known _
  | elementRead =>
      cases left with
      | symbol own base id =>
          exact computes_element valuation memory .elementRead ty (.symbol own base id) ⟨id, base⟩ rfl _ state
            (listedLeft id (by simp [Node.symbols])) _ (later state (Nat.le_refl _))
      | _ => exact computes_missing valuation memory _ rfl state _
  | call => exact absurd rfl other
  | _ => exact computes_missing valuation memory _ rfl state _

theorem faithful_call_free (node : Node) (calls : node.callFree = true) : Faithful valuation memory node := by
  induction node with
  | leaf kind ty => exact fun state _ => computes_missing valuation memory _ rfl state _
  | constant kind ty literal => exact faithful_constant valuation memory kind ty literal
  | symbol kind ty id => exact faithful_symbol valuation memory kind ty id
  | unary kind ty child ih =>
      simp only [Node.callFree, Bool.and_eq_true] at calls
      exact faithful_unary valuation memory kind ty child (ih calls.2)
  | binary kind ty left right ihLeft ihRight =>
      simp only [Node.callFree, Bool.and_eq_true, decide_eq_true_eq] at calls
      exact faithful_binary valuation memory kind ty left right calls.1.1 (ihLeft calls.1.2) (ihRight calls.2)

theorem value_computes_evaluation (node : Node) (state after : Lowering) (operand : Operand)
    (calls : node.callFree = true) (listed : ∀ symbol ∈ node.symbols, (state.table.get? symbol).isSome = true)
    (lowered : value node state = .ok (some operand) after) :
    ∃ code, state.Extends after code ∧ (∀ statement ∈ code, statement.opcode.isComputation = true) ∧
      ∀ store : Store V,
        (∀ id, ¬ Allocates state after id → valuation.run memory code store id = store id) ∧
        valuation.evaluate memory store node = some (valuation.read operand (valuation.run memory code store)) := by
  have known : ∀ id ∈ node.symbols, id ≤ state.table.size := by
    intro id member
    obtain ⟨symbol, found⟩ := Option.isSome_iff_exists.mp (listed id member)
    exact state.table.get_le_size id symbol found
  have needed : valueOf node state = .ok operand after := by
    rw [valueOf, require, bind_run, lowered]
    rfl
  obtain ⟨code, holds⟩ := faithful_call_free valuation memory node calls state known operand after needed
  refine ⟨code, holds.computed.extended, holds.computed.computes, fun store => ⟨?_, holds.value store⟩⟩
  intro id other
  apply valuation.run_frame memory
  intro statement member defines
  obtain ⟨beyond, temporary⟩ := holds.computed.fresh statement member id defines
  refine other ⟨?_, temporary⟩
  cases known : state.table.get? id with
  | none => rfl
  | some symbol =>
      have bound := state.table.get_le_size id symbol known
      lia

end Holds

def sumState : Lowering :=
  { Lowering.start ⟨[⟨"main", .void, .function, none⟩, ⟨"a", .intArray, .variable, some 1⟩,
      ⟨"i", .int8, .variable, some 1⟩], [⟨1, [], [2, 3]⟩]⟩ .empty with function := some 1 }

def sumNode : Node :=
  .binary (.arithmetic .add) .int (.binary .elementRead .int (.identifier 2 .intArray) (.identifier 3 .int8))
    (.identifier 3 .int8)

def integers : Valuation Int (Int → Int) where
  literal
    | .int8 value => value.toInt
    | .uint8 value => value.toNat
    | .int value => value.toInt
    | .uint value => value.toNat
    | .bool value => value.toNat
  apply opcode _ operands _ :=
    match opcode, operands.map Datum.value with
    | .binary .add, [a, b] => a + b
    | .coerce, [a] => a
    | _, _ => 0
  load _ memory _ _ index _ := memory index.value

theorem sum_computes_evaluation :
    sumNode.callFree = true ∧ (∀ symbol ∈ sumNode.symbols, (sumState.table.get? symbol).isSome = true) ∧
      ∀ memory : Int → Int, ∃ after code,
        value sumNode sumState = .ok (some (.symbol ⟨6, .int⟩)) after ∧ sumState.Extends after code ∧
        ∀ store, integers.run memory code store 3 = store 3 ∧
          integers.run memory code store 6 = memory (store 3) + store 3 := by
  have listed : ∀ symbol ∈ sumNode.symbols, (sumState.table.get? symbol).isSome = true := by decide
  have operand : EStateM.run' (value sumNode) sumState = some (some (.symbol ⟨6, .int⟩)) := by decide +kernel
  refine ⟨rfl, listed, fun memory => ?_⟩
  delta EStateM.run' EStateM.run at operand
  cases ran : value sumNode sumState with
  | error cause stopped =>
      rw [ran] at operand
      cases operand
  | ok found after =>
      rw [ran] at operand
      cases operand
      obtain ⟨code, extended, _, runs⟩ :=
        value_computes_evaluation integers memory sumNode sumState after _ rfl listed ran
      refine ⟨after, code, rfl, extended, fun store => ⟨?_, ?_⟩⟩
      · exact (runs store).1 3 fun allocates => by cases allocates.1
      · have evaluated : some (⟨.int, memory (store 3) + store 3⟩ : Datum Int) = some ⟨.int, _⟩ := (runs store).2
        rw [Option.some.injEq, Datum.mk.injEq] at evaluated
        exact evaluated.2.symm

end Lower

end ThreeAddress
