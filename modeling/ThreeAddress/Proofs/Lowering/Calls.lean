import ThreeAddress.Proofs.Lowering.Parameters

set_option autoImplicit false

namespace ThreeAddress

namespace Lower

/-- Code that leaves what was emitted in order and gathers the calls it comes to. -/
def Gathers (visits : Node → Lowering → Prop) (state after : Lowering) : Prop :=
  ∀ sites start, Arranged sites start state.program →
    Arranged (fun node before => sites node before ∨ (visits node before ∧ node.called?.isSome = true)) start
      after.program

def Silent (before after : Lowering) : Prop :=
  ∃ code, after.program.statements = before.program.statements ++ code ∧
    ∀ statement ∈ code, statement.opcode.isCalling = false

theorem silent_trans (state middle after : Lowering) (early : Silent state middle) (late : Silent middle after) :
    Silent state after := by
  obtain ⟨first, appendsFirst, silentFirst⟩ := early
  obtain ⟨second, appendsSecond, silentSecond⟩ := late
  refine ⟨first ++ second, by rw [appendsSecond, appendsFirst, List.append_assoc], ?_⟩
  intro statement member
  rcases List.mem_append.mp member with inFirst | inSecond
  · exact silentFirst statement inFirst
  · exact silentSecond statement inSecond

theorem silent_emit (statement : Statement) (other : statement.opcode.isCalling = false) (state after : Lowering)
    (u : PUnit) (ran : discard (emit statement) state = .ok u after) : Silent state after := by
  obtain ⟨line, emitted⟩ := (discard_ok _ state after u).mp ran
  refine ⟨[statement], (emit_extends statement state after line emitted).1.program, ?_⟩
  intro added member
  rw [List.mem_singleton.mp member]
  exact other

theorem silent_fresh_label (state after : Lowering) (label : SymbolRef) (ran : freshLabel state = .ok label after) :
    Silent state after :=
  ⟨[], (allocate_extends .label .void state after label ran).1.program, by simp⟩

section Gathers

variable (visits other : Node → Lowering → Prop) (state middle after : Lowering)

theorem gathers_congr (same : ∀ node before, node.called?.isSome = true → (visits node before ↔ other node before))
    (gathers : Gathers visits state after) : Gathers other state after := by
  intro sites start arranged
  refine arranged_congr _ _ start _ ?_ (gathers sites start arranged)
  intro node before
  apply or_congr Iff.rfl
  exact and_congr_left fun called => same node before called

theorem gathers_none (nowhere : ∀ node before, node.called?.isSome = true → ¬ visits node before) :
    Gathers visits state state := by
  intro sites start arranged
  refine arranged_congr _ _ start _ ?_ arranged
  intro node before
  have never := nowhere node before
  tauto

theorem gathers_silent (gathers : Gathers visits state middle) (silent : Silent middle after) :
    Gathers visits state after := by
  obtain ⟨code, appended, others⟩ := silent
  intro sites start arranged
  exact arranged_silent _ start middle.program after.program code appended others (gathers sites start arranged)

theorem silent_gathers (silent : Silent state middle) (gathers : Gathers visits middle after) :
    Gathers visits state after := by
  obtain ⟨code, appended, others⟩ := silent
  intro sites start arranged
  exact gathers sites start (arranged_silent sites start state.program middle.program code appended others arranged)

theorem gathers_trans (early : Gathers visits state middle) (late : Gathers other middle after) :
    Gathers (fun node before => visits node before ∨ other node before) state after := by
  intro sites start arranged
  refine arranged_congr _ _ start _ ?_ (late _ start (early sites start arranged))
  intro node before
  tauto

end Gathers

theorem untouched_refl (state : Lowering) : Untouched state state := ⟨[], state.extends_refl, by simp⟩

theorem untouched_trans (state middle after : Lowering) (early : Untouched state middle)
    (late : Untouched middle after) : Untouched state after := by
  obtain ⟨first, extendsFirst, freshFirst⟩ := early
  obtain ⟨second, extendsSecond, freshSecond⟩ := late
  refine ⟨first ++ second, Lowering.extends_trans state middle after first second extendsFirst extendsSecond, ?_⟩
  intro statement member id defines
  rcases List.mem_append.mp member with inFirst | inSecond
  · exact freshFirst statement inFirst id defines
  · exact Nat.lt_of_le_of_lt extendsFirst.size (freshSecond statement inSecond id defines)

/-- Code without calls that computes into fresh temporaries. -/
structure Quiet (before after : Lowering) : Prop where
  silent : Silent before after
  untouched : Untouched before after

theorem quiet_refl (state : Lowering) : Quiet state state where
  silent := ⟨[], (List.append_nil _).symm, by simp⟩
  untouched := untouched_refl state

theorem quiet_trans (state middle after : Lowering) (early : Quiet state middle) (late : Quiet middle after) :
    Quiet state after where
  silent := silent_trans state middle after early.silent late.silent
  untouched := untouched_trans state middle after early.untouched late.untouched

theorem computed_fresh (ty : ValueType) (statement : SymbolRef → Statement)
    (into : ∀ ref, (statement ref).result = some (.symbol ref)) (state allocated : Lowering) (result : SymbolRef)
    (fresh : freshTemporary ty state = .ok result allocated) (id : SymbolId)
    (defines : (statement result).Defines id) : state.table.size < id := by
  obtain ⟨_, _, _, rfl, _⟩ := allocate_pushes .temporary ty state allocated result fresh
  obtain ⟨target, written, rfl⟩ := ((statement _).defines_iff id).mp defines
  rw [into] at written
  cases written
  exact Nat.lt_succ_self _

theorem quiet_computed (ty : ValueType) (statement : SymbolRef → Statement)
    (others : ∀ ref, (statement ref).opcode.isCalling = false)
    (into : ∀ ref, (statement ref).result = some (.symbol ref)) (state after : Lowering) (operand : Operand)
    (ran : (do
      let result ← freshTemporary ty
      discard (emit (statement result))
      return Operand.symbol result : Lower Operand) state = .ok operand after) : Quiet state after := by
  obtain ⟨result, allocated, _, fresh, extended, _⟩ := computed_ok ty statement state after operand ran
  refine ⟨⟨_, extended.program, ?_⟩, ⟨_, extended, ?_⟩⟩
  · intro added member
    rw [List.mem_singleton.mp member]
    exact others result
  · intro added member
    rw [List.mem_singleton.mp member]
    exact computed_fresh ty statement into state allocated result fresh

theorem quiet_coerce (value operand : Operand) (ty : ValueType) (state after : Lowering)
    (ran : coerce value ty state = .ok operand after) : Quiet state after :=
  quiet_computed ty _ (fun _ => rfl) (fun _ => rfl) state after operand ran

theorem quiet_widen (value operand : Operand) (ty : ValueType) (state after : Lowering)
    (ran : widen value ty state = .ok operand after) : Quiet state after := by
  rw [widen] at ran
  by_cases wider : value.ty.widensTo ty = true
  · rw [if_pos wider] at ran
    exact quiet_coerce value operand ty state after ran
  · rw [if_neg wider] at ran
    obtain ⟨_, rfl⟩ := (pure_ok value operand state after).mp ran
    exact quiet_refl state

theorem argument_ok (formal : Option ValueType) (value : Lower Operand) (state after : Lowering) (actual : Operand)
    (ran : argument formal value state = .ok actual after) :
    ∃ operand computed, value state = .ok operand computed ∧ Passed formal operand computed actual after := by
  obtain ⟨operand, computed, lowered, passes⟩ := (bind_ok _ _ state after actual).mp ran
  refine ⟨operand, computed, lowered, ?_⟩
  cases formal with
  | none =>
      obtain ⟨rfl, rfl⟩ := (pure_ok operand actual computed after).mp passes
      exact .unchanged none operand computed (by simp)
  | some ty =>
      simp only [widen] at passes
      by_cases wider : operand.ty.widensTo ty = true
      · rw [if_pos wider] at passes
        obtain ⟨temporary, allocated, fresh, emits⟩ := (bind_ok _ _ computed after actual).mp passes
        obtain ⟨_, last, discarded, returns⟩ := (bind_ok _ _ allocated after actual).mp emits
        obtain ⟨line, emitted⟩ := (discard_ok _ allocated last _).mp discarded
        obtain ⟨rfl, rfl⟩ := (pure_ok _ _ last after).mp returns
        exact .coerced ty operand temporary line computed allocated last wider fresh emitted
      · rw [if_neg wider] at passes
        obtain ⟨rfl, rfl⟩ := (pure_ok operand actual computed after).mp passes
        exact .unchanged (some ty) operand computed (by simpa using wider)

theorem quiet_passed (formal : Option ValueType) (value actual : Operand) (state after : Lowering)
    (passed : Passed formal value state actual after) : Quiet state after := by
  cases passed with
  | coerced ty value temporary line state allocated after wider fresh emitted =>
      apply quiet_coerce value (.symbol temporary) ty
      exact (bind_ok _ _ state after _).mpr ⟨temporary, allocated, fresh, (bind_ok _ _ allocated after _).mpr
        ⟨(), after, (discard_ok _ allocated after ()).mpr ⟨line, emitted⟩, rfl⟩⟩
  | unchanged formal value state narrow => exact quiet_refl state

def Paired (left right : Lower Operand) (state after : Lowering) : Prop :=
  ∃ a middle b later, left state = .ok a middle ∧ right middle = .ok b later ∧ Quiet later after

theorem operands_ok (wanted : Option ValueType) (left right : Lower Operand) (state after : Lowering)
    (triple : Operand × Operand × ValueType) (ran : operands wanted left right state = .ok triple after) :
    Paired left right state after := by
  simp only [operands, bind_ok, pure_ok] at ran
  obtain ⟨a, middle, first, b, later, second, wide, widened, widensLeft, other, last, widensRight, _, rfl⟩ := ran
  exact ⟨a, middle, b, later, first, second, quiet_trans later widened last
    (quiet_widen a wide _ later widened widensLeft) (quiet_widen b other _ widened last widensRight)⟩

theorem paired_quiet (left right : Lower Operand) (state middle after : Lowering)
    (paired : Paired left right state middle) (quiet : Quiet middle after) : Paired left right state after := by
  obtain ⟨a, first, b, second, ranLeft, ranRight, early⟩ := paired
  exact ⟨a, first, b, second, ranLeft, ranRight, quiet_trans second middle after early quiet⟩

theorem combination_ok (combination : Combination) (left right : Lower Operand) (state after : Lowering)
    (operand : Operand) (ran : combination.lower left right state = .ok operand after) :
    Paired left right state after := by
  obtain ⟨triple, middle, brought, computes⟩ := (bind_ok _ _ state after operand).mp ran
  have silent : ∀ result, (combination.statement triple.2.2 triple.1 triple.2.1 result).opcode.isCalling = false := by
    intro result
    cases combination <;> rfl
  exact paired_quiet left right state middle after (operands_ok _ left right state middle triple brought)
    (quiet_computed _ _ silent (fun _ => rfl) middle after operand computes)

theorem quiet_apply_unary (operator : UnaryOp) (ty : ValueType) (value operand : Operand) (state after : Lowering)
    (ran : applyUnary operator ty value state = .ok operand after) : Quiet state after := by
  obtain ⟨wide, middle, widens, computes⟩ := (bind_ok _ _ state after operand).mp ran
  exact quiet_trans state middle after (quiet_widen value wide _ state middle widens)
    (quiet_computed _ _ (fun _ => rfl) (fun _ => rfl) middle after operand computes)

theorem unary_ok (operator : UnaryOperator) (ty : ValueType) (value : Lower Operand) (state after : Lowering)
    (operand : Operand) (ran : unary operator ty value state = .ok operand after) :
    ∃ a middle, value state = .ok a middle ∧ Quiet middle after := by
  obtain ⟨a, middle, lowered, applies⟩ := (bind_ok _ _ state after operand).mp ran
  refine ⟨a, middle, lowered, ?_⟩
  cases operator with
  | not => exact quiet_apply_unary .not ty a operand middle after applies
  | minus => exact quiet_apply_unary .neg ty a operand middle after applies
  | plus => exact quiet_widen a operand ty middle after applies
  | coercion =>
      simp only at applies
      split at applies
      next => exact quiet_coerce a operand ty middle after applies
      next =>
        obtain ⟨_, rfl⟩ := (pure_ok a operand middle after).mp applies
        exact quiet_refl middle

theorem pass_ok (values : List Operand) (state after : Lowering) (u : Unit) (ran : pass values state = .ok u after) :
    state.Extends after (values.map passing) := by
  induction values generalizing state with
  | nil =>
      obtain ⟨_, rfl⟩ := (pure_ok () u state after).mp ran
      exact state.extends_refl
  | cons value rest ih =>
      obtain ⟨_, middle, emits, passes⟩ := (bind_ok _ _ state after u).mp ran
      obtain ⟨line, emitted⟩ := (discard_ok _ state middle _).mp emits
      exact Lowering.extends_trans state middle after [passing value] _
        (emit_extends _ state middle line emitted).1 (ih middle passes)

theorem finish_ok (function : SymbolRef) (state after : Lowering) (found : Option Operand)
    (ran : finishCall function state = .ok found after) :
    ∃ result, state.Extends after [calling function result] ∧
      ∀ id, (calling function result).Defines id → state.table.size < id := by
  rw [finishCall] at ran
  by_cases scalar : function.ty.isScalar = true
  · rw [if_pos scalar] at ran
    obtain ⟨operand, computes, _⟩ := (map_ok _ _ state after found).mp ran
    obtain ⟨result, allocated, _, fresh, extended, _⟩ :=
      computed_ok function.ty (fun result => calling function (some (.symbol result))) state after operand computes
    exact ⟨some (.symbol result), extended, computed_fresh function.ty (fun result => calling function
      (some (.symbol result))) (fun _ => rfl) state allocated result fresh⟩
  · rw [if_neg scalar] at ran
    obtain ⟨_, last, emits, returns⟩ := (bind_ok _ _ state after found).mp ran
    obtain ⟨line, emitted⟩ := (discard_ok _ state last _).mp emits
    obtain ⟨_, rfl⟩ := (pure_ok _ _ last after).mp returns
    exact ⟨none, (emit_extends _ state last line emitted).1, fun _ defines => by cases defines⟩

theorem call_with_ok (callee : Node) (list : List ValueType → Lower (List Operand)) (function : SymbolRef)
    (named : callee.reference? = some function) (state after : Lowering) (found : Option Operand)
    (ran : callWith callee list state = .ok found after) :
    ∃ actuals result prepared, list (state.table.parameterTypes function.id) state = .ok actuals prepared ∧
      prepared.Extends after (actuals.map passing ++ [calling function result]) ∧ Untouched prepared after := by
  rw [call_with_named callee list function named] at ran
  obtain ⟨formals, same, looked, following⟩ := (bind_ok _ _ state after found).mp ran
  obtain ⟨rfl, rfl⟩ := EStateM.Result.ok.inj looked
  obtain ⟨actuals, prepared, prepares, rest⟩ := (bind_ok _ _ state after found).mp following
  obtain ⟨u, passed, passes, finishes⟩ := (bind_ok _ _ prepared after found).mp rest
  have params := pass_ok actuals prepared passed u passes
  obtain ⟨result, called, fresh⟩ := finish_ok function passed after found finishes
  have extended := Lowering.extends_trans prepared passed after _ _ params called
  refine ⟨actuals, result, prepared, prepares, extended, _, extended, ?_⟩
  intro statement member id defines
  rcases List.mem_append.mp member with param | call
  · obtain ⟨actual, _, rfl⟩ := List.mem_map.mp param
    cases defines
  · rw [List.mem_singleton.mp call] at defines
    exact Nat.lt_of_le_of_lt params.size (fresh id defines)

theorem value_of_ok (node : Node) (state after : Lowering) (operand : Operand)
    (ran : valueOf node state = .ok operand after) : value node state = .ok (some operand) after := by
  obtain ⟨found, middle, lowered, rest⟩ := (bind_ok _ _ state after operand).mp ran
  cases found with
  | none => cases rest
  | some value =>
      obtain ⟨rfl, rfl⟩ := (pure_ok value operand middle after).mp rest
      exact lowered

structure Evaluated (visits : Node → Lowering → Prop) (state after : Lowering) : Prop where
  gathers : Gathers visits state after
  untouched : Untouched state after

section Evaluated

variable (visits other : Node → Lowering → Prop) (state middle after : Lowering)

theorem evaluated_congr (same : ∀ node before, node.called?.isSome = true → (visits node before ↔ other node before))
    (evaluated : Evaluated visits state after) : Evaluated other state after :=
  ⟨gathers_congr visits other state after same evaluated.gathers, evaluated.untouched⟩

theorem evaluated_none (nowhere : ∀ node before, node.called?.isSome = true → ¬ visits node before) :
    Evaluated visits state state :=
  ⟨gathers_none visits state nowhere, untouched_refl state⟩

theorem evaluated_quiet (evaluated : Evaluated visits state middle) (quiet : Quiet middle after) :
    Evaluated visits state after :=
  ⟨gathers_silent visits state middle after evaluated.gathers quiet.silent,
    untouched_trans state middle after evaluated.untouched quiet.untouched⟩

theorem evaluated_trans (early : Evaluated visits state middle) (late : Evaluated other middle after) :
    Evaluated (fun node before => visits node before ∨ other node before) state after :=
  ⟨gathers_trans visits other state middle after early.gathers late.gathers,
    untouched_trans state middle after early.untouched late.untouched⟩

end Evaluated

section Evaluates

variable (ty : ValueType) (part : Node) (state middle before : Lowering) (called : part.called?.isSome = true)

include called

theorem evaluates_unary (operator : UnaryOperator) (child : Node) :
    Evaluates (.unary (.unary operator) ty child) state part before ↔ Evaluates child state part before := by
  constructor
  · intro evaluates
    cases evaluates with
    | here => cases called
    | operand _ _ _ _ _ _ inner => exact inner
  · exact .operand operator ty child part state before

theorem evaluates_operator (kind : NodeKind) (operator : kind.isBinaryOperator = true) (left right : Node)
    (value : Operand) (lowered : valueOf left state = .ok value middle) :
    Evaluates (.binary kind ty left right) state part before ↔
      Evaluates left state part before ∨ Evaluates right middle part before := by
  constructor
  · intro evaluates
    cases evaluates with
    | here =>
        cases kind with
        | call => cases operator
        | _ => cases called
    | left _ _ _ _ _ _ _ _ inner => exact Or.inl inner
    | right _ _ _ _ _ other _ later _ _ ran inner =>
        obtain ⟨_, rfl⟩ := EStateM.Result.ok.inj (lowered.symm.trans ran)
        exact Or.inr inner
    | index => cases operator
    | argument => cases operator
  · rintro (inner | inner)
    · exact .left kind ty left right part state before operator inner
    · exact .right kind ty left right part value state middle before operator lowered inner

theorem evaluates_index (base index : Node) (array : SymbolRef) (named : base.reference? = some array) :
    Evaluates (.binary .elementRead ty base index) state part before ↔ Evaluates index state part before := by
  constructor
  · intro evaluates
    cases evaluates with
    | here => cases called
    | left _ _ _ _ _ _ _ operator => cases operator
    | right _ _ _ _ _ _ _ _ _ operator => cases operator
    | index _ _ _ _ _ _ _ _ inner => exact inner
  · exact .index ty base index part array state before named

theorem evaluates_unnamed (kind : NodeKind) (other : kind.isBinaryOperator = false) (base rest : Node)
    (unnamed : base.reference? = none) : ¬ Evaluates (.binary kind ty base rest) state part before := by
  intro evaluates
  cases evaluates with
  | here =>
      cases kind with
      | call => simp [Node.called?, unnamed] at called
      | _ => cases called
  | left _ _ _ _ _ _ _ operator => simp [other] at operator
  | right _ _ _ _ _ _ _ _ _ operator => simp [other] at operator
  | index _ _ _ _ _ _ _ named => simp [unnamed] at named
  | argument _ _ _ _ _ _ _ _ _ named => simp [unnamed] at named

theorem evaluates_call (callee list : Node) (function : SymbolRef) (named : callee.reference? = some function) :
    Evaluates (.binary .call ty callee list) state part before ↔
      EvaluatesArgument list (state.table.parameterTypes function.id) state part before ∨
        (part, before) = (.binary .call ty callee list, state) := by
  constructor
  · intro evaluates
    cases evaluates with
    | here => exact Or.inr rfl
    | left _ _ _ _ _ _ _ operator => cases operator
    | right _ _ _ _ _ _ _ _ _ operator => cases operator
    | argument _ _ _ item _ other _ middle _ same passed inner =>
        obtain rfl : function = other := Option.some.inj (named.symm.trans same)
        exact Or.inl ⟨item, middle, passed, inner⟩
  · rintro (⟨item, middle, passed, inner⟩ | same)
    · exact .argument ty callee list item part function state middle before named passed inner
    · cases same
      exact .here _ state

end Evaluates

theorem evaluates_single (part node : Node) (state before : Lowering) (formals : List ValueType)
    (filled : node.kind ≠ .empty) (single : node.kind ≠ .arguments) :
    EvaluatesArgument node formals state part before ↔ Evaluates node state part before := by
  constructor
  · rintro ⟨item, middle, passed, inner⟩
    cases passed with
    | last => exact inner
    | first => exact absurd rfl single
    | rest => exact absurd rfl single
  · exact fun inner => ⟨node, state, .last node formals state filled single, inner⟩

theorem evaluates_list (ty : ValueType) (part item rest : Node) (state middle before : Lowering)
    (formals : List ValueType) (actual : Operand)
    (lowered : argument formals.head? (valueOf item) state = .ok actual middle) :
    EvaluatesArgument (.binary .arguments ty item rest) formals state part before ↔
      Evaluates item state part before ∨ EvaluatesArgument rest formals.tail middle part before := by
  constructor
  · rintro ⟨found, later, passed, inner⟩
    cases passed with
    | last _ _ _ _ single => exact absurd rfl single
    | first => exact Or.inl inner
    | rest _ _ _ _ _ _ _ _ _ ran passed =>
        obtain ⟨_, rfl⟩ := EStateM.Result.ok.inj (lowered.symm.trans ran)
        exact Or.inr ⟨found, later, passed, inner⟩
  · rintro (inner | ⟨found, later, passed, inner⟩)
    · exact ⟨item, state, .first ty item rest formals state, inner⟩
    · exact ⟨found, later, .rest ty item rest found formals actual state middle later lowered passed, inner⟩

def ValueGathered (node : Node) : Prop :=
  ∀ state found after, value node state = .ok found after → Evaluated (Evaluates node state) state after

def ArgumentsGathered (node : Node) : Prop :=
  ∀ formals state actuals after, argumentsOf node formals state = .ok actuals after →
    Evaluated (EvaluatesArgument node formals state) state after ∧
      Prepared (node.items .arguments) formals state actuals after

theorem value_missing (node : Node) (found : Option Operand) (missing : value node = pure found)
    (alone : ∀ state part before, part.called?.isSome = true → ¬ Evaluates node state part before) :
    ValueGathered node := by
  intro state result after ran
  rw [missing] at ran
  obtain ⟨_, rfl⟩ := (pure_ok found result state after).mp ran
  exact evaluated_none _ state (alone state)

theorem unary_gathered (kind : NodeKind) (ty : ValueType) (child : Node) (operand : ValueGathered child) :
    ValueGathered (.unary kind ty child) := by
  by_cases operator : ∃ operator, kind = .unary operator
  · obtain ⟨operator, rfl⟩ := operator
    intro state found after ran
    obtain ⟨result, computes, _⟩ := (map_ok some _ state after found).mp ran
    obtain ⟨a, middle, lowered, quiet⟩ := unary_ok operator ty _ state after result computes
    have inner := operand state _ middle (value_of_ok child state middle a lowered)
    refine evaluated_congr _ _ state after ?_ (evaluated_quiet _ state middle after inner quiet)
    exact fun part before called => (evaluates_unary ty part state before called operator child).symm
  · apply value_missing _ none
    · unfold value
      split
      next other => exact absurd ⟨other, rfl⟩ operator
      next => rfl
    · intro state part before called evaluates
      cases evaluates with
      | here => cases called
      | operand other => exact operator ⟨other, rfl⟩

theorem operator_gathered (kind : NodeKind) (operator : kind.isBinaryOperator = true) (ty : ValueType)
    (left right : Node) (first : ValueGathered left) (second : ValueGathered right) (state after : Lowering)
    (paired : Paired (valueOf left) (valueOf right) state after) :
    Evaluated (Evaluates (.binary kind ty left right) state) state after := by
  obtain ⟨a, middle, b, later, lowered, following, quiet⟩ := paired
  have early := first state _ middle (value_of_ok left state middle a lowered)
  have late := second middle _ later (value_of_ok right middle later b following)
  refine evaluated_congr _ _ state after ?_ (evaluated_quiet _ state later after
    (evaluated_trans _ _ state middle later early late) quiet)
  exact fun part before called =>
    (evaluates_operator ty part state middle before called kind operator left right a lowered).symm

theorem element_gathered (ty : ValueType) (base index : Node) (inner : ValueGathered index) :
    ValueGathered (.binary .elementRead ty base index) := by
  cases named : base.reference? with
  | none =>
      apply value_missing (.binary .elementRead ty base index) none (read_element_unnamed ty base _ named)
      exact fun state part before called =>
        evaluates_unnamed ty part state before called .elementRead rfl base index named
  | some array =>
      intro state found after ran
      have reads : value (.binary .elementRead ty base index) = _ :=
        read_element_named ty base (valueOf index) array named
      rw [reads] at ran
      obtain ⟨result, computes, _⟩ := (map_ok some _ state after found).mp ran
      obtain ⟨a, middle, lowered, loads⟩ := (bind_ok _ _ state after result).mp computes
      have quiet := quiet_computed _ _ (fun _ => rfl) (fun _ => rfl) middle after result loads
      have early := inner state _ middle (value_of_ok index state middle a lowered)
      refine evaluated_congr _ _ state after ?_ (evaluated_quiet _ state middle after early quiet)
      exact fun part before called => (evaluates_index ty part state before called base index array named).symm

theorem call_gathered (ty : ValueType) (callee list : Node) (inner : ArgumentsGathered list) :
    ValueGathered (.binary .call ty callee list) := by
  cases named : callee.reference? with
  | none =>
      apply value_missing (.binary .call ty callee list) none (call_with_unnamed callee _ named)
      exact fun state part before called => evaluates_unnamed ty part state before called .call rfl callee list named
  | some function =>
      intro state found after ran
      obtain ⟨actuals, result, prepared, lowered, extended, untouched⟩ :=
        call_with_ok callee (argumentsOf list) function named state after found ran
      obtain ⟨evaluated, prepares⟩ := inner _ state actuals prepared lowered
      have called : (Node.binary .call ty callee list).called? = some (function, list) := by
        rw [Node.called?, named, Option.map_some]
      refine ⟨?_, untouched_trans state prepared after evaluated.untouched untouched⟩
      -- The run of this call starts where the calls in its arguments have all been made.
      intro sites start arranged
      refine arranged_congr _ _ start _ ?_ (arranged_call _ start (.binary .call ty callee list) state prepared after
        (evaluated.gathers sites start arranged)
        ⟨function, list, actuals, result, called, prepares, extended.program⟩)
      intro part before
      constructor
      · rintro ((site | ⟨inside, isCall⟩) | same)
        · exact Or.inl site
        · have evaluates := (evaluates_call ty part state before isCall callee list function named).mpr (Or.inl inside)
          exact Or.inr ⟨evaluates, isCall⟩
        · cases same
          exact Or.inr ⟨.here _ state, by rw [called]; rfl⟩
      · rintro (site | ⟨evaluates, isCall⟩)
        · exact Or.inl (Or.inl site)
        · rcases (evaluates_call ty part state before isCall callee list function named).mp evaluates with inside | same
          · exact Or.inl (Or.inr ⟨inside, isCall⟩)
          · exact Or.inr same

theorem binary_gathered (kind : NodeKind) (ty : ValueType) (left right : Node) (first : ValueGathered left)
    (second : ValueGathered right) (list : ArgumentsGathered right) :
    ValueGathered (.binary kind ty left right) := by
  cases kind with
  | relational relation =>
      intro state found after ran
      obtain ⟨result, computes, _⟩ := (map_ok some _ state after found).mp ran
      exact operator_gathered _ rfl ty left right first second state after
        (combination_ok (.compare relation) _ _ state after result computes)
  | arithmetic operator =>
      intro state found after ran
      obtain ⟨result, computes, _⟩ := (map_ok some _ state after found).mp ran
      exact operator_gathered _ rfl ty left right first second state after
        (combination_ok (.compute operator ty) _ _ state after result computes)
  | elementRead => exact element_gathered ty left right second
  | call => exact call_gathered ty left right list
  | _ =>
      apply value_missing _ none rfl
      intro state part before called evaluates
      cases evaluates with
      | here => cases called
      | left _ _ _ _ _ _ _ operator => cases operator
      | right _ _ _ _ _ _ _ _ _ operator => cases operator

theorem item_gathered (item : Node) (inner : ValueGathered item) (formal : Option ValueType) (state after : Lowering)
    (actual : Operand) (ran : argument formal (valueOf item) state = .ok actual after) :
    Evaluated (Evaluates item state) state after ∧
      ∃ operand computed, valueOf item state = .ok operand computed ∧ Passed formal operand computed actual after := by
  obtain ⟨operand, computed, lowered, passed⟩ := argument_ok formal _ state after actual ran
  have evaluated := inner state _ computed (value_of_ok item state computed operand lowered)
  exact ⟨evaluated_quiet _ state computed after evaluated (quiet_passed formal operand actual computed after passed),
    operand, computed, lowered, passed⟩

theorem arguments_of_cases (node : Node) (formals : List ValueType) :
    node.kind = .empty ∧ argumentsOf node formals = pure [] ∨
      node.kind = .arguments ∧ argumentsOf node formals = arguments node formals ∨
      (node.kind ≠ .empty ∧ node.kind ≠ .arguments) ∧
        argumentsOf node formals = (do return [← argument formals.head? (valueOf node)]) := by
  unfold argumentsOf argumentsFrom
  split
  next empty => exact Or.inl ⟨empty, rfl⟩
  next listed => exact Or.inr (Or.inl ⟨listed, rfl⟩)
  next filled single => exact Or.inr (Or.inr ⟨⟨filled, single⟩, rfl⟩)

theorem arguments_gathered (node : Node) (inner : ValueGathered node)
    (list : node.kind = .arguments → ∀ formals state actuals after,
      arguments node formals state = .ok actuals after →
      Evaluated (EvaluatesArgument node formals state) state after ∧
        Prepared (node.items .arguments) formals state actuals after) : ArgumentsGathered node := by
  intro formals state actuals after ran
  rcases arguments_of_cases node formals with ⟨empty, same⟩ | ⟨listed, same⟩ | ⟨⟨filled, single⟩, same⟩
  · rw [same] at ran
    obtain ⟨rfl, rfl⟩ := (pure_ok [] actuals state after).mp ran
    rw [items_empty .arguments node empty]
    refine ⟨evaluated_none _ state ?_, .nil formals state⟩
    rintro part before called ⟨item, middle, passed, _⟩
    cases passed with
    | last _ _ _ filled => exact filled empty
    | first => cases empty
    | rest => cases empty
  · exact list listed formals state actuals after (same ▸ ran)
  · rw [same] at ran
    obtain ⟨actual, last, passes, returns⟩ := (bind_ok _ _ state after actuals).mp ran
    obtain ⟨rfl, rfl⟩ := (pure_ok _ actuals last after).mp returns
    obtain ⟨evaluated, operand, computed, lowered, passed⟩ :=
      item_gathered node inner formals.head? state last actual passes
    refine ⟨evaluated_congr _ _ state last ?_ evaluated, ?_⟩
    · exact fun part before _ => (evaluates_single part node state before formals filled single).symm
    · rw [items_other .arguments node filled single]
      exact .cons node [] formals operand actual [] state computed last last lowered passed (untouched_refl last)
        (.nil formals.tail last)

theorem unlisted_gathered (node : Node) (inner : ValueGathered node) (unlisted : node.children? = none)
    (items : node.kind = .arguments → node.items .arguments = []) : ArgumentsGathered node := by
  apply arguments_gathered node inner
  intro listed formals state actuals after ran
  have closed : arguments node formals = pure [] := by
    cases node with
    | binary kind ty left right => cases unlisted
    | _ => rfl
  rw [closed] at ran
  obtain ⟨rfl, rfl⟩ := (pure_ok [] actuals state after).mp ran
  rw [items listed]
  refine ⟨evaluated_none _ state ?_, .nil formals state⟩
  rintro part before called ⟨item, middle, passed, _⟩
  cases passed with
  | last _ _ _ _ single => exact single listed
  | first => cases unlisted
  | rest => cases unlisted

theorem listed_gathered (kind : NodeKind) (ty : ValueType) (item rest : Node)
    (whole : ValueGathered (.binary kind ty item rest)) (first : ValueGathered item) (others : ArgumentsGathered rest) :
    ArgumentsGathered (.binary kind ty item rest) := by
  apply arguments_gathered _ whole
  intro listed formals state actuals after ran
  obtain rfl : kind = .arguments := listed
  obtain ⟨actual, middle, passes, following⟩ := (bind_ok _ _ state after actuals).mp ran
  obtain ⟨more, last, lowersRest, returns⟩ := (bind_ok _ _ middle after actuals).mp following
  obtain ⟨rfl, rfl⟩ := (pure_ok _ actuals last after).mp returns
  obtain ⟨early, operand, computed, lowered, passed⟩ :=
    item_gathered item first formals.head? state middle actual passes
  obtain ⟨late, prepared⟩ := others formals.tail middle more last lowersRest
  refine ⟨evaluated_congr _ _ state last ?_ (evaluated_trans _ _ state middle last early late), ?_⟩
  · exact fun part before _ =>
      (evaluates_list ty part item rest state middle before formals actual passes).symm
  · have items : (Node.binary .arguments ty item rest).items .arguments = item :: rest.items .arguments := by
      simp [Node.items]
    rw [items]
    exact .cons item _ formals operand actual more state computed middle last lowered passed late.untouched prepared

theorem leaf_gathered (node : Node) (found : Option Operand) (missing : value node = pure found)
    (closed : node.child? = none ∧ node.children? = none) : ValueGathered node ∧ ArgumentsGathered node := by
  have inner : ValueGathered node := by
    apply value_missing node found missing
    intro state part before called evaluates
    cases evaluates with
    | here =>
        cases node with
        | unary kind ty child => cases closed.1
        | binary kind ty left right => cases closed.2
        | _ => cases called
    | operand => cases closed.1
    | left => cases closed.2
    | right => cases closed.2
    | index => cases closed.2
    | argument => cases closed.2
  refine ⟨inner, unlisted_gathered node inner closed.2 ?_⟩
  intro listed
  cases node with
  | unary kind ty child => cases closed.1
  | binary kind ty left right => cases closed.2
  | _ => exact if_pos (Or.inr listed)

theorem value_arguments_gathered (node : Node) : ValueGathered node ∧ ArgumentsGathered node := by
  -- Lists of arguments are nodes too, so that the same induction goes through both.
  induction node with
  | leaf kind ty => exact leaf_gathered _ _ rfl ⟨rfl, rfl⟩
  | constant kind ty literal => exact leaf_gathered _ _ rfl ⟨rfl, rfl⟩
  | symbol kind ty id => exact leaf_gathered _ _ rfl ⟨rfl, rfl⟩
  | unary kind ty child ih =>
      have inner := unary_gathered kind ty child ih.1
      exact ⟨inner, unlisted_gathered _ inner rfl fun listed => if_pos (Or.inr listed)⟩
  | binary kind ty left right ihLeft ihRight =>
      have inner := binary_gathered kind ty left right ihLeft.1 ihRight.1 ihRight.2
      exact ⟨inner, listed_gathered kind ty left right inner ihLeft.1 ihRight.2⟩

theorem value_of_gathered (node : Node) (state after : Lowering) (operand : Operand)
    (ran : valueOf node state = .ok operand after) : Gathers (Evaluates node state) state after :=
  ((value_arguments_gathered node).1 state _ after (value_of_ok node state after operand ran)).gathers

end Lower

end ThreeAddress
