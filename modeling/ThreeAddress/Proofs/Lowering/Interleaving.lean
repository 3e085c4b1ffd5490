import ThreeAddress.Proofs.Lowering.Calls
import ThreeAddress.Proofs.Lowering.Extents

set_option autoImplicit false

namespace ThreeAddress

namespace Lower

section Visits

variable (node part : Node) (state before : Lowering)

theorem visits_assignment (ty : ValueType) (target source : Node) (value : Operand) (middle : Lowering)
    (lowered : valueOf source state = .ok value middle) :
    Visits (.binary .assignment ty target source) state part before ↔
      Evaluates source state part before ∨ ∃ written base index, target = .binary .elementWrite written base index ∧
        Evaluates index middle part before := by
  constructor
  · intro visits
    cases visits with
    | source _ _ _ _ _ _ inner => exact Or.inl inner
    | subscript _ written base index _ _ _ _ _ _ ran inner =>
        obtain ⟨_, rfl⟩ := EStateM.Result.ok.inj (lowered.symm.trans ran)
        exact Or.inr ⟨written, base, index, rfl, inner⟩
    | _ => grind [Node.construct]
  · rintro (inner | ⟨written, base, index, rfl, inner⟩)
    · exact .source ty target source part state before inner
    · exact .subscript ty written base index source part value state middle before lowered inner

theorem visits_call (ty : ValueType) (callee list : Node) :
    Visits (.binary .call ty callee list) state part before ↔
      Evaluates (.binary .call ty callee list) state part before := by
  constructor
  · intro visits
    cases visits with
    | call _ _ _ _ _ _ inner => exact inner
    | _ => grind [Node.construct]
  · exact .call ty callee list part state before

theorem visits_ret (value : Node) (shape : node.construct = .ret value) :
    Visits node state part before ↔ Evaluates value state part before := by
  constructor
  · intro visits
    cases visits with
    | returned _ other _ _ _ same inner =>
        cases shape.symm.trans same
        exact inner
    | _ => grind [Node.construct]
  · exact .returned node value part state before shape

theorem visits_sequence (first rest : Node) (shape : node.construct = .sequence first rest) (middle : Lowering)
    (lowered : statement first state = .ok () middle) :
    Visits node state part before ↔ Visits first state part before ∨ Visits rest middle part before := by
  constructor
  · intro visits
    cases visits with
    | first _ _ _ _ _ _ same inner =>
        cases shape.symm.trans same
        exact Or.inl inner
    | rest _ _ _ _ _ _ _ same ran inner =>
        cases shape.symm.trans same
        cases lowered.symm.trans ran
        exact Or.inr inner
    | _ => grind [Node.construct]
  · rintro (inner | inner)
    · exact .first node first rest part state before shape inner
    · exact .rest node first rest part state middle before shape lowered inner

theorem visits_conditional (condition consequent : Node) (alternative : Option Node)
    (shape : node.construct = .conditional condition consequent alternative) (otherwise : SymbolRef)
    (labelled tested joined : Lowering) (label : freshLabel state = .ok otherwise labelled)
    (test : jumpUnless condition otherwise labelled = .ok () tested)
    (lowered : statement consequent tested = .ok () joined) :
    Visits node state part before ↔
      (Evaluates condition labelled part before ∨ Visits consequent tested part before) ∨
        ∃ other done turned, alternative = some other ∧ Turns otherwise done joined turned ∧
          Visits other turned part before := by
  constructor
  · intro visits
    cases visits with
    | condition _ _ _ _ _ _ _ _ _ same fresh inner =>
        cases shape.symm.trans same
        cases label.symm.trans fresh
        exact Or.inl (Or.inl inner)
    | consequent _ _ _ _ _ _ _ _ _ _ same fresh ran inner =>
        cases shape.symm.trans same
        cases label.symm.trans fresh
        cases test.symm.trans ran
        exact Or.inl (Or.inr inner)
    | alternative _ _ _ other _ _ done _ _ _ _ turned _ same fresh ran body turns inner =>
        cases shape.symm.trans same
        cases label.symm.trans fresh
        cases test.symm.trans ran
        cases lowered.symm.trans body
        exact Or.inr ⟨other, done, turned, rfl, turns, inner⟩
    | _ => grind [Node.construct]
  · rintro ((inner | inner) | ⟨other, done, turned, rfl, turns, inner⟩)
    · exact .condition node condition consequent part alternative otherwise state labelled before shape label inner
    · exact .consequent node condition consequent part alternative otherwise state labelled tested before shape label
        test inner
    · exact .alternative node condition consequent other part otherwise done state labelled tested joined turned before
        shape label test lowered turns inner

theorem visits_loop (condition body : Node) (shape : node.construct = .loop condition body) (head done : SymbolRef)
    (opened tested : Lowering) (opens : Opens head done state opened)
    (test : jumpUnless condition done opened = .ok () tested) :
    Visits node state part before ↔ Evaluates condition opened part before ∨ Visits body tested part before := by
  constructor
  · intro visits
    cases visits with
    | test _ _ _ _ first second _ _ _ same others inner =>
        cases shape.symm.trans same
        obtain ⟨_, _, rfl⟩ := opens_unique head done first second state _ _ opens others
        exact Or.inl inner
    | body _ _ _ _ first second _ _ _ _ same others ran inner =>
        cases shape.symm.trans same
        obtain ⟨_, rfl, rfl⟩ := opens_unique head done first second state _ _ opens others
        cases test.symm.trans ran
        exact Or.inr inner
    | _ => grind [Node.construct]
  · rintro (inner | inner)
    · exact .test node condition body part head done state opened before shape opens inner
    · exact .body node condition body part head done state opened tested before shape opens test inner

end Visits

theorem silent_widened (value : Operand) (ty : ValueType) (statement : Operand → Statement)
    (other : ∀ wide, (statement wide).opcode.isCalling = false) (state after : Lowering) (u : PUnit)
    (ran : (widen value ty >>= fun wide => discard (emit (statement wide))) state = .ok u after) :
    Silent state after := by
  obtain ⟨wide, middle, widens, emits⟩ := (bind_ok _ _ state after u).mp ran
  exact silent_trans state middle after (quiet_widen value wide ty state middle widens).silent
    (silent_emit _ (other wide) middle after u emits)

theorem silent_store (value : Operand) (place : Destination) (state after : Lowering) (u : Unit)
    (ran : store value place state = .ok u after) : Silent state after := by
  match place with
  | .variable target => exact silent_widened value target.ty _ (fun _ => rfl) state after u ran
  | .element array index => exact silent_widened value _ _ (fun _ => rfl) state after u ran

theorem silent_turns (otherwise done : SymbolRef) (state after : Lowering) (turns : Turns otherwise done state after) :
    Silent state after := by
  obtain ⟨labelled, passed, fresh, jump, place⟩ := turns
  have silent := silent_trans state labelled passed (silent_fresh_label state labelled done fresh)
    (silent_emit _ rfl labelled passed () jump)
  exact silent_trans state passed after silent (silent_emit _ rfl passed after () place)

theorem silent_opens (head done : SymbolRef) (state after : Lowering) (opens : Opens head done state after) :
    Silent state after := by
  obtain ⟨labelled, both, first, second, place⟩ := opens
  have silent := silent_trans state labelled both (silent_fresh_label state labelled head first)
    (silent_fresh_label labelled both done second)
  exact silent_trans state both after silent (silent_emit _ rfl both after () place)

theorem destination_ok (target : Node) (state after : Lowering) (place : Destination)
    (ran : destination target state = .ok place after) :
    (∃ ty base index operand, target = .binary .elementWrite ty base index ∧
        valueOf index state = .ok operand after) ∨
      (∀ ty base index, target ≠ .binary .elementWrite ty base index) ∧ state = after := by
  by_cases written : ∃ ty base index, target = .binary .elementWrite ty base index
  · obtain ⟨ty, base, index, rfl⟩ := written
    rw [destination_element] at ran
    cases named : base.reference? with
    | none =>
        rw [named] at ran
        cases ran
    | some array =>
        rw [named] at ran
        obtain ⟨operand, lowered, _⟩ := (map_ok _ _ state after place).mp ran
        exact Or.inl ⟨ty, base, index, operand, rfl, lowered⟩
  · refine Or.inr ⟨fun ty base index same => written ⟨ty, base, index, same⟩, ?_⟩
    by_cases named : ∃ ty id, target = .symbol .identifier ty id
    · obtain ⟨ty, id, rfl⟩ := named
      exact ((pure_ok _ place state after).mp ran).2
    · rw [destination_missing target (fun ty id same => named ⟨ty, id, same⟩)
        (fun ty base index same => written ⟨ty, base, index, same⟩)] at ran
      cases ran

theorem assignment_gathered (ty : ValueType) (target source : Node) (state after : Lowering) (u : Unit)
    (ran : assignment target source state = .ok u after) :
    Gathers (Visits (.binary .assignment ty target source) state) state after := by
  obtain ⟨value, middle, lowered, following⟩ := (bind_ok _ _ state after u).mp ran
  obtain ⟨place, later, places, stores⟩ := (bind_ok _ _ middle after u).mp following
  have early := value_of_gathered source state middle value lowered
  have silent := silent_store value place later after u stores
  have visits := fun part before => visits_assignment part state before ty target source value middle lowered
  rcases destination_ok target middle later place places with
    ⟨written, base, index, operand, rfl, subscript⟩ | ⟨plain, rfl⟩
  · have late := value_of_gathered index middle later operand subscript
    refine gathers_congr _ _ state after ?_ (gathers_silent _ state later after
      (gathers_trans _ _ state middle later early late) silent)
    intro part before _
    rw [visits part before]
    apply or_congr Iff.rfl
    constructor
    · exact fun inner => ⟨written, base, index, rfl, inner⟩
    · rintro ⟨_, _, _, same, inner⟩
      cases same
      exact inner
  · refine gathers_congr _ _ state after ?_ (gathers_silent _ state middle after early silent)
    intro part before _
    rw [visits part before]
    constructor
    · exact Or.inl
    · rintro (inner | ⟨written, base, index, same, _⟩)
      · exact inner
      · exact absurd same (plain written base index)

theorem simple_gathered (node : Node) (shape : node.construct = .plain) (state after : Lowering) (u : Unit)
    (ran : simple node state = .ok u after) : Gathers (Visits node state) state after := by
  by_cases assigns : ∃ ty target source, node = .binary .assignment ty target source
  · obtain ⟨ty, target, source, rfl⟩ := assigns
    exact assignment_gathered ty target source state after u ran
  · by_cases calls : ∃ ty callee list, node = .binary .call ty callee list
    · obtain ⟨ty, callee, list, rfl⟩ := calls
      obtain ⟨found, called⟩ := (discard_ok _ state after u).mp ran
      have inner := ((value_arguments_gathered (.binary .call ty callee list)).1 state found after called).gathers
      exact gathers_congr _ _ state after
        (fun part before _ => (visits_call part state before ty callee list).symm) inner
    · have nothing : simple node = pure () := by
        unfold simple
        grind
      rw [nothing] at ran
      obtain ⟨_, rfl⟩ := (pure_ok () u state after).mp ran
      apply gathers_none
      intro part before _ visits
      cases visits <;> grind

theorem evaluates_blank (value : Node) (blank : value.isBlank = true) (part : Node) (state before : Lowering)
    (called : part.called?.isSome = true) : ¬ Evaluates value state part before := by
  intro evaluates
  cases evaluates with
  | here =>
      unfold Node.called? at called
      split at called
      next => cases blank
      next => cases called
  | operand => cases blank
  | left kind _ _ _ _ _ _ operator =>
      cases kind with
      | relational | arithmetic => cases blank
      | _ => cases operator
  | right kind _ _ _ _ _ _ _ _ operator =>
      cases kind with
      | relational | arithmetic => cases blank
      | _ => cases operator
  | index => cases blank
  | argument => cases blank

theorem ret_gathered (node value : Node) (shape : node.construct = .ret value) (state after : Lowering) (u : Unit)
    (ran : ret value state = .ok u after) : Gathers (Visits node state) state after := by
  rw [ret_eq] at ran
  obtain ⟨found, middle, computes, emits⟩ := (bind_ok _ _ state after u).mp ran
  have silent : Silent middle after := silent_emit _ rfl middle after u emits
  refine gathers_congr _ _ state after (fun part before _ => (visits_ret node part state before value shape).symm)
    (gathers_silent _ state middle after ?_ silent)
  by_cases blank : value.isBlank = true
  · rw [if_pos blank] at computes
    obtain ⟨_, rfl⟩ := (pure_ok none found state middle).mp computes
    exact gathers_none _ state fun part before => evaluates_blank value blank part state before
  · rw [if_neg blank] at computes
    obtain ⟨result, returns, _⟩ := (map_ok some _ state middle found).mp computes
    obtain ⟨operand, computed, lowered, following⟩ := (bind_ok _ _ state middle result).mp returns
    obtain ⟨wanted, same, looked, widens⟩ := (bind_ok _ _ computed middle result).mp following
    obtain ⟨_, rfl⟩ := EStateM.Result.ok.inj looked
    apply gathers_silent _ state computed middle (value_of_gathered value state computed operand lowered)
    cases wanted with
    | none =>
        obtain ⟨_, rfl⟩ := (pure_ok operand result computed middle).mp widens
        exact (quiet_refl computed).silent
    | some ty => exact (quiet_widen operand result ty computed middle widens).silent

theorem jump_unless_gathered (condition : Node) (label : SymbolRef) (state after : Lowering) (u : Unit)
    (ran : jumpUnless condition label state = .ok u after) : Gathers (Evaluates condition state) state after := by
  unfold jumpUnless at ran
  split at ran
  next relation ty left right =>
    obtain ⟨triple, middle, brought, emits⟩ := (bind_ok _ _ state after u).mp ran
    have paired := operands_ok none _ _ state middle triple brought
    have evaluated := operator_gathered (.relational relation) rfl ty left right (value_arguments_gathered left).1
      (value_arguments_gathered right).1 state middle paired
    exact gathers_silent _ state middle after evaluated.gathers (silent_emit _ rfl middle after u emits)
  next =>
    obtain ⟨value, middle, lowered, emits⟩ := (bind_ok _ _ state after u).mp ran
    exact gathers_silent _ state middle after (value_of_gathered condition state middle value lowered)
      (silent_emit _ rfl middle after u emits)

def StatementGathered (node : Node) : Prop :=
  ∀ state after, statement node state = .ok () after → Gathers (Visits node state) state after

theorem sequence_gathered (node first rest : Node) (shape : node.construct = .sequence first rest)
    (early : StatementGathered first) (late : StatementGathered rest) : StatementGathered node := by
  intro state after ran
  obtain ⟨middle, lowered, following⟩ := sequence_stages node first rest shape state after ran
  refine gathers_congr _ _ state after ?_
    (gathers_trans _ _ state middle after (early state middle lowered) (late middle after following))
  exact fun part before _ => (visits_sequence node part state before first rest shape middle lowered).symm

theorem conditional_gathered (node condition consequent : Node) (alternative : Option Node)
    (shape : node.construct = .conditional condition consequent alternative) (inner : StatementGathered consequent)
    (other : ∀ node ∈ alternative, StatementGathered node) : StatementGathered node := by
  intro state after ran
  obtain ⟨otherwise, labelled, tested, joined, label, test, body, closes⟩ :=
    conditional_stages node condition consequent alternative shape state after ran
  have visits := fun part before => visits_conditional node part state before condition consequent alternative shape
    otherwise labelled tested joined label test body
  have early := silent_gathers _ state labelled tested (silent_fresh_label state labelled otherwise label)
    (jump_unless_gathered condition otherwise labelled tested () test)
  have both := gathers_trans _ _ state tested joined early (inner tested joined body)
  cases alternative with
  | none =>
      refine gathers_congr _ _ state after ?_
        (gathers_silent _ state joined after both (silent_emit _ rfl joined after () closes))
      intro part before _
      rw [visits part before]
      simp
  | some alternative =>
      obtain ⟨done, turned, finished, turns, lowered, close⟩ := closes
      have late := silent_gathers _ joined turned finished (silent_turns otherwise done joined turned turns)
        (other alternative rfl turned finished lowered)
      refine gathers_congr _ _ state after ?_ (gathers_silent _ state finished after
        (gathers_trans _ _ state joined finished both late) (silent_emit _ rfl finished after () close))
      intro part before _
      rw [visits part before]
      apply or_congr Iff.rfl
      constructor
      · exact fun inside => ⟨alternative, done, turned, rfl, turns, inside⟩
      · rintro ⟨_, last, place, same, others, inside⟩
        cases same
        obtain ⟨_, rfl⟩ := turns_unique otherwise done last joined turned place turns others
        exact inside

theorem loop_gathered (node condition body : Node) (shape : node.construct = .loop condition body)
    (inner : StatementGathered body) : StatementGathered node := by
  intro state after ran
  obtain ⟨head, done, opened, tested, ended, repeated, opens, test, lowered, jump, close⟩ :=
    loop_stages node condition body shape state after ran
  have early := silent_gathers _ state opened tested (silent_opens head done state opened opens)
    (jump_unless_gathered condition done opened tested () test)
  have silent := silent_trans ended repeated after (silent_emit _ rfl ended repeated () jump)
    (silent_emit _ rfl repeated after () close)
  refine gathers_congr _ _ state after ?_ (gathers_silent _ state ended after
    (gathers_trans _ _ state tested ended early (inner tested ended lowered)) silent)
  exact fun part before _ =>
    (visits_loop node part state before condition body shape head done opened tested opens test).symm

theorem statement_gathered (node : Node) : StatementGathered node := by
  induction node using Node.construct_induction with
  | each node ih =>
      cases shape : node.construct with
      | plain =>
          intro state after ran
          rw [statement_construct, shape] at ran
          exact simple_gathered node shape state after () ran
      | ret value =>
          intro state after ran
          rw [statement_construct, shape] at ran
          exact ret_gathered node value shape state after () ran
      | sequence first rest =>
          exact sequence_gathered node first rest shape (ih first (by simp [shape, Construct.parts]))
            (ih rest (by simp [shape, Construct.parts]))
      | conditional condition consequent alternative =>
          apply conditional_gathered node condition consequent alternative shape
            (ih consequent (by simp [shape, Construct.parts]))
          intro other member
          exact ih other (by simp [shape, Construct.parts, Option.mem_def.mp member])
      | loop condition body =>
          exact loop_gathered node condition body shape (ih body (by simp [shape, Construct.parts]))

inductive Source where
  | statement (node : Node)
  | value (node : Node)
  | function (id : SymbolId) (root : Node)

namespace Source

def lower : Source → Lower Unit
  | .statement node => Lower.statement node
  | .value node => discard (Lower.value node)
  | .function id root => Lower.function id root

def Visits (state : Lowering) (part : Node) (before : Lowering) : Source → Prop
  | .statement node => Lower.Visits node state part before
  | .value node => Evaluates node state part before
  | .function id root =>
    ∃ symbol, state.table.get? id = some symbol ∧ Lower.Visits root (begun id symbol state) part before

end Source

theorem source_gathered (source : Source) (state after : Lowering) (lowered : source.lower state = .ok () after) :
    Gathers (fun part before => source.Visits state part before) state after := by
  cases source with
  | statement node => exact statement_gathered node state after lowered
  | value node =>
      obtain ⟨found, ran⟩ := (discard_ok _ state after ()).mp lowered
      exact ((value_arguments_gathered node).1 state found after ran).gathers
  | function id root =>
      obtain ⟨symbol, finished, looked, body, rfl⟩ := function_stages id root state after lowered
      have found := (function_symbol_ok id state symbol looked).1
      have opened : Silent state (begun id symbol state) := ⟨[entry id symbol], rfl, by simp [entry, Opcode.isCalling]⟩
      have inner : Gathers (Visits root (begun id symbol state)) state { finished with function := none } :=
        silent_gathers _ state _ _ opened (statement_gathered root _ finished body)
      refine gathers_congr _ _ state _ ?_ inner
      intro part before _
      constructor
      · exact fun visits => ⟨symbol, found, visits⟩
      · rintro ⟨other, same, visits⟩
        cases found.symm.trans same
        exact visits

theorem parameters_never_interleave (source : Source) (state after : Lowering)
    (lowered : source.lower state = .ok () after) :
    state.program.statements <+: after.program.statements ∧
      (∀ first count, 0 < count → after.program.ParamRun state.program.size first count →
        after.program.Does (first + count) .call) ∧
      (∀ line, state.program.size ≤ line → after.program.Does line .call →
        ∃ node before, source.Visits state node before ∧ CallAt after.program state.program.size node before line) ∧
      ∀ node before, source.Visits state node before → node.called?.isSome = true →
        ∃ line, CallAt after.program state.program.size node before line := by
  have arranged := source_gathered source state after lowered _ _ (arranged_start state.program)
  refine ⟨arranged.grown, ?_, ?_, ?_⟩
  · intro first count some run
    exact arranged_run _ _ _ arranged first count some run
  · intro line above does
    obtain ⟨node, before, site, call⟩ := arranged.calls line above does
    exact ⟨node, before, (site.resolve_left id).1, call⟩
  · intro node before visits called
    exact arranged.placed node before (Or.inr ⟨visits, called⟩)

def widenedState : Lowering :=
  { Lowering.start ⟨[⟨"g", .uint8, .function, none⟩, ⟨"c", .uint8, .parameter, some 1⟩, ⟨"f", .int, .function, none⟩,
      ⟨"a", .int, .parameter, some 3⟩, ⟨"b", .int, .parameter, some 3⟩, ⟨"main", .void, .function, none⟩],
      [⟨1, [2], []⟩, ⟨3, [4, 5], []⟩, ⟨6, [], []⟩]⟩ .empty with function := some 6 }

def widenedCall : Node :=
  let inner (value : UInt8) : Node :=
    .binary .call .uint8 (.identifier 1 .uint8) (.list .arguments [.number (.uint8 value)])
  .binary .call .int (.identifier 3 .int) (.list .arguments [inner 7, inner 8])

theorem widened_never_interleave : ∃ after, (Source.value widenedCall).lower widenedState = .ok () after ∧
    after.program.size = 9 ∧
    (∀ first count, 0 < count → after.program.ParamRun 0 first count → after.program.Does (first + count) .call) ∧
    (∀ line, after.program.Does line .call → ∃ node before, Evaluates widenedCall widenedState node before ∧
      CallAt after.program 0 node before line) ∧
    ∃ line, CallAt after.program 0 widenedCall widenedState line := by
  have succeeds : EStateM.run' ((Source.value widenedCall).lower) widenedState = some () := by decide +kernel
  have size : (final ((Source.value widenedCall).lower) widenedState).program.size = 9 := by decide +kernel
  delta EStateM.run' EStateM.run at succeeds
  cases ran : (Source.value widenedCall).lower widenedState with
  | error cause stopped =>
      rw [ran] at succeeds
      cases succeeds
  | ok u after =>
      obtain ⟨_, runs, calls, placed⟩ := parameters_never_interleave (.value widenedCall) widenedState after ran
      rw [final_ok _ widenedState after u ran] at size
      exact ⟨after, rfl, size, runs, fun line => calls line (Nat.zero_le line),
        placed widenedCall widenedState (.here _ _) rfl⟩

end Lower

end ThreeAddress
