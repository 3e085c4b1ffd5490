import ThreeAddress.Proofs.Lowering.Widths

set_option autoImplicit false

namespace ThreeAddress

def Lowering.Returns (state : Lowering) (ty : ValueType) : Prop :=
  (state.function.bind state.table.get?).map Symbol.ty = some ty

def Destination.Fits : Destination → Prop
  | .variable target => target.ty.isScalar = true
  | .element array _ => array.ty.isArray = true

namespace Lower

variable {α : Type} {returns : ValueType} {visits : Node → Lowering → Prop}

theorem emitted_returns (state after : Lowering) (emitted : Emitted returns visits state after)
    (inside : state.Returns returns) : after.Returns returns := by
  obtain ⟨code, extended⟩ := emitted.extended
  obtain ⟨symbol, known, same⟩ := Option.map_eq_some_iff.mp inside
  obtain ⟨id, entered, found⟩ := Option.bind_eq_some_iff.mp known
  have still := state.table.get_of_grown after.table extended.symbols id symbol found
  rw [Lowering.Returns, extended.function, entered, Option.bind_some, still, Option.map_some, same]

theorem emits_next (action : Lower α) (next : α → Lower Unit) (state : Lowering) (inside : state.Returns returns)
    (first : Emits returns visits action state fun _ => True)
    (rest : ∀ a middle, action state = .ok a middle → middle.Returns returns →
      Emits returns visits (next a) middle fun _ => True) :
    Emits returns visits (action >>= next) state fun _ => True :=
  emits_bind action next state _ _ first fun a middle ran emitted _ =>
    rest a middle ran (emitted_returns state middle emitted inside)

theorem emits_widened (value : Operand) (scalar : Scalar value) (ty : ValueType) (known : ty.isScalar = true)
    (statement : Operand → Statement)
    (covered : ∀ wide, ty.bytes ≤ wide.ty.bytes → (statement wide).Covered returns) (state : Lowering) :
    Emits returns visits (widen value ty >>= fun wide => discard (emit (statement wide))) state fun _ => True := by
  apply emits_bind _ _ state _ _ (emits_widen value ty state)
  intro wide middle _ _ widened
  exact emits_line _ middle (Or.inl (covered wide (widened_reaches widened scalar known)))

theorem emits_store (value : Operand) (scalar : Scalar value) (place : Destination) (fits : place.Fits)
    (state : Lowering) : Emits returns visits (store value place) state fun _ => True := by
  match place with
  | .variable target =>
      apply emits_widened value scalar target.ty fits
      exact fun wide enough => ⟨wide, rfl, enough⟩
  | .element array index =>
      obtain ⟨ty, found⟩ := Option.isSome_iff_exists.mp fits
      have known : (array.ty.element?.getD value.ty).isScalar = true := by
        rw [found]
        exact ValueType.element_scalar array.ty ty found
      apply emits_widened value scalar _ known
      exact fun wide enough => ⟨wide, rfl, enough⟩

theorem emits_destination (node : Node) (scalars : node.scalars = true) (state : Lowering)
    (indices : ∀ ty base index, node = .binary .elementWrite ty base index → ∀ part before,
      Evaluates index state part before → visits part before) :
    Emits returns visits (destination node) state Destination.Fits := by
  by_cases named : ∃ ty id, node = .symbol .identifier ty id
  · obtain ⟨ty, id, rfl⟩ := named
    apply emits_pure _ state
    have scalar : ty.isScalar = true := by simpa [Node.scalars] using scalars
    exact scalar
  · by_cases written : ∃ ty base index, node = .binary .elementWrite ty base index
    · obtain ⟨ty, base, index, rfl⟩ := written
      rw [Node.scalars, Bool.and_eq_true] at scalars
      rw [destination_element]
      cases reference : base.reference? with
      | none => exact emits_throw _ state _
      | some array =>
          apply emits_map _ _ state _ _
            (emits_mono _ _ state _ (indices ty base index rfl) (emits_value_of index scalars.2 state))
          intro subscript _
          rw [Destination.Fits, reference_ty base array reference]
          exact scalars.1
    · rw [destination_missing node (fun ty id same => named ⟨ty, id, same⟩)
        (fun ty base index same => written ⟨ty, base, index, same⟩)]
      exact emits_throw _ state _

theorem emits_assignment (ty : ValueType) (target source : Node)
    (scalars : (Node.binary .assignment ty target source).scalars = true) (state : Lowering) :
    Emits returns (Visits (.binary .assignment ty target source) state) (assignment target source) state
      fun _ => True := by
  simp only [Node.scalars, Bool.and_eq_true] at scalars
  apply emits_bind _ _ state _ _ (emits_mono _ _ state _
    (fun part before => .source ty target source part state before) (emits_value_of source scalars.2 state))
  intro value middle ran _ scalar
  refine emits_bind _ _ middle _ _ (emits_destination target scalars.1 middle ?_) ?_
  · rintro written base index rfl part before
    exact .subscript ty written base index source part value state middle before ran
  · intro place last _ _ fits
    exact emits_store value scalar place fits last

theorem emits_simple (node : Node) (scalars : node.scalars = true) (state : Lowering) :
    Emits returns (Visits node state) (simple node) state fun _ => True := by
  unfold simple
  split
  next ty target source => exact emits_assignment ty target source scalars state
  next ty callee list =>
    have called : call (.binary .call ty callee list) = value (.binary .call ty callee list) := by
      rw [value]
      rfl
    rw [called]
    apply emits_map _ _ state _ _ (emits_mono _ _ state _
      (fun part before => .call ty callee list part state before)
      ((value_arguments_covered _).1 scalars state)) fun _ _ => trivial
  next => exact emits_pure () state _ trivial

theorem emits_returned (node : Node) (scalars : node.scalars = true) (state : Lowering)
    (inside : state.Returns returns) :
    Emits returns (Evaluates node state) (returned node) state
      fun operand => returns.isScalar = true → returns.bytes ≤ operand.ty.bytes := by
  apply emits_bind _ _ state _ _ (emits_value_of node scalars state)
  intro value middle _ emitted scalar
  apply emits_bind _ _ middle _ _ (emits_look returnType? middle _ rfl)
  intro ty same looked _ _
  obtain ⟨rfl, rfl⟩ := EStateM.Result.ok.inj looked
  rw [show _ = some returns from emitted_returns state middle emitted inside]
  exact emits_weaken _ middle _ _ (fun wide widened known => widened_reaches widened scalar known)
    (emits_widen value returns middle)

theorem emits_ret (node value : Node) (shape : node.construct = .ret value) (scalars : value.scalars = true)
    (state : Lowering) (inside : state.Returns returns) :
    Emits returns (Visits node state) (ret value) state fun _ => True := by
  rw [ret_eq]
  have computes : Emits returns (Visits node state) (if value.isBlank then pure none else some <$> returned value) state
      fun found => Statement.Covered returns ⟨.void, .ret, found, none, none⟩ := by
    by_cases blank : value.isBlank = true
    · rw [if_pos blank]
      exact emits_pure none state _ fun operand same => by cases same
    · rw [if_neg blank]
      apply emits_map _ _ state _ _ (emits_mono _ _ state _
        (fun part before => .returned node value part state before shape)
        (emits_returned value scalars state inside))
      intro operand enough other same
      cases same
      exact enough
  apply emits_bind _ _ state _ _ computes
  intro found middle _ _ covered
  exact emits_line _ middle (Or.inl covered)

theorem emits_jump_unless (condition : Node) (scalars : condition.scalars = true) (label : SymbolRef)
    (state : Lowering) : Emits returns (Evaluates condition state) (jumpUnless condition label) state
      fun _ => True := by
  unfold jumpUnless
  split
  next relation ty left right =>
    apply emits_bind _ _ state _ _ (emits_operands _ _ state
      (emits_left _ ty left right rfl scalars (value_arguments_covered left).1 state)
      (emits_right _ ty left right rfl scalars (value_arguments_covered right).1 state) none (by simp))
    intro triple middle _ _ matched
    obtain ⟨a, b, common⟩ := triple
    exact emits_line _ middle (Or.inl ⟨a, b, rfl, rfl, matched.2⟩)
  next =>
    apply emits_bind _ _ state _ _ (emits_value_of condition scalars state)
    intro value middle _ _ _
    exact emits_line _ middle (Or.inl ⟨value, rfl, Nat.le_refl _⟩)

theorem emits_place (statement : Statement) (label : SymbolRef)
    (shape : statement = mark label ∨ statement = goto label) (state : Lowering) :
    Emits returns visits (discard (emit statement)) state fun _ => True := by
  rcases shape with rfl | rfl <;> exact emits_line _ state (Or.inl trivial)

section Constructs

variable (node condition : Node) (scalars : condition.scalars = true) (state : Lowering)
  (inside : state.Returns returns)

include scalars inside

theorem emits_conditional (consequent : Node) (alternative : Option Node)
    (shape : node.construct = .conditional condition consequent alternative)
    (inner : ∀ state : Lowering, state.Returns returns →
      Emits returns (Visits consequent state) (statement consequent) state fun _ => True)
    (other : ∀ node ∈ alternative, ∀ state : Lowering, state.Returns returns →
      Emits returns (Visits node state) (statement node) state fun _ => True) :
    Emits returns (Visits node state) (conditional condition (statement consequent) (alternative.map statement))
      state fun _ => True := by
  apply emits_next _ _ state inside (emits_fresh_label state)
  intro otherwise labelled label insideLabelled
  apply emits_next _ _ labelled insideLabelled (emits_mono _ _ labelled _ (fun part before =>
    .condition node condition consequent part alternative otherwise state labelled before shape label)
    (emits_jump_unless condition scalars otherwise labelled))
  intro _ tested test insideTested
  apply emits_next _ _ tested insideTested (emits_mono _ _ tested _ (fun part before =>
    .consequent node condition consequent part alternative otherwise state labelled tested before shape label test)
    (inner tested insideTested))
  intro _ joined body insideJoined
  cases alternative with
  | none => exact emits_place _ otherwise (Or.inl rfl) joined
  | some alternative =>
      apply emits_next _ _ joined insideJoined (emits_fresh_label joined)
      intro done both fresh insideBoth
      apply emits_next _ _ both insideBoth (emits_place _ done (Or.inr rfl) both)
      intro _ passed jump insidePassed
      apply emits_next _ _ passed insidePassed (emits_place _ otherwise (Or.inl rfl) passed)
      intro _ turned place insideTurned
      apply emits_next _ _ turned insideTurned (emits_mono _ _ turned _ (fun part before =>
        .alternative node condition consequent alternative part otherwise done state labelled tested joined turned
          before shape label test body ⟨both, passed, fresh, jump, place⟩)
        (other alternative rfl turned insideTurned))
      intro _ finished _ _
      exact emits_place _ done (Or.inl rfl) finished

theorem emits_loop (body : Node) (shape : node.construct = .loop condition body)
    (inner : ∀ state : Lowering, state.Returns returns →
      Emits returns (Visits body state) (statement body) state fun _ => True) :
    Emits returns (Visits node state) (loop condition (statement body)) state fun _ => True := by
  apply emits_next _ _ state inside (emits_fresh_label state)
  intro head labelled first insideLabelled
  apply emits_next _ _ labelled insideLabelled (emits_fresh_label labelled)
  intro done both second insideBoth
  apply emits_next _ _ both insideBoth (emits_place _ head (Or.inl rfl) both)
  intro _ opened place insideOpened
  have opens : Opens head done state opened := ⟨labelled, both, first, second, place⟩
  apply emits_next _ _ opened insideOpened (emits_mono _ _ opened _ (fun part before =>
    .test node condition body part head done state opened before shape opens)
    (emits_jump_unless condition scalars done opened))
  intro _ tested test insideTested
  apply emits_next _ _ tested insideTested (emits_mono _ _ tested _ (fun part before =>
    .body node condition body part head done state opened tested before shape opens test)
    (inner tested insideTested))
  intro _ ended _ insideEnded
  apply emits_next _ _ ended insideEnded (emits_place _ head (Or.inr rfl) ended)
  intro _ repeated _ _
  exact emits_place _ done (Or.inl rfl) repeated

end Constructs

theorem emits_statement (node : Node) (scalars : node.scalars = true) (state : Lowering)
    (inside : state.Returns returns) :
    Emits returns (Visits node state) (statement node) state fun _ => True := by
  induction node using Node.construct_induction generalizing state with
  | each node ih =>
      have below : ∀ part ∈ node.construct.nodes, part.scalars = true := fun part =>
        node.construct_scalars part scalars
      rw [statement_construct]
      cases shape : node.construct with
      | plain => exact emits_simple node scalars state
      | ret value => exact emits_ret node value shape (below value (by simp [shape, Construct.nodes])) state inside
      | sequence first rest =>
          apply emits_next _ _ state inside (emits_mono _ _ state _ (fun part before =>
            .first node first rest part state before shape)
            (ih first (by simp [shape, Construct.parts]) (below first (by simp [shape, Construct.nodes])) state inside))
          intro _ middle lowered insideMiddle
          exact emits_mono _ _ middle _
            (fun part before => .rest node first rest part state middle before shape lowered)
            (ih rest (by simp [shape, Construct.parts]) (below rest (by simp [shape, Construct.nodes])) middle
              insideMiddle)
      | conditional condition consequent alternative =>
          apply emits_conditional node condition (below condition (by simp [shape, Construct.nodes])) state inside
            consequent alternative shape
          · exact ih consequent (by simp [shape, Construct.parts])
              (below consequent (by simp [shape, Construct.nodes]))
          · intro other member
            exact ih other (by simp [shape, Construct.parts, Option.mem_def.mp member])
              (below other (by simp [shape, Construct.nodes, Option.mem_def.mp member]))
      | loop condition body =>
          exact emits_loop node condition (below condition (by simp [shape, Construct.nodes])) state inside body shape
            (ih body (by simp [shape, Construct.parts]) (below body (by simp [shape, Construct.nodes])))

theorem extent_before {body : SymbolId → Node} {whole : Lowering} {id : SymbolId} {symbol : Symbol}
    {before finished : Lowering} (extent : Extent body whole id symbol before finished) (middle : Lowering)
    (ran : function id (body id) before = .ok () middle) : before.table.get? id = some symbol := by
  obtain ⟨known, _, looked, _⟩ := function_stages id (body id) before middle ran
  have found := (function_symbol_ok id before known looked).1
  obtain ⟨_, emitted, _⟩ := statement_inner _ _ _ extent.lowered
  have still := before.table.get_of_grown whole.table (emitted.symbols.trans extent.symbols) id known found
  exact found.trans (still.symm.trans extent.named)

theorem functions_places (body : SymbolId → Node) (ids : List SymbolId) (state whole : Lowering)
    (ran : functions body ids state = .ok () whole) (line : Line) (above : state.program.size ≤ line)
    (below : line < whole.program.size) :
    ∃ earlier id later symbol before finished, ids = earlier ++ id :: later ∧
      functions body earlier state = .ok () before ∧ before.table.get? id = some symbol ∧
      Extent body whole id symbol before finished ∧ before.program.size ≤ line ∧ line < finished.program.size := by
  induction ids generalizing state with
  | nil =>
      obtain ⟨_, rfl⟩ := (pure_ok () () state whole).mp ran
      lia
  | cons id rest ih =>
      obtain ⟨_, middle, first, others⟩ := (bind_ok _ _ state whole ()).mp ran
      obtain ⟨symbol, finished, extent, same⟩ := function_extent body id rest state middle whole first others
      by_cases early : line < finished.program.size
      · exact ⟨[], id, rest, symbol, state, finished, rfl, rfl, extent_before extent middle first, extent, above, early⟩
      · obtain ⟨earlier, other, later, found, before, last, listed, lowered, place⟩ :=
          ih middle others (by rw [← same]; lia)
        refine ⟨id :: earlier, other, later, found, before, last, by rw [listed, List.cons_append], ?_, place⟩
        exact (bind_ok _ _ state before ()).mpr ⟨(), middle, first, lowered⟩

theorem extent_covered {body : SymbolId → Node} {whole : Lowering} {id : SymbolId} {symbol : Symbol}
    {before finished : Lowering} (extent : Extent body whole id symbol before finished)
    (known : before.table.get? id = some symbol) (scalars : (body id).scalars = true) (line : Line)
    (above : before.program.size ≤ line) (below : line < finished.program.size) (statement : Statement)
    (found : whole.program.get? line = some statement) :
    statement.Covered symbol.ty ∨
      statement.opcode = .coerce ∧ CastAt (Visits (body id) (begun id symbol before)) line := by
  rcases extent_cases extent line above statement found with rfl | later
  · exact Or.inl trivial
  · have inside : (begun id symbol before).Returns symbol.ty := by
      simp only [Lowering.Returns, begun, Option.bind_some, known, Option.map_some]
    obtain ⟨emitted, _⟩ := emits_statement (body id) scalars _ inside () finished extent.lowered
    apply emitted.covered line statement (by rw [begun_size]; lia)
    obtain ⟨rest, placed⟩ := extent.placed
    rw [Program.get?, ← placed, List.getElem?_append_left below] at found
    exact found

def CastLine (bodies : Bodies) (table : SymbolTable) (line : Line) : Prop :=
  ∃ earlier id later symbol before, table.functions = earlier ++ id :: later ∧
    functions bodies.body earlier (.start table .empty) = .ok () before ∧ before.table.get? id = some symbol ∧
    CastAt (Visits (bodies.body id) (begun id symbol before)) line

theorem generate_widths_covered (bodies : Bodies) (table after : SymbolTable) (options : Options)
    (result : Intermediate) (scalars : ∀ id ∈ table.functions, (bodies.body id).scalars = true)
    (generated : generate bodies table options = (.ok result, after)) (line : Line) (statement : Statement)
    (found : result.program.get? line = some statement) :
    ∃ function symbol, result.graph.landmarks.functionOf line = some function ∧ after.get? function = some symbol ∧
      (statement.Covered symbol.ty ∨ statement.opcode = .coerce ∧ CastLine bodies table line) := by
  obtain ⟨whole, ran, rfl, unit⟩ := generate_whole bodies table after options result generated
  rw [unit.program] at found
  obtain ⟨earlier, id, later, symbol, before, finished, listed, lowered, known, extent, above, below⟩ :=
    functions_places bodies.body table.functions _ whole ran line (Nat.zero_le line)
      (whole.program.get_lt_size line statement found)
  refine ⟨id, symbol, ?_, extent.named, ?_⟩
  · rw [FlowGraph.function_of_line whole.program whole.table options.entryPoint result.graph unit.built]
    exact extent_encloses extent line above below
  · have scalar := scalars id (by simp [listed])
    exact (extent_covered extent known scalar line above below statement found).imp_right fun cast =>
      ⟨cast.1, earlier, id, later, symbol, before, listed, lowered, known, cast.2⟩

def clippedTable : SymbolTable :=
  ⟨[⟨"main", .int, .function, none⟩, ⟨"v", .int8, .variable, some 1⟩, ⟨"a", .intArray, .variable, some 1⟩],
    [⟨1, [], [2, 3]⟩]⟩

def clippedBodies : Bodies :=
  let v : Node := .identifier 2 .int8
  let sum : Node := .binary (.arithmetic .add) .int8 v (.number (.int 1000))
  let clip : Node := .binary .assignment .void v (.unary (.unary .coercion) .int8 sum)
  let place : Node := .binary .elementWrite .int (.identifier 3 .intArray) v
  let fill : Node := .binary .loop .void (.binary (.relational .lt) .bool v sum) (.binary .assignment .void place v)
  (Bodies.empty.insert 1 (.list .statementList [clip, fill, .unary .ret .void v])).2

theorem clipped_covered : (∀ id ∈ clippedTable.functions, (clippedBodies.body id).scalars = true) ∧
    ∃ result after, generate clippedBodies clippedTable {} = (.ok result, after) ∧
      ∀ line statement, result.program.get? line = some statement →
        ∃ function symbol, result.graph.landmarks.functionOf line = some function ∧
          after.get? function = some symbol ∧
          (statement.Covered symbol.ty ∨ statement.opcode = .coerce ∧ CastLine clippedBodies clippedTable line) := by
  have scalars : ∀ id ∈ clippedTable.functions, (clippedBodies.body id).scalars = true := by decide +kernel
  refine ⟨scalars, ?_⟩
  obtain ⟨result, after, generated, _⟩ :=
    generate_yields clippedBodies clippedTable {} (fun _ => ()) () (by decide +kernel)
  exact ⟨result, after, generated,
    generate_widths_covered clippedBodies clippedTable after {} result scalars generated⟩

end Lower

end ThreeAddress
