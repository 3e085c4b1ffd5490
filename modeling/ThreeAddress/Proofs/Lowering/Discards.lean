import ThreeAddress.Proofs.Lowering.Traces

set_option autoImplicit false

namespace ThreeAddress

def Construct.nodes : Construct → List Node
  | .plain => []
  | .ret value => [value]
  | .sequence first rest => [first, rest]
  | .conditional condition consequent alternative => condition :: consequent :: alternative.toList
  | .loop condition body => [condition, body]

theorem Node.construct_references (node part : Node) (inside : part ∈ node.construct.nodes) :
    part.references ⊆ node.references := by
  revert inside
  fun_cases Node.construct node
  all_goals simp [Construct.nodes]
  all_goals grind [Node.references, Node.empty]

namespace Lower

/-- The result of a call that stands as a statement in the tree, lowered from this state. -/
inductive Discards : Node → Lowering → SymbolId → Prop where
  | call (ty : ValueType) (callee list : Node) (state after : Lowering) (result : SymbolRef)
      (called : call (.binary .call ty callee list) state = .ok (some (.symbol result)) after) :
      Discards (.binary .call ty callee list) state result.id
  | first (node first rest : Node) (state : Lowering) (id : SymbolId)
      (shape : node.construct = .sequence first rest) (inner : Discards first state id) :
      Discards node state id
  | rest (node first rest : Node) (state middle : Lowering) (id : SymbolId)
      (shape : node.construct = .sequence first rest) (lowered : statement first state = .ok () middle)
      (inner : Discards rest middle id) : Discards node state id
  | consequent (node condition consequent : Node) (alternative : Option Node) (otherwise : SymbolRef)
      (state labelled tested : Lowering) (id : SymbolId)
      (shape : node.construct = .conditional condition consequent alternative)
      (label : freshLabel state = .ok otherwise labelled)
      (test : jumpUnless condition otherwise labelled = .ok () tested)
      (inner : Discards consequent tested id) : Discards node state id
  | alternative (node condition consequent alternative : Node) (otherwise done : SymbolRef)
      (state labelled tested joined turned : Lowering) (id : SymbolId)
      (shape : node.construct = .conditional condition consequent (some alternative))
      (label : freshLabel state = .ok otherwise labelled)
      (test : jumpUnless condition otherwise labelled = .ok () tested)
      (lowered : statement consequent tested = .ok () joined) (turns : Turns otherwise done joined turned)
      (inner : Discards alternative turned id) : Discards node state id
  | body (node condition body : Node) (head done : SymbolRef) (state opened tested : Lowering) (id : SymbolId)
      (shape : node.construct = .loop condition body) (opens : Opens head done state opened)
      (test : jumpUnless condition done opened = .ok () tested) (inner : Discards body tested id) :
      Discards node state id

section Statements

variable {α : Type} {counts : SymbolRef → Bool} {spare : SymbolId → Prop}

theorem takes_value (node : Node) (uncounted : ∀ ref ∈ node.references, counts ref = false) :
    Takes counts 0 (valueOf node) (Operand.held counts) :=
  takes_require node.kind (value node) (takes_value_arguments node uncounted).1

theorem takes_call (callee list : Node) (free : ∀ ref ∈ callee.references, counts ref = false)
    (uncounted : ∀ ref ∈ list.references, counts ref = false) :
    Takes counts 0 (callWith callee (argumentsOf list)) (heldBy counts) := by
  apply takes_call_with callee _ free
  intro formals
  exact takes_arguments_from list.kind formals _ _ ((takes_value_arguments list uncounted).2 formals)
    (takes_value list uncounted)

theorem takes_store (value : Operand) (target : SymbolRef) (uncounted : counts target = false) :
    Takes counts (value.held counts) (store value (.variable target)) fun _ => 0 := by
  apply takes_after _ _ _ _ _ (takes_widen value target.ty)
  intro wide
  apply takes_from _ _ _ _ (held_one counts _ _ wide _) (takes_emit _ rfl rfl _)
  intro ref defines
  obtain rfl : target = ref := Operand.symbol.inj (Option.some.inj defines)
  exact uncounted

theorem takes_store_element (value index : Operand) (array : SymbolRef) (uncounted : counts array = false) :
    Takes counts (value.held counts + index.held counts) (store value (.element array index)) fun _ => 0 := by
  apply takes_bind _ _ _ _ _ _ (takes_widen value _)
  intro wide
  apply takes_from _ _ _ _ (held_two counts _ _ wide index _) (takes_emit _ rfl rfl _)
  intro ref defines
  obtain rfl : array = ref := Operand.symbol.inj (Option.some.inj defines)
  exact uncounted

theorem destination_element (ty : ValueType) (base index : Node) :
    destination (.binary .elementWrite ty base index) =
      match base.reference? with
      | none => throw (.notAssignable .elementWrite)
      | some array => Destination.element array <$> valueOf index := by
  cases named : base.reference? with
  | none => simp [destination, destination?, elementWrite, element, named, Node.kind]
  | some array => simp [destination, destination?, elementWrite, element, named, Node.kind]

theorem takes_assignment (target source : Node) (place : ∀ ref ∈ target.references, counts ref = false)
    (uncounted : ∀ ref ∈ source.references, counts ref = false) :
    Takes counts 0 (assignment target source) fun _ => 0 := by
  apply takes_after 0 _ _ _ _ (takes_value source uncounted)
  intro value
  by_cases named : ∃ ty id, target = .symbol .identifier ty id
  · obtain ⟨ty, id, rfl⟩ := named
    exact takes_store value ⟨id, ty⟩ (place ⟨id, ty⟩ List.mem_cons_self)
  · by_cases written : ∃ ty base index, target = .binary .elementWrite ty base index
    · obtain ⟨ty, base, index, rfl⟩ := written
      rw [destination_element]
      cases reference : base.reference? with
      | none => exact fun state others => leads_throw _ state _ _
      | some array =>
          have free := reference_uncounted base (fun ref member => place ref (List.mem_append_left _ member)) array
            reference
          have inner := takes_value index fun ref member => place ref (List.mem_append_right _ member)
          simp only [bind_map_left]
          apply takes_then _ _ _ _ _ inner
          intro subscript
          rw [add_comm]
          exact takes_store_element value subscript array free
    · rw [destination_missing target (fun ty id same => named ⟨ty, id, same⟩)
        (fun ty base index same => written ⟨ty, base, index, same⟩)]
      exact fun state others => leads_throw _ state _ _

theorem takes_returned (node : Node) (uncounted : ∀ ref ∈ node.references, counts ref = false) :
    Takes counts 0 (returned node) (Operand.held counts) := by
  apply takes_after 0 _ _ _ _ (takes_value node uncounted)
  intro value
  apply takes_then _ _ _ _ _
    (takes_look returnType? (fun state => (state.function.bind state.table.get?).map Symbol.ty) fun _ => rfl)
  intro ty
  rw [zero_add]
  cases ty with
  | none => exact takes_pure value (Operand.held counts)
  | some ty => exact takes_widen value ty

theorem takes_leads (action : Lower α) (give : α → Multiset SymbolRef) (takes : Takes counts 0 action give)
    (state : Lowering) : Leads counts spare action state 0 give := by
  have leads := takes state 0
  simp only [add_zero] at leads
  exact leads_mono (fun _ never => never.elim) action state 0 give leads

theorem ret_leads (node : Node) (uncounted : ∀ ref ∈ node.references, counts ref = false) (state : Lowering) :
    Leads counts spare (ret node) state 0 fun _ => 0 := by
  have computes : Takes counts 0 (if node.isBlank then pure none else some <$> returned node)
      (heldBy counts) := by
    by_cases blank : node.isBlank = true
    · rw [if_pos blank]
      exact takes_pure none (heldBy counts)
    · rw [if_neg blank]
      exact takes_some 0 _ (takes_returned node uncounted)
  rw [ret_eq]
  apply leads_bind _ _ state 0 _ _ (takes_leads _ _ computes state)
  intro value middle _
  have held : Statement.held counts ⟨.void, .ret, value, none, none⟩ = heldBy counts value := by
    cases value with
    | none => rfl
    | some operand => exact held_one counts _ _ operand none
  rw [← held]
  apply emit_leads _ (by cases value <;> rfl) middle
  intro line after emitted
  exact .branch _ line middle after (Or.inl rfl) (fun label defines => by cases defines) emitted

theorem computed_jump_leads (action : Lower α) (give : α → Multiset SymbolRef)
    (takes : Takes counts 0 action give) (label : SymbolRef) (jump : α → Statement)
    (fits : ∀ a, (jump a).conforms = true) (conditional : ∀ a, (jump a).opcode.isConditionalJump = true)
    (target : ∀ a, (jump a).result = some (.symbol label)) (held : ∀ a, (jump a).held counts = give a)
    (state : Lowering) (owned : state.Owns .label label) :
    Leads counts spare (action >>= fun a => discard (emit (jump a))) state 0 fun _ => 0 := by
  have computes : Leads counts spare action state 0 give := takes_leads action give takes state
  apply leads_bind _ _ state 0 _ _ computes
  intro a middle ran
  have kept := steps_owns _ _ (computes.ok a middle ran) .label label owned
  rw [← held a]
  apply emit_leads _ (fits a) middle
  intro line after emitted
  apply Step.branch _ line middle after (Or.inr (conditional a)) _ emitted
  intro other defines
  obtain rfl : label = other := Operand.symbol.inj (Option.some.inj ((target a).symm.trans defines))
  exact kept

theorem jump_unless_leads (condition : Node) (uncounted : ∀ ref ∈ condition.references, counts ref = false)
    (label : SymbolRef) (state : Lowering) (owned : state.Owns .label label) :
    Leads counts spare (jumpUnless condition label) state 0 fun _ => 0 := by
  unfold jumpUnless
  split
  next relation ty left right =>
    have computes := takes_operands none _ _
      (takes_value left fun ref member => uncounted ref (List.mem_append_left _ member))
      (takes_value right fun ref member => uncounted ref (List.mem_append_right _ member))
    exact computed_jump_leads _ _ computes label _ (fun _ => rfl) (fun _ => rfl) (fun _ => rfl)
      (fun _ => held_two counts _ _ _ _ _) state owned
  next =>
    exact computed_jump_leads _ _ (takes_value condition uncounted) label _ (fun _ => rfl) (fun _ => rfl)
      (fun _ => rfl) (fun _ => held_one counts _ _ _ _) state owned

theorem place_leads (statement : Statement) (label : SymbolRef)
    (shape : statement = mark label ∨ statement = goto label) (state : Lowering) (owned : state.Owns .label label) :
    Leads counts spare (discard (emit statement)) state 0 fun _ => 0 := by
  have fits : statement.conforms = true := by
    rcases shape with rfl | rfl <;> rfl
  exact emit_leads statement fits state 0 0 fun line after emitted =>
    .place statement label line state after shape owned emitted

theorem drop_leads (state : Lowering) (dropped : Multiset SymbolRef) (spared : ∀ ref ∈ dropped, spare ref.id) :
    Leads counts spare (pure () : Lower Unit) state dropped fun _ => 0 := by
  refine ⟨?_, ?_⟩
  · intro u after ran
    obtain ⟨_, rfl⟩ := (pure_ok () u state after).mp ran
    rw [← add_zero dropped]
    exact .single (.drop state dropped 0 spared)
  · intro cause after failed
    cases failed

theorem simple_leads (node : Node) (uncounted : ∀ ref ∈ node.references, counts ref = false) (state : Lowering) :
    Leads counts (Discards node state) (simple node) state 0 fun _ => 0 := by
  unfold simple
  split
  next ty target source =>
    exact takes_leads _ _ (takes_assignment target source
      (fun ref member => uncounted ref (List.mem_append_left _ member))
      fun ref member => uncounted ref (List.mem_append_right _ member)) state
  next ty callee list =>
    have takes := takes_call callee list (fun ref member => uncounted ref (List.mem_append_left _ member))
      fun ref member => uncounted ref (List.mem_append_right _ member)
    have calls : Leads counts (Discards (.binary .call ty callee list) state) (call (.binary .call ty callee list))
        state 0 (heldBy counts) := takes_leads _ _ takes state
    apply leads_bind _ (fun _ => pure ()) state 0 _ _ calls
    intro result after called
    apply drop_leads
    intro ref member
    cases result with
    | none => simp [heldBy] at member
    | some operand =>
        obtain ⟨rfl, _⟩ := (held_symbol counts operand ref).mp member
        exact .call ty callee list state after ref called
  next => exact leads_pure () state 0 _ rfl

theorem leads_next (action : Lower Unit) (next : Unit → Lower Unit) (state : Lowering)
    (first : Leads counts spare action state 0 fun _ => 0)
    (rest : ∀ u middle, action state = .ok u middle → (∀ label, state.Owns .label label → middle.Owns .label label) →
      Leads counts spare (next u) middle 0 fun _ => 0) :
    Leads counts spare (action >>= next) state 0 fun _ => 0 :=
  leads_bind action next state 0 _ _ first fun u middle ran =>
    rest u middle ran (steps_owns _ _ (first.ok u middle ran) .label)

theorem leads_label (next : SymbolRef → Lower Unit) (state : Lowering)
    (rest : ∀ label middle, freshLabel state = .ok label middle → middle.Owns .label label →
      (∀ other, state.Owns .label other → middle.Owns .label other) →
      Leads counts spare (next label) middle 0 fun _ => 0) :
    Leads counts spare (freshLabel >>= next) state 0 fun _ => 0 :=
  leads_bind freshLabel next state 0 _ _ (fresh_label_leads state 0) fun label middle fresh =>
    rest label middle fresh (allocate_owns .label .void state middle label fresh)
      (owns_extends state middle [] (allocate_extends .label .void state middle label fresh).1 .label)

theorem conditional_leads (node condition consequent : Node) (alternative : Option Node)
    (shape : node.construct = .conditional condition consequent alternative)
    (uncounted : ∀ ref ∈ condition.references, counts ref = false)
    (inner : ∀ state, Leads counts (Discards consequent state) (statement consequent) state 0 fun _ => 0)
    (other : ∀ node ∈ alternative, ∀ state,
      Leads counts (Discards node state) (statement node) state 0 fun _ => 0) (state : Lowering) :
    Leads counts (Discards node state) (conditional condition (statement consequent) (alternative.map statement))
      state 0 fun _ => 0 := by
  apply leads_label
  intro otherwise labelled label owned _
  apply leads_next _ _ labelled (jump_unless_leads condition uncounted otherwise labelled owned)
  intro _ tested test keptTested
  have runs : Leads counts (Discards node state) (statement consequent) tested 0 fun _ => 0 :=
    leads_mono (fun id => .consequent node condition consequent alternative otherwise state labelled tested id shape
      label test) _ tested 0 _ (inner tested)
  apply leads_next _ _ tested runs
  intro _ joined body keptJoined
  have ownedJoined := keptJoined otherwise (keptTested otherwise owned)
  cases alternative with
  | none => exact place_leads _ otherwise (Or.inl rfl) joined ownedJoined
  | some alternative =>
      apply leads_label
      intro done both fresh ownedDone keptBoth
      apply leads_next _ _ both (place_leads _ done (Or.inr rfl) both ownedDone)
      intro _ passed jump keptPassed
      apply leads_next _ _ passed
        (place_leads _ otherwise (Or.inl rfl) passed (keptPassed otherwise (keptBoth otherwise ownedJoined)))
      intro _ turned place keptTurned
      have runsOther : Leads counts (Discards node state) (statement alternative) turned 0 fun _ => 0 :=
        leads_mono (fun id => .alternative node condition consequent alternative otherwise done state labelled tested
          joined turned id shape label test body ⟨both, passed, fresh, jump, place⟩) _ turned 0 _
          (other alternative rfl turned)
      apply leads_next _ _ turned runsOther
      intro _ finished lowered keptFinished
      exact place_leads _ done (Or.inl rfl) finished
        (keptFinished done (keptTurned done (keptPassed done ownedDone)))

theorem loop_leads (node condition body : Node) (shape : node.construct = .loop condition body)
    (uncounted : ∀ ref ∈ condition.references, counts ref = false)
    (inner : ∀ state, Leads counts (Discards body state) (statement body) state 0 fun _ => 0) (state : Lowering) :
    Leads counts (Discards node state) (loop condition (statement body)) state 0 fun _ => 0 := by
  apply leads_label
  intro head labelled first owned _
  apply leads_label
  intro done both second ownedDone keptBoth
  have ownedHead := keptBoth head owned
  apply leads_next _ _ both (place_leads _ head (Or.inl rfl) both ownedHead)
  intro _ opened place keptOpened
  apply leads_next _ _ opened (jump_unless_leads condition uncounted done opened (keptOpened done ownedDone))
  intro _ tested test keptTested
  have runs : Leads counts (Discards node state) (statement body) tested 0 fun _ => 0 :=
    leads_mono (fun id => .body node condition body head done state opened tested id shape
      ⟨labelled, both, first, second, place⟩ test) _ tested 0 _ (inner tested)
  apply leads_next _ _ tested runs
  intro _ ended lowered keptEnded
  have kept : ∀ label, both.Owns .label label → ended.Owns .label label := fun label known =>
    keptEnded label (keptTested label (keptOpened label known))
  apply leads_next _ _ ended (place_leads _ head (Or.inr rfl) ended (kept head ownedHead))
  intro _ repeated back keptRepeated
  exact place_leads _ done (Or.inl rfl) repeated (keptRepeated done (kept done ownedDone))

theorem statement_leads (node : Node) (uncounted : ∀ ref ∈ node.references, counts ref = false) (state : Lowering) :
    Leads counts (Discards node state) (statement node) state 0 fun _ => 0 := by
  induction node using Node.construct_induction generalizing state with
  | each node ih =>
      have free : ∀ part ∈ node.construct.nodes, ∀ ref ∈ part.references, counts ref = false :=
        fun part inside ref member => uncounted ref (node.construct_references part inside member)
      rw [statement_construct]
      cases shape : node.construct with
      | plain => exact simple_leads node uncounted state
      | ret value => exact ret_leads value (free value (by simp [shape, Construct.nodes])) state
      | sequence first rest =>
          apply leads_bind _ _ state 0 _ _ (leads_mono (fun id => .first node first rest state id shape) _ state 0 _
            (ih first (by simp [shape, Construct.parts]) (free first (by simp [shape, Construct.nodes])) state))
          intro _ middle lowered
          exact leads_mono (fun id => .rest node first rest state middle id shape lowered) _ middle 0 _
            (ih rest (by simp [shape, Construct.parts]) (free rest (by simp [shape, Construct.nodes])) middle)
      | conditional condition consequent alternative =>
          apply conditional_leads node condition consequent alternative shape
            (free condition (by simp [shape, Construct.nodes]))
          · exact ih consequent (by simp [shape, Construct.parts])
              (free consequent (by simp [shape, Construct.nodes]))
          · intro other member
            exact ih other (by simp [shape, Construct.parts, Option.mem_def.mp member])
              (free other (by simp [shape, Construct.nodes, Option.mem_def.mp member]))
      | loop condition body =>
          exact loop_leads node condition body shape (free condition (by simp [shape, Construct.nodes]))
            (ih body (by simp [shape, Construct.parts]) (free body (by simp [shape, Construct.nodes]))) state

end Statements

end Lower

end ThreeAddress
