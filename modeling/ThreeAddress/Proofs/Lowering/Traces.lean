import ThreeAddress.Proofs.Lowering.Lowerable
import ThreeAddress.Proofs.Lowering.Steps

set_option autoImplicit false

namespace ThreeAddress

def Node.symbols : Node → List SymbolId
  | .leaf _ _ | .constant _ _ _ => []
  | .symbol _ _ id => [id]
  | .unary _ _ child => child.symbols
  | .binary _ _ left right => left.symbols ++ right.symbols

def Node.references : Node → List SymbolRef
  | .leaf _ _ | .constant _ _ _ => []
  | .symbol _ ty id => [⟨id, ty⟩]
  | .unary _ _ child => child.references
  | .binary _ _ left right => left.references ++ right.references

theorem Node.references_symbols (node : Node) : node.references.map SymbolRef.id = node.symbols := by
  induction node with
  | leaf kind ty => rfl
  | constant kind ty literal => rfl
  | symbol kind ty id => rfl
  | unary kind ty child ih => exact ih
  | binary kind ty left right ihLeft ihRight =>
      rw [references, symbols, List.map_append, ihLeft, ihRight]

namespace Lower

variable {α β : Type}

theorem bind_error (action : Lower α) (next : α → Lower β) (state after : Lowering) (cause : LoweringError)
    (failed : (action >>= next) state = .error cause after) :
    action state = .error cause after ∨
      ∃ a middle, action state = .ok a middle ∧ next a middle = .error cause after := by
  rw [bind_run] at failed
  cases ran : action state with
  | ok a middle =>
      rw [ran] at failed
      exact Or.inr ⟨a, middle, rfl, failed⟩
  | error other middle =>
      simp only [ran] at failed
      obtain ⟨rfl, rfl⟩ := EStateM.Result.error.inj failed
      exact Or.inl rfl

structure Leads (counts : SymbolRef → Bool) (spare : SymbolId → Prop) (action : Lower α) (state : Lowering)
    (waiting : Multiset SymbolRef) (left : α → Multiset SymbolRef) : Prop where
  ok : ∀ a after, action state = .ok a after → Steps counts spare (state, waiting) (after, left a)
  error : ∀ cause after, action state = .error cause after →
    ∃ remaining, Steps counts spare (state, waiting) (after, remaining)

section Leads

variable {counts : SymbolRef → Bool} {spare : SymbolId → Prop}

theorem leads_bind (action : Lower α) (next : α → Lower β) (state : Lowering) (waiting : Multiset SymbolRef)
    (between : α → Multiset SymbolRef) (left : β → Multiset SymbolRef)
    (first : Leads counts spare action state waiting between)
    (rest : ∀ a middle, action state = .ok a middle → Leads counts spare (next a) middle (between a) left) :
    Leads counts spare (action >>= next) state waiting left := by
  refine ⟨?_, ?_⟩
  · intro b after ran
    obtain ⟨a, middle, early, late⟩ := (bind_ok action next state after b).mp ran
    exact (first.ok a middle early).trans ((rest a middle early).ok b after late)
  · intro cause after failed
    rcases bind_error action next state after cause failed with early | ⟨a, middle, early, late⟩
    · exact first.error cause after early
    · obtain ⟨remaining, steps⟩ := (rest a middle early).error cause after late
      exact ⟨remaining, (first.ok a middle early).trans steps⟩

theorem leads_pure (a : α) (state : Lowering) (waiting : Multiset SymbolRef) (left : α → Multiset SymbolRef)
    (same : waiting = left a) : Leads counts spare (pure a : Lower α) state waiting left := by
  refine ⟨?_, ?_⟩
  · intro b after ran
    obtain ⟨rfl, rfl⟩ := (pure_ok a b state after).mp ran
    rw [same]
    exact .refl
  · intro cause after failed
    cases failed

theorem leads_throw (cause : LoweringError) (state : Lowering) (waiting : Multiset SymbolRef)
    (left : α → Multiset SymbolRef) : Leads counts spare (throw cause : Lower α) state waiting left := by
  refine ⟨?_, ?_⟩
  · intro a after ran
    cases ran
  · intro other after failed
    cases failed
    exact ⟨waiting, .refl⟩

theorem leads_map (change : α → β) (action : Lower α) (state : Lowering) (waiting : Multiset SymbolRef)
    (between : α → Multiset SymbolRef) (left : β → Multiset SymbolRef)
    (leads : Leads counts spare action state waiting between) (same : ∀ a, between a = left (change a)) :
    Leads counts spare (change <$> action) state waiting left := by
  rw [map_eq_pure_bind]
  exact leads_bind action _ state waiting between left leads fun a middle _ =>
    leads_pure (change a) middle (between a) left (same a)

theorem leads_mono {more : SymbolId → Prop} (weaker : ∀ id, spare id → more id) (action : Lower α)
    (state : Lowering) (waiting : Multiset SymbolRef) (left : α → Multiset SymbolRef)
    (leads : Leads counts spare action state waiting left) : Leads counts more action state waiting left := by
  refine ⟨?_, ?_⟩
  · intro a after ran
    exact steps_mono weaker _ _ (leads.ok a after ran)
  · intro cause after failed
    obtain ⟨remaining, steps⟩ := leads.error cause after failed
    exact ⟨remaining, steps_mono weaker _ _ steps⟩

theorem emit_leads (statement : Statement) (fits : statement.conforms = true) (state : Lowering)
    (waiting left : Multiset SymbolRef)
    (step : ∀ line after, emit statement state = .ok line after →
      Step counts spare (state, waiting) (after, left)) :
    Leads counts spare (discard (emit statement)) state waiting fun _ => left := by
  refine ⟨?_, ?_⟩
  · intro _ after ran
    obtain ⟨line, emitted⟩ := (discard_ok _ state after _).mp ran
    exact .single (step line after emitted)
  · intro cause after failed
    have ran := (discard_ok _ state _ ()).mpr ⟨_, (emit_ok statement state _ _).mpr ⟨fits, rfl, rfl⟩⟩
    rw [ran] at failed
    cases failed

theorem fresh_label_leads (state : Lowering) (waiting : Multiset SymbolRef) :
    Leads counts spare freshLabel state waiting fun _ => waiting := by
  refine ⟨?_, ?_⟩
  · intro label after ran
    exact .single (.label label state after waiting ran)
  · intro cause after failed
    rw [allocate_error .label .void state after cause failed]
    exact ⟨waiting, .refl⟩

end Leads

/-- Wherever it runs, the action takes what it needs and leaves what it gives. The rest waits. -/
def Takes (counts : SymbolRef → Bool) (need : Multiset SymbolRef) (action : Lower α)
    (give : α → Multiset SymbolRef) : Prop :=
  ∀ state others, Leads counts (fun _ => False) action state (need + others) fun a => give a + others

section Expressions

variable {counts : SymbolRef → Bool}

theorem takes_pure (a : α) (give : α → Multiset SymbolRef) : Takes counts (give a) (pure a : Lower α) give :=
  fun state _ => leads_pure a state _ _ rfl

theorem takes_map (need : Multiset SymbolRef) (change : α → β) (action : Lower α)
    (between : α → Multiset SymbolRef) (give : β → Multiset SymbolRef)
    (takes : Takes counts need action between) (same : ∀ a, between a = give (change a)) :
    Takes counts need (change <$> action) give := fun state others =>
  leads_map change action state _ _ _ (takes state others) fun a => by rw [same a]

theorem takes_bind (need keep : Multiset SymbolRef) (action : Lower α) (next : α → Lower β)
    (between : α → Multiset SymbolRef) (give : β → Multiset SymbolRef) (first : Takes counts need action between)
    (rest : ∀ a, Takes counts (between a + keep) (next a) give) :
    Takes counts (need + keep) (action >>= next) give := by
  intro state others
  rw [add_assoc]
  apply leads_bind action next state _ _ _ (first state (keep + others))
  intro a middle _
  rw [← add_assoc]
  exact rest a middle others

theorem takes_from (need other : Multiset SymbolRef) (action : Lower α) (give : α → Multiset SymbolRef)
    (same : need = other) (takes : Takes counts need action give) : Takes counts other action give :=
  same ▸ takes

theorem takes_then (need : Multiset SymbolRef) (action : Lower α) (next : α → Lower β)
    (between : α → Multiset SymbolRef) (give : β → Multiset SymbolRef) (first : Takes counts 0 action between)
    (rest : ∀ a, Takes counts (between a + need) (next a) give) : Takes counts need (action >>= next) give :=
  takes_from (0 + need) need _ give (zero_add need) (takes_bind 0 need action next between give first rest)

theorem takes_after (need : Multiset SymbolRef) (action : Lower α) (next : α → Lower β)
    (between : α → Multiset SymbolRef) (give : β → Multiset SymbolRef) (first : Takes counts need action between)
    (rest : ∀ a, Takes counts (between a) (next a) give) : Takes counts need (action >>= next) give :=
  takes_from (need + 0) need _ give (add_zero need) (takes_bind need 0 action next between give first
    fun a => takes_from (between a) _ _ give (add_zero _).symm (rest a))

theorem takes_look (action : Lower α) (answer : Lowering → α)
    (looks : ∀ state, action state = .ok (answer state) state) : Takes counts 0 action fun _ => 0 := by
  intro state others
  refine ⟨?_, ?_⟩
  · intro a after ran
    obtain ⟨_, rfl⟩ := EStateM.Result.ok.inj ((looks state).symm.trans ran)
    exact .refl
  · intro cause after failed
    cases (looks state).symm.trans failed

theorem takes_emit (statement : Statement) (fits : statement.conforms = true)
    (plain : statement.opcode.isPlain = true)
    (uncounted : ∀ ref, statement.result = some (.symbol ref) → counts ref = false) :
    Takes counts (statement.held counts) (discard (emit statement)) fun _ => 0 := by
  intro state others
  simp only [zero_add]
  exact emit_leads statement fits state _ others fun line after emitted =>
    .consume statement line state after others plain uncounted emitted

theorem takes_computed (need : Multiset SymbolRef) (ty : ValueType) (statement : SymbolRef → Statement)
    (fits : ∀ result, (statement result).conforms = true)
    (plain : ∀ result, (statement result).opcode.isPlain = true)
    (into : ∀ result, (statement result).result = some (.symbol result))
    (held : ∀ result, (statement result).held counts = need) :
    Takes counts need (do
      let result ← freshTemporary ty
      discard (emit (statement result))
      return Operand.symbol result) (Operand.held counts) := by
  intro state others
  refine ⟨?_, ?_⟩
  · intro operand after ran
    obtain ⟨result, allocated, fresh, later⟩ := (bind_ok _ _ state after operand).mp ran
    obtain ⟨_, middle, emits, gives⟩ := (bind_ok _ _ allocated after operand).mp later
    obtain ⟨line, emitted⟩ := (discard_ok _ allocated middle _).mp emits
    obtain ⟨rfl, rfl⟩ := (pure_ok _ operand middle after).mp gives
    rw [← held result]
    exact .single (.compute _ ty result line state allocated middle others (plain result) (into result) fresh
      emitted)
  · intro cause after failed
    rcases bind_error _ _ state after cause failed with early | ⟨result, allocated, _, later⟩
    · rw [allocate_error .temporary ty state after cause early]
      exact ⟨_, .refl⟩
    · have emits := (discard_ok _ allocated _ ()).mpr
        ⟨_, (emit_ok (statement result) allocated _ _).mpr ⟨fits result, rfl, rfl⟩⟩
      rw [bind_run, emits] at later
      cases later

theorem takes_coerce (value : Operand) (ty : ValueType) :
    Takes counts (value.held counts) (coerce value ty) (Operand.held counts) :=
  takes_computed _ ty _ (fun _ => rfl) (fun _ => rfl) (fun _ => rfl) fun _ => held_one counts _ _ _ _

theorem takes_widen (value : Operand) (ty : ValueType) :
    Takes counts (value.held counts) (widen value ty) (Operand.held counts) := by
  rw [widen]
  by_cases wider : value.ty.widensTo ty = true
  · rw [if_pos wider]
    exact takes_coerce value ty
  · rw [if_neg wider]
    exact takes_pure value _

theorem takes_operands (wanted : Option ValueType) (left right : Lower Operand)
    (first : Takes counts 0 left (Operand.held counts)) (second : Takes counts 0 right (Operand.held counts)) :
    Takes counts 0 (operands wanted left right) fun both => both.1.held counts + both.2.1.held counts := by
  apply takes_after 0 left _ _ _ first
  intro a
  apply takes_then _ right _ _ _ second
  intro b
  rw [add_comm]
  apply takes_bind _ _ _ _ _ _ (takes_widen a _)
  intro wideLeft
  rw [add_comm]
  apply takes_bind _ _ _ _ _ _ (takes_widen b _)
  intro wideRight
  rw [add_comm]
  exact takes_pure (wideLeft, wideRight, operationType wanted a.ty b.ty) fun both =>
    both.1.held counts + both.2.1.held counts

theorem takes_combination (combination : Combination) (left right : Lower Operand)
    (first : Takes counts 0 left (Operand.held counts)) (second : Takes counts 0 right (Operand.held counts)) :
    Takes counts 0 (combination.lower left right) (Operand.held counts) := by
  apply takes_after 0 _ _ _ _ (takes_operands _ left right first second)
  intro both
  exact takes_computed _ _ _ (combination.statement_conforms _ _ _) (combination.statement_plain _ _ _)
    (fun _ => rfl) fun _ => held_two counts _ _ _ _ _

theorem takes_apply_unary (operator : UnaryOp) (ty : ValueType) (value : Operand) :
    Takes counts (value.held counts) (applyUnary operator ty value) (Operand.held counts) := by
  apply takes_after _ _ _ _ _ (takes_widen value _)
  intro wide
  exact takes_computed _ _ _ (fun _ => rfl) (fun _ => rfl) (fun _ => rfl) fun _ => held_one counts _ _ _ _

theorem takes_unary (operator : UnaryOperator) (ty : ValueType) (value : Lower Operand)
    (takes : Takes counts 0 value (Operand.held counts)) :
    Takes counts 0 (unary operator ty value) (Operand.held counts) := by
  apply takes_after 0 value _ _ _ takes
  intro a
  cases operator with
  | not => exact takes_apply_unary .not ty a
  | minus => exact takes_apply_unary .neg ty a
  | plus => exact takes_widen a ty
  | coercion =>
      simp only
      split
      next => exact takes_coerce a ty
      next => exact takes_pure a _

theorem takes_argument (formal : Option ValueType) (value : Lower Operand)
    (takes : Takes counts 0 value (Operand.held counts)) :
    Takes counts 0 (argument formal value) (Operand.held counts) := by
  apply takes_after 0 value _ _ _ takes
  intro a
  cases formal with
  | none => exact takes_pure a _
  | some ty => exact takes_widen a ty

def heldBy (counts : SymbolRef → Bool) (value : Option Operand) : Multiset SymbolRef :=
  value.elim 0 (Operand.held counts)

def heldAll (counts : SymbolRef → Bool) (values : List Operand) : Multiset SymbolRef :=
  (values.map (Operand.held counts)).sum

theorem takes_require (kind : NodeKind) (value : Lower (Option Operand))
    (takes : Takes counts 0 value (heldBy counts)) :
    Takes counts 0 (require kind value) (Operand.held counts) := by
  apply takes_after 0 value _ _ _ takes
  intro found
  cases found with
  | none => exact fun state others => leads_throw _ state _ _
  | some operand => exact takes_pure operand (Operand.held counts)

theorem takes_some (need : Multiset SymbolRef) (action : Lower Operand)
    (takes : Takes counts need action (Operand.held counts)) :
    Takes counts need (some <$> action) (heldBy counts) :=
  takes_map need some action _ _ takes fun _ => rfl

theorem reference_uncounted (node : Node) (uncounted : ∀ ref ∈ node.references, counts ref = false)
    (ref : SymbolRef) (named : node.reference? = some ref) : counts ref = false := by
  cases node with
  | symbol kind ty id =>
      obtain rfl : SymbolRef.mk id ty = ref := Option.some.inj named
      exact uncounted ⟨id, ty⟩ List.mem_cons_self
  | _ => cases named

theorem takes_read_element (ty : ValueType) (base : Node) (index : Lower Operand)
    (uncounted : ∀ ref ∈ base.references, counts ref = false) (takes : Takes counts 0 index (Operand.held counts)) :
    Takes counts 0 (readElement ty base index) (heldBy counts) := by
  cases named : base.reference? with
  | none =>
      rw [read_element_unnamed ty base index named]
      exact takes_pure none (heldBy counts)
  | some array =>
      rw [read_element_named ty base index array named]
      apply takes_some
      apply takes_after 0 index _ _ _ takes
      intro a
      refine takes_computed _ _ _ (fun _ => rfl) (fun _ => rfl) (fun _ => rfl) fun _ => ?_
      rw [held_two, held_uncounted counts array (reference_uncounted base uncounted array named), zero_add]

theorem takes_arguments_from (kind : NodeKind) (formals : List ValueType) (list : Lower (List Operand))
    (last : Lower Operand) (takesList : Takes counts 0 list (heldAll counts))
    (takesLast : Takes counts 0 last (Operand.held counts)) :
    Takes counts 0 (argumentsFrom kind formals list last) (heldAll counts) := by
  unfold argumentsFrom
  split
  next => exact takes_pure [] (heldAll counts)
  next => exact takesList
  next =>
    exact takes_map 0 _ _ _ _ (takes_argument formals.head? last takesLast) fun a => by simp [heldAll]

theorem takes_pass (values : List Operand) : Takes counts (heldAll counts values) (pass values) fun _ => 0 := by
  induction values with
  | nil => exact takes_pure () fun _ => 0
  | cons value rest ih =>
      have parts : heldAll counts (value :: rest) = value.held counts + heldAll counts rest := by simp [heldAll]
      have passes : Takes counts (value.held counts)
          (discard (emit ⟨value.ty.width, .param, some value, none, none⟩)) fun _ => 0 :=
        takes_from _ _ _ _ (held_one counts _ _ _ _) (takes_emit _ rfl rfl fun ref defines => by cases defines)
      rw [parts]
      apply takes_bind _ _ _ _ _ _ passes
      intro _
      rw [zero_add]
      exact ih

theorem takes_finish (function : SymbolRef) (uncounted : counts function = false) :
    Takes counts 0 (finishCall function) (heldBy counts) := by
  have nothing := held_uncounted counts function uncounted
  rw [finishCall]
  by_cases scalar : function.ty.isScalar = true
  · rw [if_pos scalar]
    apply takes_some
    refine takes_computed _ _ _ (fun _ => rfl) (fun _ => rfl) (fun _ => rfl) fun _ => ?_
    rw [held_one, nothing]
  · rw [if_neg scalar]
    have calls : Takes counts 0
        (discard (emit ⟨function.ty.width, .call, some (.symbol function), none, none⟩)) fun _ => 0 :=
      takes_from _ _ _ _ ((held_one counts _ _ _ _).trans nothing)
        (takes_emit _ rfl rfl fun ref defines => by cases defines)
    exact takes_after 0 _ _ _ _ calls fun _ => takes_pure none (heldBy counts)

theorem takes_call_with (callee : Node) (list : List ValueType → Lower (List Operand))
    (uncounted : ∀ ref ∈ callee.references, counts ref = false)
    (takes : ∀ formals, Takes counts 0 (list formals) (heldAll counts)) :
    Takes counts 0 (callWith callee list) (heldBy counts) := by
  cases named : callee.reference? with
  | none =>
      rw [call_with_unnamed callee list named]
      exact takes_pure none (heldBy counts)
  | some function =>
      rw [call_with_named callee list function named]
      apply takes_after 0 _ _ _ _ (takes_look _ (fun state => state.table.parameterTypes function.id) fun _ => rfl)
      intro formals
      apply takes_after 0 _ _ _ _ (takes formals)
      intro actuals
      exact takes_after _ _ _ _ _ (takes_pass actuals) fun _ =>
        takes_finish function (reference_uncounted callee uncounted function named)

theorem takes_value_arguments (node : Node) (uncounted : ∀ ref ∈ node.references, counts ref = false) :
    Takes counts 0 (value node) (heldBy counts) ∧
      ∀ formals, Takes counts 0 (arguments node formals) (heldAll counts) := by
  have missing : Takes counts 0 (pure none) (heldBy counts) := takes_pure none (heldBy counts)
  have nothing : ∀ _ : List ValueType, Takes counts 0 (pure []) (heldAll counts) := fun _ =>
    takes_pure [] (heldAll counts)
  induction node with
  | leaf kind ty => exact ⟨missing, nothing⟩
  | constant kind ty literal =>
      refine ⟨?_, nothing⟩
      unfold value
      split
      next => exact takes_pure _ (heldBy counts)
      next => exact missing
  | symbol kind ty id =>
      refine ⟨?_, nothing⟩
      unfold value
      split
      next =>
        have free := held_uncounted counts ⟨id, ty⟩ (uncounted ⟨id, ty⟩ List.mem_cons_self)
        exact takes_from _ _ _ _ free (takes_pure (some (.symbol ⟨id, ty⟩)) (heldBy counts))
      next => exact missing
  | unary kind ty child ih =>
      refine ⟨?_, nothing⟩
      unfold value
      split
      next operator =>
        exact takes_some 0 _ (takes_unary operator ty _ (takes_require _ _ (ih uncounted).1))
      next => exact missing
  | binary kind ty left right ihLeft ihRight =>
      have freeLeft : ∀ ref ∈ left.references, counts ref = false := fun ref member =>
        uncounted ref (List.mem_append_left _ member)
      have freeRight : ∀ ref ∈ right.references, counts ref = false := fun ref member =>
        uncounted ref (List.mem_append_right _ member)
      have first := takes_require left.kind _ (ihLeft freeLeft).1
      have second := takes_require right.kind _ (ihRight freeRight).1
      refine ⟨?_, ?_⟩
      · unfold value
        split
        next =>
          rw [Combination.lower_compare]
          exact takes_some 0 _ (takes_combination _ _ _ first second)
        next =>
          rw [Combination.lower_compute]
          exact takes_some 0 _ (takes_combination _ _ _ first second)
        next => exact takes_read_element ty left _ freeLeft second
        next =>
          exact takes_call_with left _ freeLeft fun formals =>
            takes_arguments_from _ formals _ _ ((ihRight freeRight).2 formals) second
        next => exact missing
      · intro formals
        unfold arguments
        apply takes_after 0 _ _ _ _ (takes_argument formals.head? _ first)
        intro a
        apply takes_then _ _ _ _ _
          (takes_arguments_from _ formals.tail _ _ ((ihRight freeRight).2 formals.tail) second)
        intro others
        refine takes_from _ _ _ _ ?_ (takes_pure (a :: others) (heldAll counts))
        simp [heldAll, add_comm]

end Expressions

end Lower

end ThreeAddress
