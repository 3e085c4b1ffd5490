import Mathlib.Data.List.Nodup
import ThreeAddress.Proofs.Flow.Landmarks
import ThreeAddress.Proofs.Lowering.Constructs

set_option autoImplicit false

namespace ThreeAddress

theorem Statement.plain_jump_target (statement : Statement) (plain : statement.opcode.isPlain = true) :
    statement.jumpTarget? = none := by
  unfold jumpTarget?
  cases opcode : statement.opcode <;> simp_all [Opcode.isPlain, Opcode.isConditionalJump]

namespace Lower

def marks (code : List Statement) : List SymbolId :=
  code.filterMap fun statement => if statement.opcode = .label then statement.subject? else none

theorem mem_marks (code : List Statement) (id : SymbolId) :
    id ∈ marks code ↔ ∃ statement ∈ code, statement.Names .label id := by
  simp only [marks, List.mem_filterMap, Statement.Names]
  grind

theorem marks_append (first second : List Statement) :
    marks (first ++ second) = marks first ++ marks second := List.filterMap_append

theorem marks_mark (label : SymbolRef) : marks [mark label] = [label.id] := rfl

theorem marks_unmarked (code : List Statement) (unmarked : ∀ statement ∈ code, statement.opcode ≠ .label) :
    marks code = [] := by
  rw [marks, List.filterMap_eq_nil_iff]
  intro statement member
  rw [if_neg (unmarked statement member)]

/-- Code whose labels lie in a range and occur once, and whose jumps go to its labels or to the
targets listed. -/
structure Confined (low high : Nat) (targets : List SymbolId) (code : List Statement) : Prop where
  fresh : ∀ id ∈ marks code, low < id ∧ id ≤ high
  distinct : (marks code).Nodup
  closed : ∀ statement ∈ code, ∀ label, statement.jumpTarget? = some label →
    label ∈ marks code ∨ label ∈ targets

theorem confined_plain (low high : Nat) (targets : List SymbolId) (code : List Statement)
    (plain : ∀ statement ∈ code, statement.opcode.isPlain = true) : Confined low high targets code := by
  have unmarked : marks code = [] := by
    apply marks_unmarked
    intro statement member label
    have impossible := plain statement member
    simp [label, Opcode.isPlain] at impossible
  refine ⟨by simp [unmarked], by simp [unmarked], ?_⟩
  intro statement member label jumps
  rw [statement.plain_jump_target (plain statement member)] at jumps
  cases jumps

theorem confined_single (low high : Nat) (targets : List SymbolId) (statement : Statement)
    (unmarked : statement.opcode ≠ .label)
    (listed : ∀ label, statement.jumpTarget? = some label → label ∈ targets) :
    Confined low high targets [statement] := by
  have none : marks [statement] = [] := marks_unmarked _ (by simpa using unmarked)
  refine ⟨by simp [none], by simp [none], ?_⟩
  intro other member label jumps
  rw [List.mem_singleton.mp member] at jumps
  exact Or.inr (listed label jumps)

theorem confined_append (low middle high : Nat) (targets : List SymbolId) (first second : List Statement)
    (early : Confined low middle targets first) (late : Confined middle high targets second)
    (ordered : low ≤ middle ∧ middle ≤ high) : Confined low high targets (first ++ second) := by
  refine ⟨?_, ?_, ?_⟩
  · intro id member
    rw [marks_append, List.mem_append] at member
    rcases member with inFirst | inSecond
    · have range := early.fresh id inFirst
      lia
    · have range := late.fresh id inSecond
      lia
  · rw [marks_append]
    apply early.distinct.append late.distinct
    intro id inFirst inSecond
    have below := early.fresh id inFirst
    have above := late.fresh id inSecond
    lia
  · intro statement member label jumps
    rw [marks_append, List.mem_append]
    rcases List.mem_append.mp member with inFirst | inSecond
    · rcases early.closed statement inFirst label jumps with placed | listed
      · exact Or.inl (Or.inl placed)
      · exact Or.inr listed
    · rcases late.closed statement inSecond label jumps with placed | listed
      · exact Or.inl (Or.inr placed)
      · exact Or.inr listed

theorem confined_weaken (low high less more : Nat) (targets others : List SymbolId) (code : List Statement)
    (confined : Confined low high targets code) (range : less ≤ low ∧ high ≤ more)
    (subset : targets ⊆ others) : Confined less more others code := by
  refine ⟨?_, confined.distinct, ?_⟩
  · intro id member
    have inside := confined.fresh id member
    lia
  · intro statement member label jumps
    rcases confined.closed statement member label jumps with placed | listed
    · exact Or.inl placed
    · exact Or.inr (subset listed)

theorem confined_place (low high : Nat) (targets : List SymbolId) (label : SymbolRef)
    (code whole : List Statement) (around : whole = code ++ [mark label] ∨ whole = mark label :: code)
    (confined : Confined low high (label.id :: targets) code) (absent : label.id ∉ marks code)
    (range : low < label.id ∧ label.id ≤ high) : Confined low high targets whole := by
  -- Placing a label before or behind the code settles the jumps to it.
  have places : (marks whole).Perm (label.id :: marks code) := by
    rcases around with rfl | rfl
    · rw [marks_append, marks_mark]
      exact List.perm_append_singleton label.id (marks code)
    · exact List.Perm.refl _
  have members : ∀ statement ∈ whole, statement = mark label ∨ statement ∈ code := by
    rcases around with rfl | rfl
    · intro statement member
      simpa [or_comm] using member
    · intro statement member
      simpa using member
  refine ⟨?_, ?_, ?_⟩
  · intro id member
    rcases List.mem_cons.mp (places.mem_iff.mp member) with rfl | inside
    · exact range
    · exact confined.fresh id inside
  · rw [places.nodup_iff, List.nodup_cons]
    exact ⟨absent, confined.distinct⟩
  · intro statement member target jumps
    rw [places.mem_iff]
    rcases members statement member with rfl | inside
    · cases jumps
    · rcases confined.closed statement inside target jumps with placed | listed
      · exact Or.inl (List.mem_cons_of_mem _ placed)
      · rcases List.mem_cons.mp listed with rfl | other
        · exact Or.inl List.mem_cons_self
        · exact Or.inr other

theorem tested_confined (label : SymbolRef) (before after : Lowering) (code : List Statement)
    (jump : Statement) (tested : Tested label before after code jump) (targets : List SymbolId)
    (listed : label.id ∈ targets) :
    Confined before.table.size after.table.size targets (code ++ [jump]) := by
  apply confined_append _ before.table.size _ targets _ _ (confined_plain _ _ targets code tested.plain)
  · apply confined_single
    · intro same
      have conditional := tested.conditional
      rw [same] at conditional
      cases conditional
    · intro target jumps
      rw [tested.target] at jumps
      exact Option.some.inj jumps ▸ listed
  · exact ⟨Nat.le_refl _, tested.emitted.size⟩

theorem goto_confined (low high : Nat) (targets : List SymbolId) (label : SymbolRef)
    (listed : label.id ∈ targets) : Confined low high targets [goto label] := by
  apply confined_single
  · simp [goto]
  · intro target jumps
    exact Option.some.inj jumps ▸ listed

structure Fragment (before after : Lowering) (code : List Statement) : Prop where
  emitted : before.Extends after code
  confined : Confined before.table.size after.table.size [] code

theorem fragment_append (before middle after : Lowering) (first second : List Statement)
    (early : Fragment before middle first) (late : Fragment middle after second) :
    Fragment before after (first ++ second) :=
  ⟨Lowering.extends_trans before middle after first second early.emitted late.emitted,
    confined_append _ middle.table.size _ [] first second early.confined late.confined
      ⟨early.emitted.size, late.emitted.size⟩⟩

theorem ret_fragment (value : Node) (state after : Lowering) (ran : ret value state = .ok () after) :
    ∃ code, Fragment state after code := by
  obtain ⟨code, last, emitted, plain, returns⟩ := ret_stages value state after () ran
  refine ⟨code ++ [last], emitted, ?_⟩
  apply confined_append _ state.table.size _ [] code [last] (confined_plain _ _ [] code plain) _
    ⟨Nat.le_refl _, emitted.size⟩
  apply confined_single
  · simp [returns]
  · intro label jumps
    simp [Statement.jumpTarget?, returns, Opcode.isConditionalJump] at jumps

theorem skipping_fragment (condition : Node) (otherwise : SymbolRef) (state labelled tested joined after : Lowering)
    (code : List Statement) (label : freshLabel state = .ok otherwise labelled)
    (test : jumpUnless condition otherwise labelled = .ok () tested) (body : Fragment tested joined code)
    (close : emitLabel otherwise joined = .ok () after) : ∃ whole, Fragment state after whole := by
  obtain ⟨opened, id, size⟩ := allocate_extends .label .void state labelled otherwise label
  obtain ⟨check, jump, tests⟩ := jump_unless_stages condition otherwise labelled tested () test
  obtain ⟨closed, table⟩ := emitted_extends (mark otherwise) joined after () close
  have inner : Confined labelled.table.size joined.table.size [otherwise.id] ((check ++ [jump]) ++ code) :=
    confined_append _ tested.table.size _ _ _ _ (tested_confined otherwise labelled tested check jump tests _
      List.mem_cons_self) (confined_weaken _ _ _ _ [] _ code body.confined ⟨Nat.le_refl _, Nat.le_refl _⟩
      (List.nil_subset _)) ⟨tests.emitted.size, body.emitted.size⟩
  have between := Lowering.extends_trans labelled tested joined _ code tests.emitted body.emitted
  have fresh : otherwise.id ∉ marks ((check ++ [jump]) ++ code) := by
    intro member
    have range := inner.fresh _ member
    lia
  refine ⟨((check ++ [jump]) ++ code) ++ [mark otherwise], ?_, ?_⟩
  · exact Lowering.extends_trans state joined after _ _
      (Lowering.extends_trans state labelled joined [] _ opened between) closed
  · rw [table]
    have grown := between.size
    apply confined_place _ _ [] otherwise _ _ (Or.inl rfl) _ fresh (by lia)
    exact confined_weaken _ _ _ _ _ _ _ inner (by lia) (List.Subset.refl _)

theorem turns_extends (otherwise done : SymbolRef) (before after : Lowering)
    (turns : Turns otherwise done before after) :
    before.Extends after [goto done, mark otherwise] ∧ done.id = before.table.size + 1 ∧
      after.table.size = before.table.size + 1 := by
  obtain ⟨labelled, passed, label, jump, place⟩ := turns
  obtain ⟨opened, id, size⟩ := allocate_extends .label .void before labelled done label
  obtain ⟨jumped, jumpTable⟩ := emitted_extends (goto done) labelled passed () jump
  obtain ⟨placed, placeTable⟩ := emitted_extends (mark otherwise) passed after () place
  refine ⟨?_, id, by rw [placeTable, jumpTable, size]⟩
  exact Lowering.extends_trans before passed after [goto done] _
    (Lowering.extends_trans before labelled passed [] _ opened jumped) placed

theorem opens_extends (head done : SymbolRef) (before after : Lowering)
    (opens : Opens head done before after) :
    before.Extends after [mark head] ∧ head.id = before.table.size + 1 ∧
      done.id = before.table.size + 2 ∧ after.table.size = before.table.size + 2 := by
  obtain ⟨labelled, both, first, second, place⟩ := opens
  obtain ⟨openedFirst, headId, headSize⟩ := allocate_extends .label .void before labelled head first
  obtain ⟨openedSecond, doneId, doneSize⟩ := allocate_extends .label .void labelled both done second
  obtain ⟨placed, table⟩ := emitted_extends (mark head) both after () place
  refine ⟨?_, headId, by lia, by rw [table]; lia⟩
  exact Lowering.extends_trans before both after [] _
    (Lowering.extends_trans before labelled both [] _ openedFirst openedSecond) placed

theorem branching_fragment (condition : Node) (otherwise done : SymbolRef)
    (state labelled tested joined turned finished after : Lowering) (code other : List Statement)
    (label : freshLabel state = .ok otherwise labelled)
    (test : jumpUnless condition otherwise labelled = .ok () tested) (body : Fragment tested joined code)
    (turns : Turns otherwise done joined turned) (alternative : Fragment turned finished other)
    (close : emitLabel done finished = .ok () after) : ∃ whole, Fragment state after whole := by
  -- A conditional with an alternative. The label behind it is allocated in the middle.
  obtain ⟨opened, id, size⟩ := allocate_extends .label .void state labelled otherwise label
  obtain ⟨check, jump, tests⟩ := jump_unless_stages condition otherwise labelled tested () test
  obtain ⟨turn, doneId, doneSize⟩ := turns_extends otherwise done joined turned turns
  obtain ⟨closed, table⟩ := emitted_extends (mark done) finished after () close
  have between := Lowering.extends_trans labelled tested joined _ code tests.emitted body.emitted
  have grown := between.size
  have last := alternative.emitted.size
  have targets : otherwise.id ∈ [otherwise.id, done.id] := List.mem_cons_self
  have inner : Confined labelled.table.size joined.table.size [otherwise.id, done.id]
      (((check ++ [jump]) ++ code) ++ [goto done]) := by
    apply confined_append _ joined.table.size _ _ _ _ _ (goto_confined _ _ _ done (by simp)) (by lia)
    exact confined_append _ tested.table.size _ _ _ _ (tested_confined otherwise labelled tested check jump
      tests _ targets) (confined_weaken _ _ _ _ [] _ code body.confined ⟨Nat.le_refl _, Nat.le_refl _⟩
      (List.nil_subset _)) ⟨tests.emitted.size, body.emitted.size⟩
  have freshOtherwise : otherwise.id ∉ marks (((check ++ [jump]) ++ code) ++ [goto done]) := by
    intro member
    have range := inner.fresh _ member
    lia
  have left : Confined state.table.size joined.table.size [done.id]
      ((((check ++ [jump]) ++ code) ++ [goto done]) ++ [mark otherwise]) := by
    apply confined_place _ _ [done.id] otherwise _ _ (Or.inl rfl) _ freshOtherwise (by lia)
    exact confined_weaken _ _ _ _ _ _ _ inner (by lia) (List.Subset.refl _)
  have right : Confined turned.table.size finished.table.size [done.id] other :=
    confined_weaken _ _ _ _ [] _ other alternative.confined ⟨Nat.le_refl _, Nat.le_refl _⟩ (List.nil_subset _)
  have both := confined_append state.table.size turned.table.size _ _ _ _
    (confined_weaken _ _ _ _ _ _ _ left (by lia) (List.Subset.refl _)) right (by lia)
  have freshDone : done.id ∉
      marks (((((check ++ [jump]) ++ code) ++ [goto done]) ++ [mark otherwise]) ++ other) := by
    intro member
    rw [marks_append, List.mem_append] at member
    rcases member with inLeft | inRight
    · have range := left.fresh _ inLeft
      lia
    · have range := right.fresh _ inRight
      lia
  refine ⟨(((((check ++ [jump]) ++ code) ++ [goto done]) ++ [mark otherwise]) ++ other) ++ [mark done], ?_, ?_⟩
  · have upper := Lowering.extends_trans state labelled joined [] _ opened between
    have half := Lowering.extends_trans state joined turned _ _ upper turn
    rw [List.append_cons] at half
    exact Lowering.extends_trans state finished after _ _
      (Lowering.extends_trans state turned finished _ other half alternative.emitted) closed
  · rw [table]
    apply confined_place _ _ [] done _ _ (Or.inl rfl) _ freshDone (by lia)
    exact confined_weaken _ _ _ _ _ _ _ both (by lia) (List.Subset.refl _)

theorem loop_fragment (condition : Node) (head done : SymbolRef)
    (state opened tested ended repeated after : Lowering) (code : List Statement)
    (opens : Opens head done state opened) (test : jumpUnless condition done opened = .ok () tested)
    (body : Fragment tested ended code) (back : emitGoto head ended = .ok () repeated)
    (close : emitLabel done repeated = .ok () after) : ∃ whole, Fragment state after whole := by
  obtain ⟨start, headId, doneId, size⟩ := opens_extends head done state opened opens
  obtain ⟨check, jump, tests⟩ := jump_unless_stages condition done opened tested () test
  obtain ⟨jumped, jumpTable⟩ := emitted_extends (goto head) ended repeated () back
  obtain ⟨closed, closeTable⟩ := emitted_extends (mark done) repeated after () close
  have between := Lowering.extends_trans opened tested ended _ code tests.emitted body.emitted
  have grown := between.size
  have targets : done.id ∈ [done.id, head.id] := List.mem_cons_self
  have inner : Confined opened.table.size ended.table.size [done.id, head.id]
      (((check ++ [jump]) ++ code) ++ [goto head]) := by
    apply confined_append _ ended.table.size _ _ _ _ _ (goto_confined _ _ _ head (by simp)) (by lia)
    exact confined_append _ tested.table.size _ _ _ _ (tested_confined done opened tested check jump tests _
      targets) (confined_weaken _ _ _ _ [] _ code body.confined ⟨Nat.le_refl _, Nat.le_refl _⟩
      (List.nil_subset _)) ⟨tests.emitted.size, body.emitted.size⟩
  have freshDone : done.id ∉ marks (((check ++ [jump]) ++ code) ++ [goto head]) := by
    intro member
    have range := inner.fresh _ member
    lia
  have lower : Confined (state.table.size + 1) ended.table.size [head.id]
      ((((check ++ [jump]) ++ code) ++ [goto head]) ++ [mark done]) := by
    apply confined_place _ _ [head.id] done _ _ (Or.inl rfl) _ freshDone (by lia)
    exact confined_weaken _ _ _ _ _ _ _ inner (by lia) (List.Subset.refl _)
  have freshHead : head.id ∉ marks ((((check ++ [jump]) ++ code) ++ [goto head]) ++ [mark done]) := by
    intro member
    have range := lower.fresh _ member
    lia
  refine ⟨mark head :: ((((check ++ [jump]) ++ code) ++ [goto head]) ++ [mark done]), ?_, ?_⟩
  · have lowest := Lowering.extends_trans ended repeated after _ _ jumped closed
    have rest := Lowering.extends_trans opened ended after _ _ between lowest
    rw [List.append_assoc ((check ++ [jump]) ++ code)]
    exact Lowering.extends_trans state opened after [mark head] _ start rest
  · rw [closeTable, jumpTable]
    apply confined_place _ _ [] head _ _ (Or.inr rfl) _ freshHead (by lia)
    exact confined_weaken _ _ _ _ _ _ _ lower (by lia) (List.Subset.refl _)

theorem statement_fragment (node : Node) (state after : Lowering) (ran : statement node state = .ok () after) :
    ∃ code, Fragment state after code := by
  induction node using Node.construct_induction generalizing state after with
  | each node ih =>
      cases shape : node.construct with
      | plain =>
          rw [statement_construct, shape] at ran
          obtain ⟨code, emitted, plain⟩ := simple_straight node state after () ran
          exact ⟨code, emitted, confined_plain _ _ [] code plain⟩
      | ret value =>
          rw [statement_construct, shape] at ran
          exact ret_fragment value state after ran
      | sequence first rest =>
          obtain ⟨middle, early, late⟩ := sequence_stages node first rest shape state after ran
          obtain ⟨firstCode, firstFragment⟩ := ih first (by simp [shape, Construct.parts]) state middle early
          obtain ⟨restCode, restFragment⟩ := ih rest (by simp [shape, Construct.parts]) middle after late
          exact ⟨firstCode ++ restCode,
            fragment_append state middle after firstCode restCode firstFragment restFragment⟩
      | conditional condition consequent alternative =>
          obtain ⟨otherwise, labelled, tested, joined, label, test, lowered, rest⟩ :=
            conditional_stages node condition consequent alternative shape state after ran
          obtain ⟨code, body⟩ := ih consequent (by simp [shape, Construct.parts]) tested joined lowered
          cases alternative with
          | none =>
              exact skipping_fragment condition otherwise state labelled tested joined after code label test
                body rest
          | some node =>
              obtain ⟨done, turned, finished, turns, loweredOther, close⟩ := rest
              obtain ⟨other, second⟩ := ih node (by simp [shape, Construct.parts]) turned finished loweredOther
              exact branching_fragment condition otherwise done state labelled tested joined turned finished
                after code other label test body turns second close
      | loop condition body =>
          obtain ⟨head, done, opened, tested, ended, repeated, opens, test, lowered, back, close⟩ :=
            loop_stages node condition body shape state after ran
          obtain ⟨code, inner⟩ := ih body (by simp [shape, Construct.parts]) tested ended lowered
          exact loop_fragment condition head done state opened tested ended repeated after code opens test inner
            back close

def entry (id : SymbolId) (symbol : Symbol) : Statement :=
  ⟨.void, .func, some (.symbol ⟨id, symbol.ty⟩), none, none⟩

def begun (id : SymbolId) (symbol : Symbol) (state : Lowering) : Lowering :=
  { state with function := some id, program := ⟨state.program.statements ++ [entry id symbol]⟩ }

theorem function_stages (id : SymbolId) (root : Node) (state after : Lowering)
    (ran : function id root state = .ok () after) :
    ∃ symbol finished, functionSymbol id state = .ok symbol state ∧
      statement root (begun id symbol state) = .ok () finished ∧
      after = { finished with function := none } := by
  simp only [function, bind_ok, discard_ok, emit_ok] at ran
  obtain ⟨symbol, looked, found, _, entered, ⟨_, enters⟩, _, opened, ⟨_, _, _, opens⟩, _, finished, lowered, _,
    leaves⟩ := ran
  have same : looked = state := by
    unfold functionSymbol at found
    grind
  subst same
  obtain ⟨_, rfl⟩ := EStateM.Result.ok.inj enters
  obtain ⟨_, rfl⟩ := EStateM.Result.ok.inj leaves
  subst opens
  exact ⟨symbol, finished, found, lowered, rfl⟩

theorem function_fragment (id : SymbolId) (root : Node) (state after : Lowering)
    (outside : state.function = none) (ran : function id root state = .ok () after) :
    ∃ symbol code, Fragment state after (entry id symbol :: code) := by
  obtain ⟨symbol, finished, _, lowered, rfl⟩ := function_stages id root state after ran
  obtain ⟨code, body⟩ := statement_fragment root _ finished lowered
  refine ⟨symbol, code, ⟨?_, outside.symm, body.emitted.functions, body.emitted.symbols⟩, ?_⟩
  · rw [body.emitted.program, begun, List.append_assoc]
    rfl
  · have opening : Confined state.table.size state.table.size [] [entry id symbol] := by
      apply confined_single
      · simp [entry]
      · intro label jumps
        cases jumps
    exact confined_append _ state.table.size _ [] _ code opening body.confined
      ⟨Nat.le_refl _, body.emitted.size⟩

theorem functions_fragment (body : SymbolId → Node) (ids : List SymbolId) (state after : Lowering)
    (outside : state.function = none) (ran : functions body ids state = .ok () after) :
    ∃ code, Fragment state after code ∧ (∀ first, code.head? = some first → first.opcode = .func) ∧
      ∀ id ∈ ids, ∃ symbol, entry id symbol ∈ code := by
  induction ids generalizing state with
  | nil =>
      obtain ⟨_, rfl⟩ := (pure_ok () () state after).mp ran
      exact ⟨[], ⟨state.extends_refl, confined_plain _ _ [] [] (by simp)⟩, by simp, by simp⟩
  | cons id rest ih =>
      obtain ⟨_, middle, first, others⟩ := (bind_ok _ _ state after ()).mp ran
      obtain ⟨symbol, code, fragment⟩ := function_fragment id (body id) state middle outside first
      obtain ⟨more, fragmentRest, _, entries⟩ := ih middle (fragment.emitted.function.trans outside) others
      refine ⟨(entry id symbol :: code) ++ more,
        fragment_append state middle after _ more fragment fragmentRest, ?_, ?_⟩
      · intro first head
        obtain rfl : entry id symbol = first := by simpa using head
        rfl
      · intro other listed
        rcases List.mem_cons.mp listed with rfl | later
        · exact ⟨symbol, List.mem_cons_self⟩
        · obtain ⟨otherSymbol, member⟩ := entries other later
          exact ⟨otherSymbol, List.mem_append_right _ member⟩

theorem functions_append (body : SymbolId → Node) (earlier later : List SymbolId) (state after : Lowering) :
    functions body (earlier ++ later) state = .ok () after ↔
      ∃ middle, functions body earlier state = .ok () middle ∧ functions body later middle = .ok () after := by
  induction earlier generalizing state with
  | nil =>
      simp only [List.nil_append, functions, pure_ok, true_and, exists_eq_left']
  | cons id rest ih =>
      simp only [List.cons_append, functions, bind_ok, ih]
      constructor
      · intro stages
        obtain ⟨u, first, one, middle, early, late⟩ := stages
        exact ⟨middle, ⟨u, first, one, early⟩, late⟩
      · intro stages
        obtain ⟨middle, ⟨u, first, one, early⟩, late⟩ := stages
        exact ⟨u, first, one, middle, early, late⟩

end Lower

end ThreeAddress
